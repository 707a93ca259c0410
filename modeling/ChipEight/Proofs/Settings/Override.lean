import ChipEight.CommandLine.Options
import ChipEight.Proofs.Settings.Validation

/-!
# The command line over valid settings

An option of the command line sets one value in one group.  If the table has been accepted before, the
group is there, so that the value can be set at all.  And the table is accepted again afterwards: every
step of the validation looks at another value, which is the same as before, or it looks at the new one,
and the options are such that this one passes (`Settings.overlay_of_valid`).
-/

namespace ChipEight

open Toml (Table Value)

namespace Settings

variable {t : Table} {group key : String} {v : Value}

/-- The table is accepted. -/
def Valid (t : Table) : Prop :=
  validate t = .ok ()

theorem valid_iff :
    Valid t ↔ (∀ c ∈ groupChecks, c.run t = .ok ()) ∧ ∀ c ∈ valueChecks, c.run t = .ok () := by
  rw [← forM_eq_ok, ← forM_eq_ok]
  unfold Valid validate
  cases groupChecks.forM (·.run t) with
  | error complaint => simp
  | ok u => simp

theorem Valid.exists_group (h : Valid t) (hgroup : group ∈ defaults.keys) :
    ∃ inner, t.get? group = some (.table inner) :=
  table_of_groupChecks (valid_iff.mp h).1 hgroup

/-! ### Setting one value -/

theorem get?_assign_self {inner : Table} (h : t.get? group = some (.table inner)) (key : String)
    (v : Value) :
    (assign group key v t).get? group = some (.table (inner.put key v)) := by
  simp [assign, h]

theorem get?_assign_of_ne {other : String} (h : other ≠ group) :
    (assign group key v t).get? other = t.get? other := by
  unfold assign
  split
  · rw [Table.get?_put, if_neg h]
  · rfl

theorem run_congr {t' : Table} (c : Check) (h : t'.get? c.group = t.get? c.group) :
    c.run t' = c.run t := by
  cases c with
  | table group =>
    rw [Check.group] at h
    rw [run_table, run_table, h]
  | value group key test =>
    rw [Check.group] at h
    simp only [Check.run, Value.item, h]
  | entries group test =>
    rw [Check.group] at h
    simp only [Check.run, Value.item, h]

/-- A step has nothing against a new value: it does not look at it, or lets it pass. -/
def Check.Admits (group key : String) (v : Value) : Check → Prop
  | .table _ => True
  | .value group' key' test => group' = group → key' = key → test v = .ok ()
  | .entries group' _ => group' ≠ group

theorem run_assign {c : Check} {inner : Table} (hadmits : c.Admits group key v)
    (hgroup : t.get? group = some (.table inner)) (hrun : c.run t = .ok ()) :
    c.run (assign group key v t) = .ok () := by
  by_cases hsame : c.group = group
  · have hnew := get?_assign_self hgroup key v
    cases c with
    | table group' =>
      obtain rfl : group' = group := hsame
      rw [run_table, hnew]
    | value group' key' test =>
      obtain rfl : group' = group := hsame
      rw [run_value hgroup] at hrun
      rw [run_value hnew, Table.get?_put]
      by_cases hkey : key' = key
      · rw [if_pos hkey]
        exact hadmits rfl hkey
      · rw [if_neg hkey]
        exact hrun
    | entries group' test => exact absurd hsame hadmits
  · rw [run_congr c (get?_assign_of_ne hsame)]
    exact hrun

theorem Valid.assign (h : Valid t) (hgroup : group ∈ defaults.keys)
    (hadmits : ∀ c ∈ valueChecks, c.Admits group key v) : Valid (assign group key v t) := by
  obtain ⟨inner, hinner⟩ := h.exists_group hgroup
  obtain ⟨hgroups, hvalues⟩ := valid_iff.mp h
  refine valid_iff.mpr ⟨?_, ?_⟩
  · intro c hc
    obtain ⟨name, -, rfl⟩ := List.mem_map.mp hc
    exact run_assign trivial hinner (hgroups _ hc)
  · intro c hc
    exact run_assign (hadmits c hc) hinner (hvalues c hc)

/-! ### Setting what the command line says -/

/-- Sets a value of a group, if there is one to be set. The group must be a table. -/
def setGiven (group key : String) (v : Option Value) (t : Table) : Except Misuse Table :=
  match v with
  | none => .ok t
  | some v =>
    match t.get? group with
    | some (.table inner) => .ok (t.put group (.table (Table.put key v inner)))
    | some _ => .error .wrongKind
    | none => .error (.noKey group)

/-- Lays the options over a table, of which it is not known whether it has the groups. -/
def overlay (o : Options) (t : Table) : Except Misuse Table := do
  let t ← setGiven "general" "cycles_per_second" (o.cyclesPerSecond.map Options.atLeastOne) t
  let t ← setGiven "general" "scale" (o.scale.map Options.atLeastOne) t
  let t ← setGiven "audio" "enable" (if o.mute then some (.number (.truth false)) else none) t
  setGiven "debug" "trace" (if o.trace then some (.number (.truth true)) else none) t

theorem setGiven_of_valid (h : Valid t) (hgroup : group ∈ defaults.keys) (given : Option Value)
    (hadmits : ∀ v ∈ given, ∀ c ∈ valueChecks, c.Admits group key v) :
    setGiven group key given t = .ok (Options.assignGiven group key given t) ∧
      Valid (Options.assignGiven group key given t) := by
  cases given with
  | none => exact ⟨rfl, h⟩
  | some v =>
    obtain ⟨inner, hinner⟩ := h.exists_group hgroup
    have hset : setGiven group key (some v) t = .ok (assign group key v t) := by
      simp only [setGiven, assign, hinner]
    exact ⟨hset, h.assign hgroup (hadmits v rfl)⟩

theorem applyTo_eq (o : Options) (t : Table) :
    o.applyTo t =
      Options.assignGiven "debug" "trace" (if o.trace then some (.number (.truth true)) else none)
        (Options.assignGiven "audio" "enable"
          (if o.mute then some (.number (.truth false)) else none)
          (Options.assignGiven "general" "scale" (o.scale.map Options.atLeastOne)
            (Options.assignGiven "general" "cycles_per_second"
              (o.cyclesPerSecond.map Options.atLeastOne) t))) := by
  unfold Options.applyTo
  cases o.mute <;> cases o.trace <;> rfl

/-- What is asked for on the command line is at least one. -/
theorem testPositiveInteger_atLeastOne (name : String) (n : Int) :
    testPositiveInteger name (Options.atLeastOne n) = .ok () := by
  rw [testPositiveInteger_eq, Options.atLeastOne, positiveInteger, if_pos (by omega)]
  rfl

theorem admits_speed (n : Int) :
    ∀ c ∈ valueChecks, c.Admits "general" "cycles_per_second" (Options.atLeastOne n) := by
  simp [valueChecks, Check.Admits, testPositiveInteger_atLeastOne]

theorem admits_scale (n : Int) :
    ∀ c ∈ valueChecks, c.Admits "general" "scale" (Options.atLeastOne n) := by
  simp [valueChecks, Check.Admits, testPositiveInteger_atLeastOne]

theorem admits_enable (b : Bool) :
    ∀ c ∈ valueChecks, c.Admits "audio" "enable" (.number (.truth b)) := by
  simp [valueChecks, Check.Admits, testTruth, reject, Value.isTruth]

theorem admits_trace (b : Bool) :
    ∀ c ∈ valueChecks, c.Admits "debug" "trace" (.number (.truth b)) := by
  simp [valueChecks, Check.Admits, testTruth, reject, Value.isTruth]

/-- Options can be laid over a table that has been accepted, and it is accepted again. -/
theorem overlay_of_valid (o : Options) (h : Valid t) :
    overlay o t = .ok (o.applyTo t) ∧ Valid (o.applyTo t) := by
  rw [applyTo_eq]
  have hspeed : ∀ v ∈ o.cyclesPerSecond.map Options.atLeastOne,
      ∀ c ∈ valueChecks, c.Admits "general" "cycles_per_second" v := by
    intro v hv
    obtain ⟨n, -, rfl⟩ := Option.map_eq_some_iff.mp hv
    exact admits_speed n
  have hscale : ∀ v ∈ o.scale.map Options.atLeastOne,
      ∀ c ∈ valueChecks, c.Admits "general" "scale" v := by
    intro v hv
    obtain ⟨n, -, rfl⟩ := Option.map_eq_some_iff.mp hv
    exact admits_scale n
  have henable : ∀ v ∈ (if o.mute then some (Value.number (.truth false)) else none),
      ∀ c ∈ valueChecks, c.Admits "audio" "enable" v := by
    intro v hv
    split at hv
    · cases hv
      exact admits_enable false
    · cases hv
  have htrace : ∀ v ∈ (if o.trace then some (Value.number (.truth true)) else none),
      ∀ c ∈ valueChecks, c.Admits "debug" "trace" v := by
    intro v hv
    split at hv
    · cases hv
      exact admits_trace true
    · cases hv
  obtain ⟨hset₁, h⟩ := setGiven_of_valid h (by decide) _ hspeed
  obtain ⟨hset₂, h⟩ := setGiven_of_valid h (by decide) _ hscale
  obtain ⟨hset₃, h⟩ := setGiven_of_valid h (by decide) _ henable
  obtain ⟨hset₄, h⟩ := setGiven_of_valid h (by decide) _ htrace
  refine ⟨?_, h⟩
  rw [overlay, hset₁, ok_bind, hset₂, ok_bind, hset₃, ok_bind, hset₄]

end Settings

end ChipEight
