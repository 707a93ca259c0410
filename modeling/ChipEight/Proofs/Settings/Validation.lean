import ChipEight.Proofs.Sequencing
import ChipEight.Proofs.Toml.Merge
import ChipEight.Settings.Basic

/-!
# Validating a table of settings

`Settings.ofTable` reads the settings out of a table by looking at the form of its values.  Here the same
is done step by step, with questions that not every value can answer: only a table has a value behind a
key, only numbers can be compared, only texts begin with a mark.  So there are two ways in which the
validation can end badly.  It may find fault with the table, or it may trip over it, by a question to a
value that cannot answer it (`Complaint`).

The two agree (`Settings.validate_eq`): what the reader finds missing is what the validation trips over,
and everything else is a fault.  And nothing but a missing key is there to trip over.  First all the groups
of the defaults must be tables, and after that a test asks about the kind of a value before it asks for
anything else.  If every group still has the keys that it has in the defaults, or is no table at all, the
validation does not trip (`Settings.validate_ne_misuse`).
-/

namespace ChipEight

open Toml (Table Value)

/-- What goes wrong when a value is asked for something that it does not have. -/
inductive Misuse where
  | noKey (name : String)
  | wrongKind
  deriving DecidableEq, Repr

/-- How a validation ends badly. -/
inductive Complaint where
  | invalid (cause : SettingFault)
  | misuse (cause : Misuse)
  deriving DecidableEq, Repr

namespace Toml.Value

def isTable : Value → Bool
  | .table _ => true
  | _ => false

def isText : Value → Bool
  | .text _ => true
  | _ => false

def isNumber : Value → Bool
  | .number _ => true
  | _ => false

def isTruth : Value → Bool
  | .number (.truth _) => true
  | _ => false

/-- Whether a value is an integer; truth values count as such. -/
def isInteger : Value → Bool
  | .number (.integer _) => true
  | .number (.truth _) => true
  | _ => false

/-- Whether a value counts as nothing. -/
def isBlank : Value → Bool
  | .number n => n.same (.integer 0)
  | .text s => s.isEmpty
  | .moment _ => false
  | .null => true
  | .array items => items.isEmpty
  | .table entries => entries.isEmpty

/-- The value behind a key. -/
def item (v : Value) (key : String) : Except Misuse Value :=
  match v with
  | .table entries =>
    match Table.get? entries key with
    | some w => .ok w
    | none => .error (.noKey key)
  | _ => .error .wrongKind

/-- All keys with their values. -/
def items : Value → Except Misuse Table
  | .table entries => .ok entries
  | _ => .error .wrongKind

/-- Whether a value is at most a number. -/
def atMost (bound : Number) : Value → Except Misuse Bool
  | .number n => .ok (n.le bound)
  | _ => .error .wrongKind

/-- Whether a value is neither below one number nor above another. -/
def between (low high : Number) : Value → Except Misuse Bool
  | .number n => .ok (low.le n && n.le high)
  | _ => .error .wrongKind

/-- How long a value is. -/
def length : Value → Except Misuse Nat
  | .text s => .ok s.toList.length
  | .array items => .ok items.length
  | .table entries => .ok entries.length
  | _ => .error .wrongKind

/-- Whether a value begins with a character. -/
def beginsWith (c : Char) : Value → Except Misuse Bool
  | .text s => .ok (s.toList.head? = some c)
  | _ => .error .wrongKind

/-- A text without its first character. -/
def tail : Value → Except Misuse String
  | .text s => .ok (String.ofList s.toList.tail)
  | _ => .error .wrongKind

end Toml.Value

namespace Settings

/-! ### Tests of a value -/

/-- Puts a second question if the answer to the first is no. -/
def orElse (first : Bool) (second : Except Misuse Bool) : Except Misuse Bool :=
  if first then .ok true else second

/-- Finds fault if the answer to a question is yes. -/
def reject (cause : SettingFault) (answer : Except Misuse Bool) : Except Complaint Unit :=
  match answer with
  | .ok true => .error (.invalid cause)
  | .ok false => .ok ()
  | .error trip => .error (.misuse trip)

def testPositiveInteger (name : String) (v : Value) : Except Complaint Unit :=
  reject (.notPositiveInteger name)
    (orElse (!v.isInteger) (orElse v.isTruth (v.atMost (.integer 0))))

def testTruth (name : String) (v : Value) : Except Complaint Unit :=
  reject (.notTruth name) (.ok (!v.isTruth))

def testPositive (name : String) (v : Value) : Except Complaint Unit :=
  reject (.notPositive name) (orElse (!v.isNumber) (v.atMost (.integer 0)))

def testFraction (name : String) (v : Value) : Except Complaint Unit :=
  reject (.notFraction name)
    (orElse (!v.isNumber) ((v.between (.integer 0) (.integer 1)).map (!·)))

def testColor (name : String) (v : Value) : Except Complaint Unit := do
  let wrongForm := do
    let length ← v.length
    orElse (length ≠ 7) ((v.beginsWith '#').map (!·))
  reject (.notColor name) (orElse (!v.isText) wrongForm)
  let digits ← v.tail.mapError .misuse
  reject (.notHexadecimal digits) (.ok (Text.IntegerLiteral.parse? 16 digits).isNone)

def testBinding (e : String × Value) : Except Complaint Unit := do
  reject (.notMachineKey e.1) (.ok (!isMachineKey e.1))
  reject (.notKeyName e.1) (orElse (!e.2.isText) (.ok e.2.isBlank))

/-! ### Steps of the validation -/

/-- A step of the validation. -/
inductive Check where
  /-- A group must be a table. -/
  | table (group : String)
  /-- The value behind a key of a group must pass a test. -/
  | value (group key : String) (test : Value → Except Complaint Unit)
  /-- All entries of a group must pass a test. -/
  | entries (group : String) (test : String × Value → Except Complaint Unit)

/-- The group that a step looks at. -/
def Check.group : Check → String
  | .table group => group
  | .value group _ _ => group
  | .entries group _ => group

/-- What comes of a step. -/
def Check.run (t : Table) : Check → Except Complaint Unit
  | .table group => reject (.notTable group) (.ok (!(t.get? group).any Value.isTable))
  | .value group key test => do
    let inner ← ((Value.table t).item group).mapError .misuse
    let v ← (inner.item key).mapError .misuse
    test v
  | .entries group test => do
    let inner ← ((Value.table t).item group).mapError .misuse
    let entries ← inner.items.mapError .misuse
    entries.forM test

/-- The steps that are taken first: all groups of the defaults must be tables. -/
def groupChecks : List Check :=
  defaults.keys.map .table

/-- The steps that look at values. -/
def valueChecks : List Check :=
  [.value "general" "cycles_per_second" (testPositiveInteger "general.cycles_per_second"),
   .value "general" "scale" (testPositiveInteger "general.scale"),
   .value "audio" "enable" (testTruth "audio.enable"),
   .value "audio" "frequency" (testPositive "audio.frequency"),
   .value "audio" "volume" (testFraction "audio.volume"),
   .value "colors" "foreground" (testColor "colors.foreground"),
   .value "colors" "background" (testColor "colors.background"),
   .entries "keyboard" testBinding,
   .value "debug" "trace" (testTruth "debug.trace")]

/-- Validates a table. -/
def validate (t : Table) : Except Complaint Unit := do
  groupChecks.forM (·.run t)
  valueChecks.forM (·.run t)

end Settings

/-! ### Agreement with the reader -/

/-- A fault as a complaint. -/
def SettingFault.complaint : SettingFault → Complaint
  | missing name => .misuse (.noKey name)
  | cause => .invalid cause

namespace Settings

variable {α β : Type} {t : Table}

/-- How a validation ends where a reader has a result. -/
def verdict : Except SettingFault α → Except Complaint Unit
  | .ok _ => .ok ()
  | .error cause => .error cause.complaint

theorem testPositiveInteger_eq (name : String) (v : Value) :
    testPositiveInteger name v = verdict (positiveInteger name v) := by
  cases v with
  | number n =>
    cases n with
    | integer n =>
      by_cases h : 0 < n
      · simp [testPositiveInteger, positiveInteger, verdict, reject, orElse, Value.isInteger,
          Value.isTruth, Value.atMost, Number.le, Number.isNan, Number.lt, Number.integer?, h]
      · simp [testPositiveInteger, positiveInteger, verdict, reject, orElse, Value.isInteger,
          Value.isTruth, Value.atMost, Number.le, Number.isNan, Number.lt, Number.integer?, h,
          SettingFault.complaint]
    | truth b => rfl
    | real x => rfl
  | _ => rfl

theorem testTruth_eq (name : String) (v : Value) :
    testTruth name v = verdict (truth name v) := by
  cases v with
  | number n => cases n <;> rfl
  | _ => rfl

theorem testPositive_eq (name : String) (v : Value) :
    testPositive name v = verdict (positive name v) := by
  cases v with
  | number n =>
    by_cases h : n.le (.integer 0) = true
    · simp [testPositive, positive, verdict, reject, orElse, Value.isNumber, Value.atMost, h,
        SettingFault.complaint]
    · simp [testPositive, positive, verdict, reject, orElse, Value.isNumber, Value.atMost, h]
  | _ => rfl

theorem testFraction_eq (name : String) (v : Value) :
    testFraction name v = verdict (fraction name v) := by
  cases v with
  | number n =>
    by_cases h : (Number.le (.integer 0) n && n.le (.integer 1)) = true
    · simp only [testFraction, fraction, verdict, reject, orElse, Value.isNumber, Value.between, h,
        Except.map]
      rfl
    · simp only [testFraction, fraction, verdict, reject, orElse, Value.isNumber, Value.between, h,
        Except.map]
      rfl
  | _ => rfl

theorem testColor_text (name s : String) :
    testColor name (.text s) = (do
      reject (.notColor name)
        (.ok (decide (s.toList.length ≠ 7) || !decide (s.toList.head? = some '#')))
      let digits := String.ofList s.toList.tail
      reject (.notHexadecimal digits) (.ok (Text.IntegerLiteral.parse? 16 digits).isNone)) := by
  by_cases h : s.toList.length = 7
  · simp [testColor, orElse, Value.isText, Value.length, Value.beginsWith, Value.tail, h]
  · simp [testColor, orElse, Value.isText, Value.length, Value.beginsWith, Value.tail, h]

theorem testColor_eq (name : String) (v : Value) :
    testColor name v = verdict (color name v) := by
  cases v with
  | text s =>
    rw [testColor_text]
    simp only [color]
    cases hs : s.toList with
    | nil => rfl
    | cons c digits =>
      by_cases hmark : c = '#'
      · subst hmark
        by_cases hlength : digits.length = 6
        · cases hparse : Text.IntegerLiteral.parse? 16 (String.ofList digits) with
          | none => simp [hlength, hparse, reject, verdict, SettingFault.complaint]
          | some n => simp [hlength, hparse, reject, verdict]
        · simp [hlength, reject, verdict, SettingFault.complaint]
      · simp [hmark, reject, verdict, SettingFault.complaint]
  | _ => rfl

theorem testBinding_eq (e : String × Value) : testBinding e = verdict (binding e) := by
  obtain ⟨machineKey, v⟩ := e
  unfold testBinding binding
  by_cases hkey : isMachineKey machineKey = true
  · cases v with
    | text s =>
      by_cases hs : s.isEmpty = true
      · simp [hkey, hs, reject, orElse, Value.isText, Value.isBlank, verdict,
          SettingFault.complaint]
      · simp [hkey, hs, reject, orElse, Value.isText, Value.isBlank, verdict]
    | _ => simp [hkey, reject, orElse, Value.isText, verdict, SettingFault.complaint]
  · simp [hkey, reject, verdict, SettingFault.complaint]

theorem forM_testBinding (entries : Table) :
    entries.forM testBinding = verdict (entries.mapM binding) := by
  induction entries with
  | nil => rfl
  | cons e rest ih =>
    change (testBinding e >>= fun _ => List.forM rest testBinding) = _
    rw [List.mapM_cons, testBinding_eq, ih]
    cases binding e with
    | error cause => rfl
    | ok b =>
      cases List.mapM binding rest with
      | error cause => rfl
      | ok bs => rfl

theorem run_table (t : Table) (group : String) :
    (Check.table group).run t =
      match t.get? group with
      | some (.table _) => .ok ()
      | _ => .error (.invalid (.notTable group)) := by
  simp only [Check.run]
  cases t.get? group with
  | none => rfl
  | some v => cases v <;> rfl

theorem run_value {group key : String} {test : Value → Except Complaint Unit} {inner : Table}
    (h : t.get? group = some (.table inner)) :
    (Check.value group key test).run t =
      match inner.get? key with
      | some v => test v
      | none => .error (.misuse (.noKey key)) := by
  simp only [Check.run, Value.item, h, mapError_ok, ok_bind]
  cases inner.get? key with
  | none => rfl
  | some v => rfl

theorem run_entries {group : String} {test : String × Value → Except Complaint Unit} {inner : Table}
    (h : t.get? group = some (.table inner)) :
    (Check.entries group test).run t = inner.forM test := by
  simp only [Check.run, Value.item, Value.items, h, mapError_ok, ok_bind]

theorem run_table_bind {group : String} {k : Table → Except SettingFault α}
    {rest : Except Complaint Unit}
    (h : ∀ inner, t.get? group = some (.table inner) → rest = verdict (k inner)) :
    ((Check.table group).run t >>= fun _ => rest) = verdict (nest t group >>= k) := by
  rw [run_table, nest]
  cases hgroup : t.get? group with
  | none => rfl
  | some v =>
    cases v with
    | table inner => exact h inner hgroup
    | _ => rfl

theorem run_value_bind {group key : String} {test : Value → Except Complaint Unit}
    {read : Value → Except SettingFault α} {k : α → Except SettingFault β}
    {rest : Except Complaint Unit} {inner : Table} (hinner : t.get? group = some (.table inner))
    (htest : ∀ v, test v = verdict (read v)) (h : ∀ a, rest = verdict (k a)) :
    ((Check.value group key test).run t >>= fun _ => rest) =
      verdict (entry inner key >>= fun v => read v >>= k) := by
  rw [run_value hinner, entry]
  cases inner.get? key with
  | none => rfl
  | some v =>
    simp only [ok_bind, htest]
    cases read v with
    | error cause => rfl
    | ok a => exact h a

theorem run_bindings_bind {group : String} {k : List (String × String) → Except SettingFault β}
    {rest : Except Complaint Unit} {inner : Table} (hinner : t.get? group = some (.table inner))
    (h : ∀ a, rest = verdict (k a)) :
    ((Check.entries group testBinding).run t >>= fun _ => rest) =
      verdict (inner.mapM binding >>= k) := by
  rw [run_entries hinner, forM_testBinding]
  cases inner.mapM binding with
  | error cause => rfl
  | ok a => exact h a

/-- The validation ends as the reader does. -/
theorem validate_eq (t : Table) : validate t = verdict (ofTable t) := by
  simp only [validate, groupChecks, valueChecks, defaults, Table.keys, List.map_cons, List.map_nil,
    forM_cons, bind_assoc]
  rw [ofTable]
  refine run_table_bind fun general hgeneral => ?_
  refine run_table_bind fun audio haudio => ?_
  refine run_table_bind fun colors hcolors => ?_
  refine run_table_bind fun keyboard hkeyboard => ?_
  refine run_table_bind fun debug hdebug => ?_
  refine run_value_bind hgeneral (testPositiveInteger_eq _) fun cyclesPerSecond => ?_
  refine run_value_bind hgeneral (testPositiveInteger_eq _) fun scale => ?_
  refine run_value_bind haudio (testTruth_eq _) fun hasAudio => ?_
  refine run_value_bind haudio (testPositive_eq _) fun frequency => ?_
  refine run_value_bind haudio (testFraction_eq _) fun volume => ?_
  refine run_value_bind hcolors (testColor_eq _) fun foreground => ?_
  refine run_value_bind hcolors (testColor_eq _) fun background => ?_
  refine run_bindings_bind hkeyboard fun bindings => ?_
  exact run_value_bind hdebug (testTruth_eq _) fun tracing => rfl

/-! ### Nothing to trip over -/

/-- A test that trips over nothing. -/
def Safe (test : β → Except Complaint Unit) : Prop :=
  ∀ b trip, test b ≠ .error (.misuse trip)

/-- A test is safe if the reader that it agrees with looks up no key. -/
theorem safe_of_eq {test : β → Except Complaint Unit} {read : β → Except SettingFault α}
    (heq : ∀ b, test b = verdict (read b)) (hread : ∀ b name, read b ≠ .error (.missing name)) :
    Safe test := by
  intro b trip htrip
  rw [heq] at htrip
  cases hresult : read b with
  | ok a =>
    rw [hresult] at htrip
    cases htrip
  | error cause =>
    rw [hresult] at htrip
    cases cause with
    | missing name => exact hread b name hresult
    | _ => cases htrip

theorem safe_testPositiveInteger (name : String) : Safe (testPositiveInteger name) := by
  refine safe_of_eq (testPositiveInteger_eq name) fun v missing => ?_
  unfold positiveInteger
  split
  · split <;> simp
  · simp

theorem safe_testTruth (name : String) : Safe (testTruth name) := by
  refine safe_of_eq (testTruth_eq name) fun v missing => ?_
  unfold truth
  split <;> simp

theorem safe_testPositive (name : String) : Safe (testPositive name) := by
  refine safe_of_eq (testPositive_eq name) fun v missing => ?_
  unfold positive
  split
  · split <;> simp
  · simp

theorem safe_testFraction (name : String) : Safe (testFraction name) := by
  refine safe_of_eq (testFraction_eq name) fun v missing => ?_
  unfold fraction
  split
  · split <;> simp
  · simp

theorem safe_testColor (name : String) : Safe (testColor name) := by
  refine safe_of_eq (testColor_eq name) fun v missing => ?_
  unfold color
  split
  · split
    · split
      · simp
      · split <;> simp
    · simp
  · simp

theorem safe_testBinding : Safe testBinding := by
  refine safe_of_eq testBinding_eq fun e missing => ?_
  obtain ⟨machineKey, v⟩ := e
  simp only [binding]
  split
  · simp
  · split
    · split <;> simp
    · simp

/-- A step that asks only for what the defaults have, with a test that is safe. -/
def Check.Covered : Check → Prop
  | .table _ => True
  | .value group key test =>
    (∃ entries, defaults.get? group = some (.table entries) ∧ key ∈ Table.keys entries) ∧ Safe test
  | .entries group test => (∃ entries, defaults.get? group = some (.table entries)) ∧ Safe test

theorem covered_of_mem : ∀ c ∈ valueChecks, c.Covered := by
  simp only [valueChecks, List.forall_mem_cons]
  refine ⟨⟨⟨_, rfl, by decide⟩, safe_testPositiveInteger _⟩,
    ⟨⟨_, rfl, by decide⟩, safe_testPositiveInteger _⟩,
    ⟨⟨_, rfl, by decide⟩, safe_testTruth _⟩,
    ⟨⟨_, rfl, by decide⟩, safe_testPositive _⟩,
    ⟨⟨_, rfl, by decide⟩, safe_testFraction _⟩,
    ⟨⟨_, rfl, by decide⟩, safe_testColor _⟩,
    ⟨⟨_, rfl, by decide⟩, safe_testColor _⟩,
    ⟨⟨_, rfl⟩, safe_testBinding⟩,
    ⟨⟨_, rfl, by decide⟩, safe_testTruth _⟩,
    by simp⟩

/-- Every group that is a table has the keys that it has in the defaults. -/
def Complete (t : Table) : Prop :=
  ∀ ⦃group : String⦄ ⦃entries inner : Table⦄, defaults.get? group = some (.table entries) →
    t.get? group = some (.table inner) → entries.keys ⊆ inner.keys

theorem complete_merge {written : Table} (h : written.Distinct) :
    Complete (defaults.merge written) := by
  intro group entries inner hdefault hmerged
  exact Table.keys_subset_of_merge h hdefault hmerged

/-- Once all groups have been found to be tables, they are. -/
theorem table_of_groupChecks (h : ∀ c ∈ groupChecks, c.run t = .ok ()) {group : String}
    (hgroup : group ∈ defaults.keys) : ∃ inner, t.get? group = some (.table inner) := by
  have hrun := h (.table group) (List.mem_map_of_mem hgroup)
  rw [run_table] at hrun
  split at hrun
  case h_1 inner hinner => exact ⟨inner, hinner⟩
  case h_2 => cases hrun

theorem run_table_ne_misuse (t : Table) (group : String) (trip : Misuse) :
    (Check.table group).run t ≠ .error (.misuse trip) := by
  rw [run_table]
  split <;> simp

theorem run_ne_misuse (hcomplete : Complete t) (hgroups : ∀ c ∈ groupChecks, c.run t = .ok ())
    {c : Check} (hc : c.Covered) (trip : Misuse) : c.run t ≠ .error (.misuse trip) := by
  intro htrip
  cases c with
  | table group => exact run_table_ne_misuse t group trip htrip
  | value group key test =>
    obtain ⟨⟨entries, hdefault, hkey⟩, hsafe⟩ := hc
    obtain ⟨inner, hinner⟩ := table_of_groupChecks hgroups (Table.mem_keys_of_get? hdefault)
    rw [run_value hinner] at htrip
    split at htrip
    case h_1 v hv => exact hsafe v trip htrip
    case h_2 hnone => exact Table.get?_eq_none_iff.mp hnone (hcomplete hdefault hinner hkey)
  | entries group test =>
    obtain ⟨⟨entries, hdefault⟩, hsafe⟩ := hc
    obtain ⟨inner, hinner⟩ := table_of_groupChecks hgroups (Table.mem_keys_of_get? hdefault)
    rw [run_entries hinner] at htrip
    obtain ⟨e, -, hfails⟩ := exists_of_forM_error htrip
    exact hsafe e trip hfails

/-- The validation of a complete table does not trip. -/
theorem validate_ne_misuse (h : Complete t) (trip : Misuse) :
    validate t ≠ .error (.misuse trip) := by
  intro htrip
  unfold validate at htrip
  cases hgroups : groupChecks.forM (·.run t) with
  | error complaint =>
    rw [hgroups, error_bind] at htrip
    cases htrip
    obtain ⟨c, hc, hrun⟩ := exists_of_forM_error hgroups
    obtain ⟨group, -, rfl⟩ := List.mem_map.mp hc
    exact run_table_ne_misuse t group trip hrun
  | ok u =>
    rw [hgroups, ok_bind] at htrip
    obtain ⟨c, hc, hrun⟩ := exists_of_forM_error htrip
    exact run_ne_misuse h (forM_eq_ok.mp hgroups) (covered_of_mem c hc) trip hrun

end Settings

end ChipEight
