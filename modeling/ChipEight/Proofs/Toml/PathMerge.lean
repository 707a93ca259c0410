import ChipEight.Proofs.Toml.Merge
import ChipEight.Proofs.Toml.Tree

/-!
# Laying one tree of tables over another

A path leads from one table into the next, and at its end there may be a value (`Value.at?`).  What stands
at the end of a path after a merge depends on the ends of this path in the two trees, and on one thing
more: the upper tree may have something that is no table on the way there, and then there is nothing at
the end any more (`Value.blocks`).  `Value.at?_over` says so by induction on the path; a merge of tables
at one place is again a merge, so that the same holds at every level.

That a second merge with the same tree changes nothing is no matter of paths.  Wherever the upper tree has
a table and the lower one has none, the table comes into the result as it is, and the second merge lays it
over itself.  The induction goes over the upper tree and has both cases in one (`Value.over_over`): a
value that is laid over nothing is itself, so over itself it is what it was.
-/

namespace ChipEight.Toml

namespace Value

/-- Something that is no table stands on the way. -/
def blocks : Key → Value → Bool
  | [], _ => false
  | key :: path, table t => (Table.get? t key).any (blocks path)
  | _ :: _, _ => true

variable {v w : Value} {t : Table} {key : String} {path : Key}

/-- A path is blocked by a value, other than a table, at the end of a proper prefix. -/
theorem blocks_iff :
    v.blocks path = true ↔
      ∃ before after w, before ++ after = path ∧ after ≠ [] ∧ v.at? before = some w ∧ ∀ t, w ≠ table t := by
  induction path generalizing v with
  | nil => simp [blocks]
  | cons key path ih =>
    cases v with
    | table t =>
      constructor
      · intro h
        obtain ⟨v, hv, hblocks⟩ := (Option.any_eq_true _ _).mp h
        obtain ⟨before, after, w, rfl, hafter, hw, hleaf⟩ := ih.mp hblocks
        exact ⟨key :: before, after, w, rfl, hafter, by rw [at?, hv]; exact hw, hleaf⟩
      · rintro ⟨before, after, w, hpath, hafter, hw, hleaf⟩
        cases before with
        | nil => exact absurd (Option.some.inj hw).symm (hleaf t)
        | cons first before =>
          obtain ⟨rfl, rfl⟩ := List.cons.inj hpath
          obtain ⟨v, hv, hw⟩ := Option.bind_eq_some_iff.mp hw
          exact (Option.any_eq_true _ _).mpr ⟨v, hv, ih.mpr ⟨before, after, w, rfl, hafter, hw, hleaf⟩⟩
    | _ => exact iff_of_true rfl ⟨[], key :: path, _, rfl, List.cons_ne_nil _ _, rfl, by rintro _ ⟨⟩⟩

/-! ### One value over another -/

theorem over_none (v : Value) : v.over none = v := by
  cases v <;> rfl

theorem over_of_leaf (h : ∀ t, v ≠ table t) (old : Option Value) : v.over old = v := by
  cases v with
  | table t => exact absurd rfl (h t)
  | _ => rfl

theorem table_over_table (base upper : Table) :
    (table upper).over (some (table base)) = table (base.merge upper) :=
  rfl

/-- **A value over another, path by path.**  At the end of a path the upper value is laid over the lower
one.  Where there is no upper value, the lower one stays, unless its path is blocked. -/
theorem at?_over (h : v.DistinctTables) (old : Option Value) (path : Key) :
    (v.over old).at? path =
      match v.at? path with
      | some w => some (w.over (old.bind (at? path)))
      | none => if v.blocks path then none else old.bind (at? path) := by
  induction path generalizing v old with
  | nil => cases old <;> rfl
  | cons key path ih =>
    -- Below something other than a table there is nothing, so the upper tree alone decides.
    have halone (hold : old.bind (at? (key :: path)) = none) :
        v.at? (key :: path) =
          match v.at? (key :: path) with
          | some w => some (w.over (old.bind (at? (key :: path))))
          | none => if v.blocks (key :: path) then none else old.bind (at? (key :: path)) := by
      rw [hold]
      cases v.at? (key :: path) with
      | none => simp
      | some w => simp only [over_none]
    cases v with
    | table upper =>
      cases old with
      | none => exact halone rfl
      | some old =>
        cases old with
        | table base =>
          have hbase : (table base).at? (key :: path) = (Table.get? base key).bind (at? path) := rfl
          have hmerged : (table (Table.merge base upper)).at? (key :: path) =
              ((Table.merge base upper).get? key).bind (at? path) := rfl
          rw [table_over_table, hmerged, Table.get?_merge h.distinct, Option.bind_some, hbase]
          cases hupper : Table.get? upper key with
          | none => simp [at?, blocks, hupper]
          | some w =>
            simpa only [at?, blocks, hupper, Option.bind_some, Option.any_some] using
              ih (h.of_get? hupper) (Table.get? base key)
        | _ => exact halone rfl
    | _ => rfl

/-- Induction over a tree of tables: from the entries of a table to the table. -/
theorem tree_induction {motive : Value → Prop} (leaf : ∀ v, (∀ t, v ≠ table t) → motive v)
    (node : ∀ t, (∀ key v, (key, v) ∈ t → motive v) → motive (table t)) : ∀ v, motive v
  | table t => node t fun key v hmem =>
    have hlt : sizeOf v < 1 + sizeOf t := by
      have hentry := List.sizeOf_lt_of_mem hmem
      rw [Prod.mk.sizeOf_spec] at hentry
      omega
    tree_induction leaf node v
  | .number _ | .text _ | .moment _ | .null | .array _ => leaf _ (by rintro _ ⟨⟩)
termination_by v => sizeOf v

/-- **To lay a value over again** what it has been laid over changes nothing. -/
theorem over_over (h : v.DistinctTables) (old : Option Value) :
    v.over (some (v.over old)) = v.over old := by
  induction v using tree_induction generalizing old with
  | leaf v hleaf => rw [over_of_leaf hleaf, over_of_leaf hleaf]
  | node upper ih =>
    have hentry {key : String} {w : Value} (hmem : (key, w) ∈ upper) (old : Option Value) :
        w.over (some (w.over old)) = w.over old :=
      ih key w hmem (h.of_mem hmem) old
    have halone : Table.merge upper upper = upper := by
      refine Table.merge_of_stable fun key w hmem => ?_
      have hself := hentry hmem none
      rw [over_none] at hself
      rw [Table.get?_of_mem h.distinct hmem, hself]
    have hmerged (base : Table) : (base.merge upper).merge upper = base.merge upper := by
      refine Table.merge_of_stable fun key w hmem => ?_
      have hget : (base.merge upper).get? key = some (w.over (base.get? key)) := by
        rw [Table.get?_merge h.distinct, Table.get?_of_mem h.distinct hmem]
      rw [hget, hentry hmem]
    cases old with
    | none => exact congrArg table halone
    | some old =>
      cases old with
      | table base => exact congrArg table (hmerged base)
      | _ => exact congrArg table halone

end Value

namespace Table

open Value

/-- **A merge overrides path by path.**  Take any two tables, the upper one without a key twice at any
depth, as documents have them (`Document.distinctTables_of_read`).  On every path on which both have a
table, the result has their merge; its keys are the lower ones and then the new ones, each in their order.
On any other path the upper value is there if there is one, then the lower one, unless the upper tree has
something other than a table on the way, and else nothing.

So whatever is no table in the upper tree is found in the result, and what is no table in the lower tree
is found there too if the upper one has no value at this place and only tables on the way.  To merge the
upper table in a second time changes nothing. -/
theorem merge_overrides_paths {base upper : Table} (h : (table upper).DistinctTables) :
    (∀ path, (table (base.merge upper)).at? path =
      match (table upper).at? path, (table base).at? path with
      | some (table above), some (table below) => some (table (Table.merge below above))
      | some v, _ => some v
      | none, old => if (table upper).blocks path then none else old) ∧
    (∀ path (below above : Table), (table base).at? path = some (table below) →
      (table upper).at? path = some (table above) →
      (below.merge above).keys = below.keys ++ above.keys.filter (· ∉ below.keys)) ∧
    (∀ path v, (table upper).at? path = some v → (∀ t, v ≠ table t) →
      (table (base.merge upper)).at? path = some v) ∧
    (∀ path v, (table base).at? path = some v → (∀ t, v ≠ table t) → (table upper).at? path = none →
      (∀ before after w, before ++ after = path → after ≠ [] → (table upper).at? before = some w →
        ∃ t, w = table t) →
      (table (base.merge upper)).at? path = some v) ∧
    (base.merge upper).merge upper = base.merge upper := by
  have hpath (path : Key) := at?_over h (some (table base)) path
  simp only [table_over_table, Option.bind_some] at hpath
  refine ⟨?_, ?_, ?_, ?_, ?_⟩
  · intro path
    rw [hpath]
    cases (table upper).at? path with
    | none => rfl
    | some above =>
      cases (table base).at? path with
      | none => cases above <;> rfl
      | some below => cases above <;> cases below <;> rfl
  · intro path below above _ habove
    exact keys_merge (h path above habove) below
  · intro path v hv hleaf
    rw [hpath, hv]
    exact congrArg some (over_of_leaf hleaf _)
  · intro path v hv _ hnone htables
    have hfree : (table upper).blocks path = false := by
      rw [Bool.eq_false_iff]
      intro hblocks
      obtain ⟨before, after, w, hsplit, hafter, hw, hleaf⟩ := blocks_iff.mp hblocks
      obtain ⟨t, ht⟩ := htables before after w hsplit hafter hw
      exact hleaf t ht
    rw [hpath, hnone, hfree, hv]
    rfl
  · exact table.inj (over_over h (some (table base)))

/-- A table over a text, a text over a table, and a table over a table. -/
theorem merge_overrides_paths_of_mixed :
    ∃ base upper : Table, (table upper).DistinctTables ∧
      (base.merge upper).keys = ["window", "sound", "trace", "keyboard"] ∧
      (table (base.merge upper)).at? ["window", "title"] = some (text "plain") ∧
      (table (base.merge upper)).at? ["window", "scale"] = some (text "4") ∧
      (table (base.merge upper)).at? ["sound", "enable"] = none ∧
      (table (base.merge upper)).at? ["trace", "level"] = some (text "all") ∧
      (base.merge upper).merge upper = base.merge upper := by
  let base : Table :=
    [("window", table [("scale", text "10"), ("title", text "plain")]),
      ("sound", table [("enable", text "yes")]), ("trace", text "no")]
  let upper : Table :=
    [("trace", table [("level", text "all")]), ("window", table [("scale", text "4")]),
      ("sound", text "off"), ("keyboard", text "us")]
  have hleaf (s : String) (t : Table) : text s ≠ table t := by
    rintro ⟨⟩
  have htext (s : String) : (text s).DistinctTables := distinctTables_leaf (hleaf s)
  have hinner (key s : String) : (table [(key, text s)]).DistinctTables := by
    refine distinctTables_table (List.nodup_singleton _) ?_
    simp only [List.mem_singleton, Prod.mk.injEq]
    rintro _ _ ⟨rfl, rfl⟩
    exact htext s
  have h : (table upper).DistinctTables := by
    have hkeys : ["trace", "window", "sound", "keyboard"].Nodup := by decide
    refine distinctTables_table hkeys ?_
    simp only [upper, List.mem_cons, List.not_mem_nil, or_false, Prod.mk.injEq]
    rintro _ _ (⟨rfl, rfl⟩ | ⟨rfl, rfl⟩ | ⟨rfl, rfl⟩ | ⟨rfl, rfl⟩)
    exacts [hinner _ _, hinner _ _, htext _, htext _]
  obtain ⟨hpath, hkeys, habove, hbelow, htwice⟩ := @merge_overrides_paths base upper h
  refine ⟨base, upper, h, hkeys [] base upper rfl rfl, ?_, ?_, ?_, ?_, htwice⟩
  · refine hbelow ["window", "title"] (text "plain") rfl (hleaf _) rfl ?_
    intro before after w hsplit hafter hw
    rcases before with _ | ⟨first, _ | ⟨second, rest⟩⟩
    · exact ⟨upper, (Option.some.inj hw).symm⟩
    · obtain ⟨rfl, -⟩ := List.cons.inj hsplit
      exact ⟨_, (Option.some.inj hw).symm⟩
    · simp_all
  · exact habove ["window", "scale"] (text "4") rfl (hleaf _)
  · exact hpath ["sound", "enable"]
  · exact habove ["trace", "level"] (text "all") rfl (hleaf _)

end Table

end ChipEight.Toml
