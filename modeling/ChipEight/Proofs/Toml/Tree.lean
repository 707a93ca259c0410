import ChipEight.Proofs.Sequencing
import ChipEight.Proofs.Toml.Keys
import ChipEight.Toml.Document

/-!
# Trees of tables

A table whose values are tables in turn is a tree, and a path leads from one table into the next
(`Value.at?`).  No table of a document has a key twice, however deep it stands
(`Document.distinctTables_of_read`).

There are two ways for a table to come about.  Behind a brace its entries are read one after the other, and
the tables that they hold are read before it, so the induction is on the length of what is left
(`distinctTables_value`, `distinctTables_entries`).  All other tables are made by headers and keys, which
change one table behind a path and put it back into those on the way; what they put there is either new or
takes the place of what was found (`keepsDistinctTables_atPath`).  An array ends a path, so whatever is
done to the tables in it is of no concern here.
-/

namespace ChipEight.Toml

namespace Value

/-- The value at the end of a path. -/
def at? : Key → Value → Option Value
  | [], v => some v
  | key :: path, table t => (Table.get? t key).bind (at? path)
  | _ :: _, _ => none

/-- No table has a key twice, on whatever path it is found. -/
def DistinctTables (v : Value) : Prop :=
  ∀ path t, v.at? path = some (table t) → Table.Distinct t

variable {v : Value} {t : Table} {key : String}

theorem DistinctTables.distinct (h : (table t).DistinctTables) : t.Distinct :=
  h [] t rfl

theorem DistinctTables.of_get? (h : (table t).DistinctTables) (hget : t.get? key = some v) :
    v.DistinctTables := by
  intro path inner hinner
  refine h (key :: path) inner ?_
  rw [at?, hget]
  exact hinner

theorem DistinctTables.of_mem (h : (table t).DistinctTables) (hmem : (key, v) ∈ t) : v.DistinctTables :=
  h.of_get? (Table.get?_of_mem h.distinct hmem)

theorem distinctTables_table (ht : t.Distinct) (hvalues : ∀ key v, (key, v) ∈ t → v.DistinctTables) :
    (table t).DistinctTables := by
  intro path inner hinner
  cases path with
  | nil =>
    cases hinner
    exact ht
  | cons key path =>
    obtain ⟨v, hv, hinner⟩ := Option.bind_eq_some_iff.mp hinner
    exact hvalues key v (Table.mem_of_get? hv) path inner hinner

/-- What is no table has only itself, on the empty path. -/
theorem distinctTables_leaf (h : ∀ t, v ≠ table t) : v.DistinctTables := by
  intro path inner hinner
  cases path with
  | nil => exact absurd (Option.some.inj hinner) (h inner)
  | cons key path =>
    cases v with
    | table t => exact absurd rfl (h t)
    | _ => cases hinner

theorem distinctTables_nil : (table []).DistinctTables :=
  distinctTables_table Table.distinct_nil (by rintro _ _ ⟨⟩)

theorem DistinctTables.put (h : (table t).DistinctTables) (hv : v.DistinctTables) :
    (table (t.put key v)).DistinctTables := by
  refine distinctTables_table h.distinct.put fun name w hmem => ?_
  have hget := Table.get?_of_mem h.distinct.put hmem
  rw [Table.get?_put] at hget
  split at hget
  case isTrue =>
    cases hget
    exact hv
  case isFalse => exact h.of_get? hget

end Value

open Value

/-! ### Changing a table -/

/-- A change of a table that gives no key a second time, at whatever depth. -/
def KeepsDistinctTables (change : Table → Except Cause Table) : Prop :=
  ∀ ⦃t t' : Table⦄, change t = .ok t' → (table t).DistinctTables → (table t').DistinctTables

theorem keepsDistinctTables_addNew (fault : Cause) (part : String) {v : Value} (hv : v.DistinctTables) :
    KeepsDistinctTables (Table.addNew fault part v) := by
  intro t t' h ht
  unfold Table.addNew at h
  split at h
  case h_1 =>
    cases h
    exact ht.put hv
  case h_2 => cases h

theorem keepsDistinctTables_appendTable (part : String) : KeepsDistinctTables (Table.appendTable part) := by
  intro t t' h ht
  unfold Table.appendTable at h
  split at h
  case h_3 => cases h
  all_goals
    cases h
    exact ht.put (distinctTables_leaf (by rintro _ ⟨⟩))

/-- Only the last table on a path is changed; in those on the way, one value is replaced. -/
theorem keepsDistinctTables_atPath {change : Table → Except Cause Table} (h : KeepsDistinctTables change)
    (arrays : Bool) (path : Key) : KeepsDistinctTables (Table.atPath arrays change path) := by
  intro t t' hchange ht
  induction path generalizing t t' with
  | nil => exact h hchange ht
  | cons part path ih =>
    unfold Table.atPath at hchange
    split at hchange
    case h_1 =>
      obtain ⟨inner, hinner, rfl⟩ := ok_of_map_ok hchange
      exact ht.put (ih hinner distinctTables_nil)
    case h_2 below hbelow =>
      obtain ⟨inner, hinner, rfl⟩ := ok_of_map_ok hchange
      exact ht.put (ih hinner (ht.of_get? hbelow))
    case h_3 =>
      split at hchange
      case h_1 =>
        obtain ⟨inner, -, rfl⟩ := ok_of_map_ok hchange
        exact ht.put (distinctTables_leaf (by rintro _ ⟨⟩))
      case h_2 => cases hchange
    case h_4 => cases hchange

/-! ### Reading a value -/

/-- A moment or a number is no table. -/
theorem scalar_ne_table {s : List Char} {t : Taken s Value} (h : scalar s = .ok t) (entries : Table) :
    t.value ≠ table entries := by
  unfold scalar at h
  split at h
  case h_2 => cases h
  case h_1 =>
    cases h
    rintro ⟨⟩
  case h_3 =>
    split at h
    case h_1 =>
      cases h
      rintro ⟨⟩
    all_goals cases h

/-- A value is no table, or an empty one, or one of which the entries have been read. -/
theorem value_cases {s : List Char} {t : Taken s Value} (h : value s = .ok t) :
    (∀ entries, t.value ≠ table entries) ∨ t.value = table [] ∨
      ∃ (start : List Char) (read : Taken start Table), start.length < s.length ∧
        entries [] [] start = .ok read ∧ t.value = table read.value := by
  unfold value at h
  split at h
  case h_1 =>
    obtain ⟨read, -, rfl⟩ := ok_of_map_ok h
    exact .inl (by rintro _ ⟨⟩)
  case h_2 =>
    split at h
    case h_1 | h_2 =>
      cases h
      exact .inl (by rintro _ ⟨⟩)
    case h_3 =>
      obtain ⟨read, -, rfl⟩ := ok_of_map_ok h
      exact .inl (by rintro _ ⟨⟩)
    case h_4 =>
      split at h
      case h_1 =>
        cases h
        exact .inr (.inl rfl)
      case h_2 =>
        obtain ⟨read, hread, rfl⟩ := ok_of_map_ok h
        exact .inr (.inr ⟨_, read, Nat.lt_succ_of_le (skipBlanks _).notLonger, hread, rfl⟩)
    case h_5 => exact .inl (scalar_ne_table h)

/-- The value behind a key is read from what is left. -/
theorem pair_cases {s : List Char} {t : Taken s (Key × Value)} (h : pair s = .ok t) :
    ∃ (start : List Char) (read : Taken start Value), start.length < s.length ∧
      value start = .ok read ∧ t.value.2 = read.value := by
  unfold pair at h
  split at h
  case h_1 => cases h
  case h_2 path hpath =>
    split at h
    case h_2 => cases h
    case h_1 rest hrest =>
      obtain ⟨read, hread, rfl⟩ := ok_of_map_ok h
      have hshort := path.kept.lt_of_rest hrest
      exact ⟨_, read, Nat.lt_of_le_of_lt (skipBlanks _).notLonger hshort, hread, rfl⟩

/-- An entry is added to the table, which is the last one or goes before more of them. -/
theorem entries_cases {closed : List Key} {t : Table} {s : List Char} {read : Taken s Table}
    (h : entries closed t s = .ok read) :
    ∃ (first : Taken s (Key × Value)) (fault : Cause) (part : String) (path : Key) (next : Table),
      pair s = .ok first ∧
      Table.atPath false (Table.addNew fault part first.value.2) path t = .ok next ∧
      (read.value = next ∨
        ∃ (closed' : List Key) (start : List Char) (others : Taken start Table),
          start.length < s.length ∧ entries closed' next start = .ok others ∧
          read.value = others.value) := by
  unfold entries at h
  split at h
  case h_1 => cases h
  case h_2 first hfirst =>
    dsimp only at h
    split at h
    case isTrue => cases h
    case isFalse =>
      split at h
      case h_1 => cases h
      case h_2 next hnext =>
        refine ⟨first, _, _, _, next, hfirst, hnext, ?_⟩
        split at h
        case h_1 =>
          cases h
          exact .inl rfl
        case h_2 rest hrest =>
          obtain ⟨others, hothers, rfl⟩ := ok_of_map_ok h
          have hshort := (first.kept.andThen (skipBlanks first.rest)).lt_of_rest hrest
          exact .inr ⟨_, _, others, Nat.lt_of_le_of_lt (skipBlanks _).notLonger hshort, hothers, rfl⟩
        case h_3 => cases h

mutual

/-- A value that is read has no key twice. -/
theorem distinctTables_value {s : List Char} {t : Taken s Value} (h : value s = .ok t) :
    t.value.DistinctTables := by
  obtain hleaf | hempty | ⟨start, read, hshort, hread, htable⟩ := value_cases h
  · exact distinctTables_leaf hleaf
  · rw [hempty]
    exact distinctTables_nil
  · rw [htable]
    exact distinctTables_entries hread distinctTables_nil
termination_by (s.length, 0)

theorem distinctTables_pair {s : List Char} {t : Taken s (Key × Value)} (h : pair s = .ok t) :
    t.value.2.DistinctTables := by
  obtain ⟨start, read, hshort, hread, hvalue⟩ := pair_cases h
  rw [hvalue]
  exact distinctTables_value hread
termination_by (s.length, 0)

/-- Nor does a table get one twice by more entries that are read. -/
theorem distinctTables_entries {closed : List Key} {t : Table} {s : List Char} {read : Taken s Table}
    (h : entries closed t s = .ok read) (ht : (table t).DistinctTables) :
    (table read.value).DistinctTables := by
  obtain ⟨first, fault, part, path, next, hfirst, hnext, hlast | hmore⟩ := entries_cases h
  all_goals
    have hnew := keepsDistinctTables_addNew fault part (distinctTables_pair hfirst)
    have hadded := keepsDistinctTables_atPath hnew false path hnext ht
  · rw [hlast]
    exact hadded
  · obtain ⟨closed', start, others, hshort, hothers, hvalue⟩ := hmore
    rw [hvalue]
    exact distinctTables_entries hothers hadded
termination_by (s.length, 1)

end

/-! ### Documents -/

namespace Draft

variable {d d' : Draft} {path : Key}

/-- No table of what has been read has a key twice. -/
def DistinctTables (d : Draft) : Prop :=
  (table d.root).DistinctTables

theorem DistinctTables.openTable (h : d.openTable path = .ok d') (hd : d.DistinctTables) :
    d'.DistinctTables := by
  unfold Draft.openTable at h
  split at h
  case isTrue => cases h
  case isFalse =>
    obtain ⟨root, hroot, rfl⟩ := ok_of_map_ok h
    have hkeep : KeepsDistinctTables .ok := by
      intro t t' hsame ht
      cases hsame
      exact ht
    exact keepsDistinctTables_atPath hkeep true path hroot hd

theorem DistinctTables.openArrayTable (h : d.openArrayTable path = .ok d') (hd : d.DistinctTables) :
    d'.DistinctTables := by
  unfold Draft.openArrayTable at h
  split at h
  case isTrue => cases h
  case isFalse =>
    obtain ⟨root, hroot, rfl⟩ := ok_of_map_ok h
    exact keepsDistinctTables_atPath (keepsDistinctTables_appendTable _) true _ hroot hd

theorem DistinctTables.add {v : Value} (h : d.add path v = .ok d') (hv : v.DistinctTables)
    (hd : d.DistinctTables) : d'.DistinctTables := by
  unfold Draft.add at h
  dsimp only at h
  split at h
  case h_1 => cases h
  case h_2 =>
    split at h
    case isTrue => cases h
    case isFalse =>
      obtain ⟨root, hroot, rfl⟩ := ok_of_map_ok h
      exact keepsDistinctTables_atPath (keepsDistinctTables_addNew _ _ hv) true _ hroot hd

end Draft

section Statements

variable {d : Draft} {s : List Char} {t : Taken s Draft}

theorem distinctTables_header (h : header d s = .ok t) (hd : d.DistinctTables) :
    t.value.DistinctTables := by
  unfold header at h
  split at h
  case h_1 => cases h
  case h_2 =>
    split at h
    case h_1 => cases h
    case h_2 opened hopened =>
      split at h
      case h_1 =>
        cases h
        exact hd.openTable (ok_of_mapError_ok hopened)
      case h_2 => cases h

theorem distinctTables_arrayHeader (h : arrayHeader d s = .ok t) (hd : d.DistinctTables) :
    t.value.DistinctTables := by
  unfold arrayHeader at h
  split at h
  case h_1 => cases h
  case h_2 =>
    split at h
    case h_1 => cases h
    case h_2 opened hopened =>
      split at h
      case h_1 =>
        cases h
        exact hd.openArrayTable (ok_of_mapError_ok hopened)
      case h_2 => cases h

theorem distinctTables_entry (h : entry d s = .ok t) (hd : d.DistinctTables) :
    t.value.DistinctTables := by
  unfold entry at h
  split at h
  case h_1 => cases h
  case h_2 read hread =>
    obtain ⟨next, hnext, rfl⟩ := ok_of_map_ok h
    exact hd.add (ok_of_mapError_ok hnext) (distinctTables_pair hread)

theorem distinctTables_statement (h : statement d s = .ok t) (hd : d.DistinctTables) :
    t.value.DistinctTables := by
  unfold statement at h
  split at h
  case h_1 =>
    obtain ⟨read, hread, rfl⟩ := ok_of_map_ok h
    have hvalue : read.value.DistinctTables := distinctTables_arrayHeader hread hd
    exact hvalue
  case h_2 =>
    obtain ⟨read, hread, rfl⟩ := ok_of_map_ok h
    have hvalue : read.value.DistinctTables := distinctTables_header hread hd
    exact hvalue
  case h_3 =>
    split at h
    case isTrue => exact distinctTables_entry h hd
    case isFalse => cases h
  case h_4 => cases h

end Statements

namespace Document

theorem distinctTables_statements (d : Draft) (s : List Char) {t : Table}
    (h : statements d s = .ok t) (hd : d.DistinctTables) : (table t).DistinctTables := by
  fun_induction statements d s with
  | case1 d s start hend =>
    cases h
    exact hd
  | case2 d s start rest hline hshort ih => exact ih h hd
  | case3 d s start rest hcomment hshort fault hskip => cases h
  | case4 d s start rest hcomment hshort next hskip hnext ih => exact ih h hd
  | case5 d s start fault hfault => cases h
  | case6 d s start read hread fault hfault => cases h
  | case7 d s start read hread next hnext hshort hend hline hcomment ih =>
    exact ih h (distinctTables_statement hread hd)

/-- **No table of a document has a key twice**, at whatever depth. -/
theorem distinctTables_of_read {source : List Char} {t : Table} (h : read source = .ok t) :
    (table t).DistinctTables :=
  distinctTables_statements {} source h distinctTables_nil

end Document

end ChipEight.Toml
