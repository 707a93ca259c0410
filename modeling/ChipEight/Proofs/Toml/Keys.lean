import Mathlib.Data.List.Nodup
import ChipEight.Toml.Value

/-!
# No key twice

A table is a list of entries, and a list could have a key twice.  Then only the first entry would be
found, and what stands behind it would come to light as soon as the table is laid over another one.  A
table that is filled by `Table.put` alone has no key twice, since the entry that has the key is replaced
(`Table.Distinct.put`).  In such a table the entries are the values that are found (`Table.get?_of_mem`).
-/

namespace ChipEight.Toml.Table

/-- The keys of a table, in the order of its entries. -/
def keys (t : Table) : List String :=
  t.map (·.1)

/-- No key stands in the table twice. -/
def Distinct (t : Table) : Prop :=
  t.keys.Nodup

variable {t t' : Table} {key other : String} {v : Value}

theorem distinct_nil : Distinct [] :=
  List.nodup_nil

theorem distinct_cons :
    Distinct ((key, v) :: t) ↔ key ∉ t.keys ∧ t.Distinct :=
  List.nodup_cons

theorem get?_cons (e : String × Value) (t : Table) :
    get? (e :: t) other = if e.1 = other then some e.2 else t.get? other := by
  by_cases h : e.1 = other
  · simp [get?, h]
  · simp [get?, h]

theorem get?_eq_none_iff : t.get? key = none ↔ key ∉ t.keys := by
  induction t with
  | nil => simp [get?, keys]
  | cons e rest ih =>
    rw [get?_cons]
    by_cases h : e.1 = key
    · simp [keys, h]
    · simp only [h, if_false, ih, keys, List.map_cons, List.mem_cons, not_or]
      exact ⟨fun hrest => ⟨fun hkey => h hkey.symm, hrest⟩, And.right⟩

theorem mem_of_get? (h : t.get? key = some v) : (key, v) ∈ t := by
  obtain ⟨e, he, rfl⟩ := Option.map_eq_some_iff.mp h
  obtain rfl : e.1 = key := by simpa using List.find?_some he
  exact List.mem_of_find?_eq_some he

theorem mem_keys_of_get? (h : t.get? key = some v) : key ∈ t.keys := by
  by_contra hkey
  rw [get?_eq_none_iff.mpr hkey] at h
  cases h

theorem mem_keys_put : other ∈ (t.put key v).keys ↔ other = key ∨ other ∈ t.keys := by
  rw [← not_iff_not, not_or, ← get?_eq_none_iff, ← get?_eq_none_iff, get?_put]
  by_cases h : other = key
  · simp [h]
  · simp [h]

theorem Distinct.put (h : t.Distinct) : (t.put key v).Distinct := by
  induction t with
  | nil => simp [Table.put, Distinct, keys]
  | cons e rest ih =>
    obtain ⟨hnew, hrest⟩ := distinct_cons.mp h
    rw [Table.put]
    split
    case isTrue hkey => exact distinct_cons.mpr ⟨hkey ▸ hnew, hrest⟩
    case isFalse hkey =>
      refine distinct_cons.mpr ⟨?_, ih hrest⟩
      intro hmem
      rcases mem_keys_put.mp hmem with h | h
      · exact hkey h
      · exact hnew h

theorem keys_put (t : Table) (key : String) (v : Value) :
    (t.put key v).keys = if key ∈ t.keys then t.keys else t.keys ++ [key] := by
  induction t with
  | nil => rfl
  | cons e rest ih =>
    by_cases hkey : e.1 = key
    · simp [Table.put, keys, hkey]
    · have hkeys : keys (Table.put key v (e :: rest)) = e.1 :: keys (Table.put key v rest) := by
        rw [Table.put, if_neg hkey]
        rfl
      have hmem : key ∈ keys (e :: rest) ↔ key ∈ keys rest :=
        List.mem_cons.trans (or_iff_right (Ne.symm hkey))
      rw [hkeys, ih]
      by_cases hrest : key ∈ keys rest
      · rw [if_pos hrest, if_pos (hmem.mpr hrest)]
        rfl
      · rw [if_neg hrest, if_neg (mt hmem.mp hrest)]
        rfl

/-- To set the value that is there changes nothing. -/
theorem put_of_get? (h : t.get? key = some v) : t.put key v = t := by
  induction t with
  | nil => cases h
  | cons e rest ih =>
    rw [get?_cons] at h
    rw [Table.put]
    by_cases hkey : e.1 = key
    · rw [if_pos hkey] at h ⊢
      rw [← hkey, ← Option.some.inj h]
    · rw [if_neg hkey] at h ⊢
      rw [ih h]

/-- If no key stands there twice, every entry is found. -/
theorem get?_of_mem (h : t.Distinct) (hmem : (key, v) ∈ t) : t.get? key = some v := by
  induction t with
  | nil => cases hmem
  | cons e rest ih =>
    obtain ⟨hnew, hrest⟩ := distinct_cons.mp h
    rw [get?_cons]
    rcases List.mem_cons.mp hmem with rfl | hmem
    · rw [if_pos rfl]
    · have hkey : key ∈ keys rest := List.mem_map_of_mem hmem
      have hne : e.1 ≠ key := by
        rintro rfl
        exact hnew hkey
      rw [if_neg hne, ih hrest hmem]

end ChipEight.Toml.Table
