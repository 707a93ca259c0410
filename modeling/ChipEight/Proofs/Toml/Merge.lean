import ChipEight.Proofs.Toml.Keys

/-!
# Laying one table over another

`Table.merge` takes the entries of the upper table one after the other.  If none of its keys stands
there twice, the value of a key in the result depends on the two values of that key alone
(`Table.get?_merge`).  The keys of the result are those of the lower table and then the new ones
(`Table.keys_merge`).  So the keys of the lower table are all kept, at the top and in every table that is
still a table in the result (`Table.keys_subset_of_merge`): to lose a key, the whole table around it must
be replaced by something that is no table.
-/

namespace ChipEight.Toml.Table

variable {base upper : Table} {key : String}

theorem mem_keys_merge :
    key ∈ (base.merge upper).keys ↔ key ∈ base.keys ∨ key ∈ upper.keys := by
  induction upper generalizing base with
  | nil => simp [keys]
  | cons e rest ih =>
    obtain ⟨name, v⟩ := e
    rw [merge_cons, ih, mem_keys_put]
    simp only [keys, List.map_cons, List.mem_cons]
    tauto

/-- The value of a key in the result: what the upper table has there, laid over what the lower one has,
or what the lower one has by itself. -/
theorem get?_merge (h : upper.Distinct) (base : Table) (key : String) :
    (base.merge upper).get? key =
      match upper.get? key with
      | some v => some (v.over (base.get? key))
      | none => base.get? key := by
  induction upper generalizing base with
  | nil => simp [get?]
  | cons e rest ih =>
    obtain ⟨name, v⟩ := e
    obtain ⟨hnew, hrest⟩ := distinct_cons.mp h
    rw [merge_cons, ih hrest, get?_put, get?_cons]
    by_cases hkey : key = name
    · subst hkey
      rw [get?_eq_none_iff.mpr hnew, if_pos rfl, if_pos rfl]
    · rw [if_neg hkey, if_neg (Ne.symm hkey)]

/-- **The order of the keys.**  The lower keys stay where they are, and the new ones follow in their own
order. -/
theorem keys_merge (h : upper.Distinct) (base : Table) :
    (base.merge upper).keys = base.keys ++ upper.keys.filter (· ∉ base.keys) := by
  induction upper generalizing base with
  | nil => simp [keys]
  | cons e rest ih =>
    obtain ⟨name, v⟩ := e
    obtain ⟨hnew, hrest⟩ := distinct_cons.mp h
    have hkeys : keys ((name, v) :: rest) = name :: keys rest := rfl
    rw [merge_cons, ih hrest, keys_put, hkeys]
    by_cases hname : name ∈ base.keys
    · rw [if_pos hname, List.filter_cons_of_neg (by simpa using hname)]
    · have hlater : (keys rest).filter (· ∉ base.keys ++ [name]) =
          (keys rest).filter (· ∉ base.keys) := by
        refine List.filter_congr fun key hkey => ?_
        have hne : key ≠ name := fun heq => hnew (heq ▸ hkey)
        simp [hne]
      rw [if_neg hname, hlater, List.filter_cons_of_pos (by simpa using hname), List.append_assoc]
      rfl

/-- Nothing changes if every upper value, laid over the lower one, gives what is there. -/
theorem merge_of_stable (h : ∀ key v, (key, v) ∈ upper → base.get? key = some (v.over (base.get? key))) :
    base.merge upper = base := by
  induction upper with
  | nil => exact merge_nil base
  | cons e rest ih =>
    obtain ⟨name, v⟩ := e
    rw [merge_cons, put_of_get? (h name v List.mem_cons_self)]
    exact ih fun key w hmem => h key w (List.mem_cons_of_mem _ hmem)

/-- A table that is still a table after the merge has kept its keys. -/
theorem keys_subset_of_merge (h : upper.Distinct) {inner merged : Table}
    (hbase : base.get? key = some (.table inner))
    (hmerged : (base.merge upper).get? key = some (.table merged)) :
    inner.keys ⊆ merged.keys := by
  rw [get?_merge h, hbase] at hmerged
  cases hupper : upper.get? key with
  | none =>
    rw [hupper] at hmerged
    cases hmerged
    exact List.Subset.refl _
  | some v =>
    rw [hupper] at hmerged
    cases v with
    | table entries =>
      have heq : inner.merge entries = merged := by
        simpa [Value.over] using hmerged
      intro name hname
      rw [← heq]
      exact mem_keys_merge.mpr (.inl hname)
    | _ => simp [Value.over] at hmerged

end ChipEight.Toml.Table
