import ChipEight.Number
import ChipEight.Toml.Moment

/-!
# Values and tables

The values of a configuration file. A table keeps its entries in the order in which they came, and
has no key twice.

* `Table.get?` and `Table.put` look up and set the value of a key;
* `Table.merge` lays one table over another: at every key the upper value wins, but two tables
  are merged in turn;
* `Value.same` says whether two values are equal, where the order of entries does not matter and
  numbers of different kinds are equal if their values are.
-/

namespace ChipEight.Toml

/-- A value. Truth values are numbers of their own kind. -/
inductive Value where
  | number (n : Number)
  | text (s : String)
  | moment (m : Moment)
  /-- No value at all, which no file can hold. -/
  | null
  | array (items : List Value)
  | table (entries : List (String × Value))

instance : Inhabited Value := ⟨.null⟩

/-- A table, as its entries. -/
abbrev Table := List (String × Value)

/-- A path of keys. -/
abbrev Key := List String

namespace Table

/-- The value of a key. -/
def get? (t : Table) (key : String) : Option Value :=
  (t.find? (·.1 = key)).map (·.2)

/-- Sets the value of a key, in the place of the old one or at the end. -/
def put (key : String) (v : Value) : Table → Table
  | [] => [(key, v)]
  | e :: rest => if e.1 = key then (key, v) :: rest else e :: put key v rest

end Table

mutual

/-- A value laid over what was there before. -/
def Value.over (old : Option Value) : Value → Value
  | .table entries =>
    match old with
    | some (.table base) => .table (Table.merge base entries)
    | _ => .table entries
  | v => v

/-- A table with another one laid over it. -/
def Table.merge (base : Table) : Table → Table
  | [] => base
  | (key, v) :: rest => Table.merge (base.put key (v.over (base.get? key))) rest

end

mutual

/-- Whether two values are equal. -/
def Value.same : Value → Value → Bool
  | .number a, .number b => a.same b
  | .text a, .text b => a = b
  | .moment a, .moment b => a = b
  | .null, .null => true
  | .array a, .array b => Value.sameItems a b
  | .table a, .table b => a.length = b.length && Table.within a b
  | _, _ => false

/-- Whether two lists of values are equal. -/
def Value.sameItems : List Value → List Value → Bool
  | [], [] => true
  | a :: as, b :: bs => a.same b && Value.sameItems as bs
  | _, _ => false

/-- Whether all entries of one table are entries of another. -/
def Table.within : Table → Table → Bool
  | [], _ => true
  | (key, v) :: rest, t =>
    (match t.get? key with
      | some w => v.same w
      | none => false) && Table.within rest t

end

namespace Table

/-- Whether two tables are equal. -/
def same (a b : Table) : Bool :=
  Value.same (.table a) (.table b)

@[simp] theorem merge_nil (base : Table) : base.merge [] = base := by
  rw [merge]

@[simp] theorem merge_cons (base : Table) (key : String) (v : Value) (rest : Table) :
    base.merge ((key, v) :: rest) = (base.put key (v.over (base.get? key))).merge rest := by
  rw [merge]

@[simp] theorem get?_put (key other : String) (v : Value) (t : Table) :
    (t.put key v).get? other = if other = key then some v else t.get? other := by
  induction t with
  | nil =>
    by_cases h : other = key
    · simp [put, get?, h]
    · simp [put, get?, h, Ne.symm h]
  | cons e rest ih =>
    unfold get? at ih ⊢
    unfold put
    by_cases he : e.1 = key
    · by_cases h : other = key
      · simp [he, h]
      · simp [he, h, Ne.symm h]
    · by_cases h : e.1 = other
      · have : other ≠ key := fun hk => he (h.trans hk)
        simp [h, this]
      · simpa [he, h] using ih

end Table

end ChipEight.Toml
