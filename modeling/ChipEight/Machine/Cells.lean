import ChipEight.Signed

/-!
# Cells of fixed width

Memory, registers and stack are rows of cells that each hold an unsigned number of fixed width.
An index below zero counts from the end of its row. An access that no cell answers to, and a
number that no cell can hold, are faults of their own kind, `CellFault`. An index is kept in
sixty-four bits with a sign: one that needs the place of the sign is too large, and what does not
fit into sixty-four bits at all is no index. Neither is compared with the size of a row.

* `Cells.index?` finds the cell of an index;
* `Cells.byte?` and `Cells.pair?` fit a number into eight or sixteen bits;
* `Cells.slice` reads the cells between two bounds, `Cells.write` puts a list of cells in place, and
  `Cells.assign` fills the cells between two bounds. A list with a cell for each of them is written
  as it is (`assign_of_length`).
-/

namespace ChipEight

/-- Why a cell could not be reached or filled. -/
inductive CellFault where
  /-- No cell of a row of this size has the index. -/
  | outside (index : Int) (size : Nat)
  /-- The number is far too large to be an index of anything. -/
  | noIndex (value : Int)
  /-- The number does not fit into this many bits. -/
  | tooWide (value : Int) (bits : Nat)
  /-- The number does not fit into any cell, and is no index either. -/
  | tooLarge (value : Int)
  /-- So many cells do not fill the room between two bounds. -/
  | misfilled (given room : Nat)
  deriving DecidableEq, Repr

/-- The text of a cell fault. -/
def CellFault.message : CellFault → String
  | outside i size => s!"index {i} is out of bounds for axis 0 with size {size}"
  | noIndex _ =>
    "only integers, slices (`:`), ellipsis (`...`), numpy.newaxis (`None`) and integer or boolean "
      ++ "arrays are valid indices"
  | tooWide v bits => s!"Python integer {v} out of bounds for uint{bits}"
  | tooLarge _ => "Python int too large to convert to C long"
  | misfilled given room =>
    s!"could not broadcast input array from shape ({given},) into shape ({room},)"

namespace Cells

/-- The fault of an index to which no cell of a row answers. -/
def miss (size : Nat) (i : Int) : CellFault :=
  if Signed.Fits 64 i then .outside i size
  else if 0 ≤ i ∧ Signed.Fits 65 i then .tooLarge i
  else .noIndex i

/-- The cell that an index means in a row of `size` cells. -/
def index? (size : Nat) (i : Int) : Except CellFault (Fin size) :=
  let k := if i < 0 then i + size else i
  if h : 0 ≤ k ∧ k < size then .ok ⟨k.toNat, by omega⟩ else .error (miss size i)

/-- The fault of a number that does not fit into a cell of so many bits. -/
def misfit (bits : Nat) (v : Int) : CellFault :=
  if Signed.Fits 64 v then .tooWide v bits else .tooLarge v

/-- A number as a byte. -/
def byte? (v : Int) : Except CellFault UInt8 :=
  if 0 ≤ v ∧ v < 256 then .ok (UInt8.ofNat v.toNat) else .error (misfit 8 v)

/-- A number as a sixteen-bit cell. -/
def pair? (v : Int) : Except CellFault UInt16 :=
  if 0 ≤ v ∧ v < 65536 then .ok (UInt16.ofNat v.toNat) else .error (misfit 16 v)

variable {α : Type} {size : Nat}

/-- The content of the cell at an index. -/
def read? (cells : Vector α size) (i : Int) : Except CellFault α :=
  (index? size i).map (cells[·])

/-- A bound of a slice: below zero it counts from the end, and it never leaves the row. -/
def bound (size : Nat) (i : Int) : Nat :=
  if i < 0 then (i + size).toNat else min i.toNat size

/-- The cells from one bound up to, and without, another. -/
def slice (cells : Vector α size) (start stop : Int) : List α :=
  (cells.extract (bound size start) (bound size stop)).toList

/-- The row with a list of cells put in place from `start` on. What would stand beyond the end of
the row is dropped. -/
def write (cells : Vector α size) (start : Nat) : List α → Vector α size
  | [] => cells
  | b :: rest => write (cells.setIfInBounds start b) (start + 1) rest

/-- The row with the cells between two bounds filled. A single cell fills any room, and otherwise
there has to be a cell for each place. -/
def assign (cells : Vector α size) (start stop : Int) (given : List α) :
    Except CellFault (Vector α size) :=
  let room := bound size stop - bound size start
  let filling := match given with
    | [b] => List.replicate room b
    | given => given
  if filling.length = room then .ok (write cells (bound size start) filling)
  else .error (.misfilled given.length room)

/-- A bound that is a place of the row, or its end, is meant as it is given. -/
theorem bound_of_le (size k : Nat) (h : k ≤ size) : bound size k = k := by
  unfold bound
  split <;> omega

/-- The slice up to a place is the beginning of the row. -/
theorem slice_zero (cells : Vector α size) (k : Nat) (h : k ≤ size) :
    slice cells 0 k = cells.toList.take k := by
  have h0 : bound size 0 = 0 := bound_of_le size 0 (Nat.zero_le size)
  simp [slice, h0, bound_of_le size k h, Vector.toList, List.extract_eq_take_drop]

/-- A slice within the row holds a cell for each place. -/
theorem length_slice (cells : Vector α size) (start count : Nat) (h : start + count ≤ size) :
    (slice cells start (start + count : Nat)).length = count := by
  have hstart := bound_of_le size start (by omega)
  have hstop := bound_of_le size _ h
  rw [slice, hstart, hstop, Vector.length_toList]
  omega

/-- A list that has a cell for each place is written as it is. -/
theorem assign_of_length (cells : Vector α size) (start count : Nat) (given : List α)
    (h : start + count ≤ size) (hlen : given.length = count) :
    assign cells start (start + count : Nat) given = .ok (write cells start given) := by
  have hroom : bound size (start + count : Nat) - bound size start = count := by
    rw [bound_of_le size _ h, bound_of_le size start (by omega)]
    omega
  unfold assign
  rw [hroom, bound_of_le size start (by omega)]
  match given with
  | [] => simp_all
  | [b] =>
    subst hlen
    rfl
  | _ :: _ :: _ => simp_all

/-- A cell in front of the written part keeps its content. -/
theorem getElem_write_of_lt (bs : List α) (cells : Vector α size) (start k : Nat)
    (hk : k < size) (h : k < start) : (write cells start bs)[k] = cells[k] := by
  induction bs generalizing cells start with
  | nil => rfl
  | cons b bs ih =>
    rw [write, ih _ _ (by omega), Vector.getElem_setIfInBounds_ne hk (by omega)]

/-- A cell behind the written part keeps its content. -/
theorem getElem_write_of_ge (bs : List α) (cells : Vector α size) (start k : Nat)
    (hk : k < size) (h : start + bs.length ≤ k) : (write cells start bs)[k] = cells[k] := by
  induction bs generalizing cells start with
  | nil => rfl
  | cons b bs ih =>
    simp only [List.length_cons] at h
    rw [write, ih _ _ (by omega), Vector.getElem_setIfInBounds_ne hk (by omega)]

/-- A cell of the written part holds what was written. -/
theorem getElem_write_of_mem (bs : List α) (cells : Vector α size) (start j : Nat)
    (hj : j < bs.length) (hk : start + j < size) :
    (write cells start bs)[start + j] = bs[j] := by
  induction bs generalizing cells start j with
  | nil => simp at hj
  | cons b bs ih =>
    cases j with
    | zero =>
      simp only [write, Nat.add_zero, List.getElem_cons_zero]
      rw [getElem_write_of_lt _ _ _ _ _ (by omega)]
      simp
    | succ j =>
      simp only [List.length_cons] at hj
      have h := ih (cells.setIfInBounds start b) (start + 1) j (by omega) (by omega)
      simp only [Nat.add_right_comm start 1 j] at h
      simpa [write, Nat.add_assoc] using h

end Cells

end ChipEight
