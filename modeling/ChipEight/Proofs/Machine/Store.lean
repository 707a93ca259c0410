import Mathlib.Data.List.GetD
import ChipEight.Proofs.Machine.Footprint
import ChipEight.Proofs.Machine.Refusal

/-!
# What is put into memory

Two instructions put bytes into memory, and both put them at the address register: the decimal
digits of a register, and the registers up to one of them.  `Instruction.stored` lists the bytes, and
`exec_store` says that an instruction which completes leaves memory with exactly these bytes written.
Program memory, which the checks of both demand, ends one byte before the last: so wherever the
address register points, the bytes fall between `0x200` and `0xFFE`.

Memory is read byte by byte through `Machine.byteAt`.  `byteAt_of_write` says that writing leaves
alone what lies in front and behind, and `slice_memory` that a slice is a row of bytes.  In a new
machine the bytes are those of the font, and zeros (`byteAt_new`).
-/

namespace ChipEight

/-- The rows of the glyph of a hexadecimal digit. -/
def glyph (digit : Nat) : List UInt8 :=
  (font.drop (digit * glyphSize)).take glyphSize

/-- A glyph lies within the font, which is followed by nothing else. -/
theorem glyph_eq {digit : Nat} (h : digit < 16) :
    glyph digit = (List.range glyphSize).map fun k => font.getD (digit * glyphSize + k) 0 := by
  revert digit
  decide

namespace Machine

variable {m n : Machine}

/-- Within memory a byte is the content of its cell. -/
theorem byteAt_of_lt (m : Machine) {a : Nat} (h : a < 4096) : m.byteAt a = m.memory[a] := by
  rw [byteAt, Vector.getElem?_eq_getElem h]
  rfl

/-- The bytes of memory depend on memory only. -/
theorem byteAt_of_same (h : Part.memory.Same m n) (a : Nat) : n.byteAt a = m.byteAt a := by
  have hmemory : n.memory = m.memory := h
  rw [byteAt, byteAt, hmemory]

/-- What is written leaves alone all that lies in front of it and behind it. -/
theorem byteAt_of_write {start : Nat} {bytes : List UInt8}
    (hwrite : n.memory = Cells.write m.memory start bytes) {a : Nat}
    (houtside : a < start ∨ start + bytes.length ≤ a) : n.byteAt a = m.byteAt a := by
  by_cases h : a < 4096
  · rw [byteAt_of_lt n h, byteAt_of_lt m h]
    simp only [hwrite]
    rcases houtside with hfront | hbehind
    · exact Cells.getElem_write_of_lt bytes m.memory start a h hfront
    · exact Cells.getElem_write_of_ge bytes m.memory start a h hbehind
  · rw [byteAt, byteAt, Vector.getElem?_eq_none (by omega), Vector.getElem?_eq_none (by omega)]

/-- A slice within memory is a row of its bytes. -/
theorem slice_memory (m : Machine) {start count : Nat} (h : start + count ≤ 4096) :
    Cells.slice m.memory start (start + count : Nat) =
      (List.range count).map fun k => m.byteAt (start + k) := by
  have hlength := Cells.length_slice m.memory start count h
  refine List.ext_getElem (by simpa using hlength) fun k hk hk' => ?_
  have hcount : k < count := by omega
  have hbyte := m.byteAt_of_lt (a := start + k) (by omega)
  have hstart : Cells.bound 4096 start = start := Cells.bound_of_le 4096 start (by omega)
  simp [Cells.slice, hbyte, hstart]

/-- A new machine has the font at the bottom of memory, and zeros behind it. -/
theorem byteAt_new {a : Nat} (h : a < 4096) : byteAt {} a = font.getD a 0 := by
  rw [byteAt_of_lt _ h]
  by_cases hfont : a < font.length
  · have hcell := Cells.getElem_write_of_mem font (Vector.replicate 4096 0) 0 a hfont (by omega)
    simp only [Nat.zero_add] at hcell
    rw [hcell, List.getD_eq_getElem font 0 hfont]
  · rw [Cells.getElem_write_of_ge _ _ _ _ h (by omega), Vector.getElem_replicate,
      List.getD_eq_default _ _ (by omega)]

end Machine

namespace Instruction

open Outcome Machine

variable {m after : Machine} {byte : UInt8} {i : Instruction Register}

/-- The bytes that an instruction puts into memory, from the address register on. -/
def stored (m : Machine) : Instruction Register → List UInt8
  | storeDecimal x =>
    let (hundreds, tens, units) := decimalDigits (m.value x)
    [UInt8.ofNat hundreds, UInt8.ofNat tens, UInt8.ofNat units]
  | saveRegisters x => m.registers.toList.take (x.val + 1)
  | _ => []

/-- They come from registers only. -/
theorem stored_of_same {n : Machine} (h : Part.registers.Same m n) : i.stored n = i.stored m := by
  have hregisters : n.registers = m.registers := h
  cases i <;> simp only [stored, hregisters, value_of_same h]

/-- Most instructions put nothing there. -/
theorem stored_of_untouched (h : Part.memory ∉ i.touched) : i.stored m = [] := by
  cases i <;> simp_all [touched, stored]

/-- **What an instruction stores.**  One that completes has put its bytes into memory from the address
register on, and all of them fall into program memory without its last byte. -/
theorem exec_store (h : i.exec byte m = done after) :
    after.memory = Cells.write m.memory m.index.toNat (i.stored m) ∧
      ∀ k < (i.stored m).length, 0x200 ≤ m.index + k ∧ m.index + k ≤ 0xFFE := by
  by_cases htouched : Part.memory ∈ i.touched
  case neg =>
    have hsame : Part.memory.Same m (i.exec byte m).machine := exec_same byte htouched
    rw [h] at hsame
    rw [stored_of_untouched htouched]
    exact ⟨hsame, by simp⟩
  cases i with
  | storeDecimal x =>
    simp only [exec, Machine.storeDecimal] at h
    split at h <;> cases h
    next hroom =>
      obtain ⟨hlow, hhigh⟩ := inProgramMemory_iff.mp (Decidable.not_not.mp hroom)
      refine ⟨rfl, fun k hk => ?_⟩
      have hk : k < 3 := hk
      omega
  | saveRegisters x =>
    simp only [exec, Machine.saveRegisters] at h
    split at h <;> cases h
    next hroom =>
      obtain ⟨hlow, hhigh⟩ := inProgramMemory_iff.mp (Decidable.not_not.mp hroom)
      refine ⟨rfl, fun k hk => ?_⟩
      simp only [stored, List.length_take] at hk
      omega
  | _ => simp [touched] at htouched

/-- The bytes at which nothing is stored stay. -/
theorem byteAt_of_done (h : i.exec byte m = done after) {a : Nat}
    (houtside : ¬(m.index ≤ a ∧ a < m.index + (i.stored m).length)) :
    after.byteAt a = m.byteAt a := by
  obtain ⟨hwrite, hwithin⟩ := exec_store h
  refine byteAt_of_write hwrite ?_
  by_cases hnothing : (i.stored m).length = 0
  · omega
  · have hfirst := hwithin 0 (by omega)
    omega

/-- A glyph that there is has its address in the address register afterwards, and nothing else is
different. -/
theorem exec_loadGlyph {x : Register} (h : m.value x ≤ 15) :
    (loadGlyph x).exec byte m = done { m with index := m.value x * glyphSize } := by
  simp only [exec, glyphAddress, if_neg (show ¬15 < m.value x by omega)]
  rfl

end Instruction

end ChipEight
