import ChipEight.Instruction

/-!
# Patterns of instruction words

`Instruction.ofFields?` reads the digits of a word row by row, so an earlier row hides a later one:
`00E0` and `00EE` are taken out of the host calls `0nnn`.  `Instruction.Matches` is the table
without an order.  Each instruction has one row, which says what the digits have to be and which
operands they give, and no word fits two rows.

* `ofFields?_eq_some_iff` says that reading follows the table: a word names an instruction exactly
  if its digits match the row of that instruction;
* `Unassigned` lists the digits that no row has (`not_matches`, `exists_matches`), and
  `ofFields?_eq_none_iff` says that these are the words which are refused.
-/

namespace ChipEight

namespace Fields

/-- The byte operand is made of the last two digits. -/
theorem byte_eq (f : Fields) : f.byte = f.y.val * 16 + f.n.val := by
  simp only [byte, joinByte, nibble_zero_of_fin]

/-- The address operand is one more digit and the byte operand. -/
theorem address_eq (f : Fields) : f.address = f.x.val * 256 + f.byte := by
  simp only [address, joinAddress, byte, nibble_zero_of_fin]

theorem byte_lt (f : Fields) : f.byte < 256 := by
  have h := f.byte_eq
  have hy := f.y.isLt
  have hn := f.n.isLt
  omega

theorem address_lt (f : Fields) : f.address < 4096 := by
  have h := f.address_eq
  have hx := f.x.isLt
  have hb := f.byte_lt
  omega

/-- Digits by the first and the last of them. -/
theorem eq_of_last {f : Fields} {op n : Nat} (hop : f.op.val = op) (hn : f.n.val = n) :
    f = ⟨Fin.ofNat 16 op, f.x, f.y, Fin.ofNat 16 n⟩ := by
  rw [← hop, ← hn, Fin.ofNat_val_eq_self, Fin.ofNat_val_eq_self]

/-- A digit by any number that ends in it. -/
theorem ofNat_digit {d : Fin 16} {k : Nat} (h : k % 16 = d.val) : Fin.ofNat 16 k = d :=
  Fin.ext h

/-- Digits by the first of them and the byte operand. -/
theorem eq_of_byte {f : Fields} {op b : Nat} (hop : f.op.val = op) (hb : f.byte = b) :
    f = ⟨Fin.ofNat 16 op, f.x, Fin.ofNat 16 (b / 16), Fin.ofNat 16 b⟩ := by
  have hbyte := f.byte_eq
  have hlt := f.n.isLt
  have hy : Fin.ofNat 16 (b / 16) = f.y := ofNat_digit (by omega)
  have hn : Fin.ofNat 16 b = f.n := ofNat_digit (by omega)
  rw [← hop, Fin.ofNat_val_eq_self, hy, hn]

/-- Digits by the first of them and the address operand. -/
theorem eq_of_address {f : Fields} {op a : Nat} (hop : f.op.val = op) (ha : f.address = a) :
    f = ⟨Fin.ofNat 16 op, Fin.ofNat 16 (a / 256), Fin.ofNat 16 (a / 16), Fin.ofNat 16 a⟩ := by
  have haddress := f.address_eq
  have hbyte := f.byte_eq
  have hlt := f.byte_lt
  have hx : Fin.ofNat 16 (a / 256) = f.x := ofNat_digit (by omega)
  have hy : Fin.ofNat 16 (a / 16) = f.y := ofNat_digit (by omega)
  have hn : Fin.ofNat 16 a = f.n := ofNat_digit (by omega)
  rw [← hop, Fin.ofNat_val_eq_self, hx, hy, hn]

/-- The digits that no instruction has: another last digit than zero where two registers are
compared, a last digit without an operation on registers, and a last byte without an operation on
keys or one of the various others. -/
def Unassigned (f : Fields) : Prop :=
  ((f.op.val = 0x5 ∨ f.op.val = 0x9) ∧ f.n.val ≠ 0) ∨
  (f.op.val = 0x8 ∧ f.n.val ∉ [0x0, 0x1, 0x2, 0x3, 0x4, 0x5, 0x6, 0x7, 0xE]) ∨
  (f.op.val = 0xE ∧ f.byte ∉ [0x9E, 0xA1]) ∨
  (f.op.val = 0xF ∧ f.byte ∉ [0x07, 0x0A, 0x15, 0x18, 0x1E, 0x29, 0x33, 0x55, 0x65])

instance (f : Fields) : Decidable f.Unassigned :=
  inferInstanceAs (Decidable (_ ∨ _))

/-- A word of sixteen bits is its first digit and its address operand. -/
theorem word_eq {w : Int} (h : 0 ≤ w ∧ w < 65536) :
    w = (ofInt w).op.val * 4096 + (ofInt w).address := by
  have hvalue := value_ofInt w
  rw [Int.emod_eq_of_lt h.1 h.2, value] at hvalue
  omega

/-- Digits that are put together to a word are read from it again. -/
theorem ofInt_value (f : Fields) : ofInt f.value = f := by
  have haddress := f.address_eq
  have hbyte := f.byte_eq
  have hop := f.op.isLt
  have hx := f.x.isLt
  have hy := f.y.isLt
  have hn := f.n.isLt
  have hvalue : f.value = f.op.val * 4096 + f.address := rfl
  have h0 : _ = (f.value : Int) / 1 % 16 := nibble_val f.value 0
  have h1 : _ = (f.value : Int) / 16 % 16 := nibble_val f.value 1
  have h2 : _ = (f.value : Int) / 256 % 16 := nibble_val f.value 2
  have h3 : _ = (f.value : Int) / 4096 % 16 := nibble_val f.value 3
  obtain ⟨op, x, y, n⟩ := f
  simp only [ofInt, Fields.mk.injEq, Fin.ext_iff]
  dsimp only at *
  omega

end Fields

/-- The last digit that selects an operation on two registers. -/
def Alu.digit : Alu → Nat
  | move => 0x0
  | or => 0x1
  | and => 0x2
  | xor => 0x3
  | add => 0x4
  | sub => 0x5
  | shiftRight => 0x6
  | subFrom => 0x7
  | shiftLeft => 0xE

namespace Instruction

/-- The row of an instruction: the digits of the words that name it, with the operands that they
give. -/
def Matches (f : Fields) : Instruction Register → Prop
  | clear => f.op.val = 0x0 ∧ f.address = 0x0E0
  | ret => f.op.val = 0x0 ∧ f.address = 0x0EE
  | system a => f.op.val = 0x0 ∧ f.address ≠ 0x0E0 ∧ f.address ≠ 0x0EE ∧ a = f.address
  | jump a => f.op.val = 0x1 ∧ a = f.address
  | call a => f.op.val = 0x2 ∧ a = f.address
  | skipIfByte x b => f.op.val = 0x3 ∧ x = f.x ∧ b = f.byte
  | skipUnlessByte x b => f.op.val = 0x4 ∧ x = f.x ∧ b = f.byte
  | skipIfEqual x y => f.op.val = 0x5 ∧ f.n.val = 0 ∧ x = f.x ∧ y = f.y
  | loadByte x b => f.op.val = 0x6 ∧ x = f.x ∧ b = f.byte
  | addByte x b => f.op.val = 0x7 ∧ x = f.x ∧ b = f.byte
  | alu op x y => f.op.val = 0x8 ∧ f.n.val = op.digit ∧ x = f.x ∧ y = f.y
  | skipUnlessEqual x y => f.op.val = 0x9 ∧ f.n.val = 0 ∧ x = f.x ∧ y = f.y
  | loadIndex a => f.op.val = 0xA ∧ a = f.address
  | jumpPlus a => f.op.val = 0xB ∧ a = f.address
  | random x b => f.op.val = 0xC ∧ x = f.x ∧ b = f.byte
  | draw x y height => f.op.val = 0xD ∧ x = f.x ∧ y = f.y ∧ height = f.n.val
  | skipIfKey x => f.op.val = 0xE ∧ f.byte = 0x9E ∧ x = f.x
  | skipUnlessKey x => f.op.val = 0xE ∧ f.byte = 0xA1 ∧ x = f.x
  | readDelay x => f.op.val = 0xF ∧ f.byte = 0x07 ∧ x = f.x
  | waitKey x => f.op.val = 0xF ∧ f.byte = 0x0A ∧ x = f.x
  | setDelay x => f.op.val = 0xF ∧ f.byte = 0x15 ∧ x = f.x
  | setSound x => f.op.val = 0xF ∧ f.byte = 0x18 ∧ x = f.x
  | addIndex x => f.op.val = 0xF ∧ f.byte = 0x1E ∧ x = f.x
  | loadGlyph x => f.op.val = 0xF ∧ f.byte = 0x29 ∧ x = f.x
  | storeDecimal x => f.op.val = 0xF ∧ f.byte = 0x33 ∧ x = f.x
  | saveRegisters x => f.op.val = 0xF ∧ f.byte = 0x55 ∧ x = f.x
  | restoreRegisters x => f.op.val = 0xF ∧ f.byte = 0x65 ∧ x = f.x

variable {f : Fields} {i : Instruction Register}

/-- What is read from digits has a row that fits them. -/
theorem matches_of_ofFields? (h : ofFields? f = some i) : i.Matches f := by
  have hbyte := f.byte_eq
  have haddress := f.address_eq
  unfold ofFields? at h
  split at h
  all_goals cases h
  case h_3 hop hclear hret =>
    -- The rows of `00E0` and `00EE` come first, so they are what is left out.
    refine ⟨congrArg Fin.val hop, ?_, ?_, rfl⟩
    · intro h
      exact hclear (by omega) (by omega) (by omega)
    · intro h
      exact hret (by omega) (by omega) (by omega)
  all_goals simp only [Matches, Alu.digit, Fin.ext_iff] at *
  all_goals grind [Fields.byte, Fields.address]

/-- Digits that fit a row are read as the instruction of that row. -/
theorem ofFields?_of_matches (h : i.Matches f) : ofFields? f = some i := by
  cases i with
  | clear | ret =>
    obtain ⟨hop, haddress⟩ := h
    rw [Fields.eq_of_address hop haddress]
    rfl
  | system a =>
    obtain ⟨hop, hclear, hret, rfl⟩ := h
    have haddress := f.address_eq
    have hbyte := f.byte_eq
    unfold ofFields?
    split
    case h_3 => rfl
    all_goals grind
  | jump a | call a | loadIndex a | jumpPlus a =>
    obtain ⟨hop, rfl⟩ := h
    rw [Fields.eq_of_last hop rfl]
    rfl
  | skipIfByte x b | skipUnlessByte x b | loadByte x b | addByte x b | random x b =>
    obtain ⟨hop, rfl, rfl⟩ := h
    rw [Fields.eq_of_last hop rfl]
    rfl
  | skipIfEqual x y | skipUnlessEqual x y =>
    obtain ⟨hop, hn, rfl, rfl⟩ := h
    rw [Fields.eq_of_last hop hn]
    rfl
  | alu op x y =>
    obtain ⟨hop, hdigit, rfl, rfl⟩ := h
    rw [Fields.eq_of_last hop hdigit]
    cases op <;> rfl
  | draw x y height =>
    obtain ⟨hop, rfl, rfl, rfl⟩ := h
    rw [Fields.eq_of_last hop rfl]
    rfl
  | skipIfKey x | skipUnlessKey x | readDelay x | waitKey x | setDelay x | setSound x | addIndex x
  | loadGlyph x | storeDecimal x | saveRegisters x | restoreRegisters x =>
    obtain ⟨hop, hbyte, rfl⟩ := h
    rw [Fields.eq_of_byte hop hbyte]
    rfl

/-- **Reading follows the table.**  Digits name an instruction exactly if they fit its row.  So no
word fits two rows, although the rows of reading overlap. -/
theorem ofFields?_eq_some_iff : ofFields? f = some i ↔ i.Matches f :=
  ⟨matches_of_ofFields?, ofFields?_of_matches⟩

/-- The words of sixteen bits that return. -/
theorem ofWord?_eq_ret_iff {w : Int} (h : 0 ≤ w ∧ w < 65536) :
    ofWord? w = some ret ↔ w = 0x00EE := by
  have hw := Fields.word_eq h
  have haddress := (Fields.ofInt w).address_lt
  refine ofFields?_eq_some_iff.trans ?_
  simp only [Matches]
  omega

/-- The words of sixteen bits that call an address. -/
theorem ofWord?_eq_call_iff {w a : Int} (h : 0 ≤ w ∧ w < 65536) :
    ofWord? w = some (call a) ↔ w = 0x2000 + a ∧ 0 ≤ a ∧ a < 4096 := by
  have hw := Fields.word_eq h
  have haddress := (Fields.ofInt w).address_lt
  refine ofFields?_eq_some_iff.trans ?_
  simp only [Matches]
  omega

/-- The words of sixteen bits that wait for a key, to be put into a register. -/
theorem ofWord?_eq_waitKey_iff {w : Int} {x : Register} (h : 0 ≤ w ∧ w < 65536) :
    ofWord? w = some (waitKey x) ↔ w = 0xF00A + 256 * x.val := by
  have hw := Fields.word_eq h
  have haddress := (Fields.ofInt w).address_eq
  have hbyte := (Fields.ofInt w).byte_lt
  have hx := x.isLt
  have hdigit := (Fields.ofInt w).x.isLt
  have hop := (Fields.ofInt w).op.isLt
  refine ofFields?_eq_some_iff.trans ?_
  simp only [Matches, Fin.ext_iff]
  omega

/-- Digits of no row fit none. -/
theorem not_matches (h : f.Unassigned) (i : Instruction Register) : ¬ i.Matches f := by
  intro hi
  simp only [Fields.Unassigned, List.mem_cons, List.not_mem_nil, or_false, not_or] at h
  cases i with
  | alu op x y =>
    obtain ⟨hop, hdigit, -⟩ := hi
    cases op <;> simp only [Alu.digit] at hdigit <;> omega
  | _ =>
    simp only [Matches] at hi
    omega

/-- All others fit one. -/
theorem exists_matches (h : ¬ f.Unassigned) : ∃ i : Instruction Register, i.Matches f := by
  simp only [Fields.Unassigned, not_or, not_and, Classical.not_not] at h
  simp only [List.mem_cons, List.not_mem_nil, or_false] at h
  obtain ⟨hpair, halu, hkey, hmisc⟩ := h
  have hlt := f.op.isLt
  obtain hop | hop | hop | hop | hop | hop | hop | hop | hop | hop | hop | hop | hop | hop | hop | hop :
      f.op.val = 0x0 ∨ f.op.val = 0x1 ∨ f.op.val = 0x2 ∨ f.op.val = 0x3 ∨ f.op.val = 0x4 ∨
      f.op.val = 0x5 ∨ f.op.val = 0x6 ∨ f.op.val = 0x7 ∨ f.op.val = 0x8 ∨ f.op.val = 0x9 ∨
      f.op.val = 0xA ∨ f.op.val = 0xB ∨ f.op.val = 0xC ∨ f.op.val = 0xD ∨ f.op.val = 0xE ∨
      f.op.val = 0xF := by omega
  · by_cases hclear : f.address = 0x0E0
    · exact ⟨clear, hop, hclear⟩
    by_cases hret : f.address = 0x0EE
    · exact ⟨ret, hop, hret⟩
    exact ⟨system _, hop, hclear, hret, rfl⟩
  · exact ⟨jump _, hop, rfl⟩
  · exact ⟨call _, hop, rfl⟩
  · exact ⟨skipIfByte _ _, hop, rfl, rfl⟩
  · exact ⟨skipUnlessByte _ _, hop, rfl, rfl⟩
  · exact ⟨skipIfEqual _ _, hop, hpair (.inl hop), rfl, rfl⟩
  · exact ⟨loadByte _ _, hop, rfl, rfl⟩
  · exact ⟨addByte _ _, hop, rfl, rfl⟩
  · obtain hn | hn | hn | hn | hn | hn | hn | hn | hn := halu hop
    · exact ⟨alu .move _ _, hop, hn, rfl, rfl⟩
    · exact ⟨alu .or _ _, hop, hn, rfl, rfl⟩
    · exact ⟨alu .and _ _, hop, hn, rfl, rfl⟩
    · exact ⟨alu .xor _ _, hop, hn, rfl, rfl⟩
    · exact ⟨alu .add _ _, hop, hn, rfl, rfl⟩
    · exact ⟨alu .sub _ _, hop, hn, rfl, rfl⟩
    · exact ⟨alu .shiftRight _ _, hop, hn, rfl, rfl⟩
    · exact ⟨alu .subFrom _ _, hop, hn, rfl, rfl⟩
    · exact ⟨alu .shiftLeft _ _, hop, hn, rfl, rfl⟩
  · exact ⟨skipUnlessEqual _ _, hop, hpair (.inr hop), rfl, rfl⟩
  · exact ⟨loadIndex _, hop, rfl⟩
  · exact ⟨jumpPlus _, hop, rfl⟩
  · exact ⟨random _ _, hop, rfl, rfl⟩
  · exact ⟨draw _ _ _, hop, rfl, rfl, rfl⟩
  · obtain hb | hb := hkey hop
    · exact ⟨skipIfKey _, hop, hb, rfl⟩
    · exact ⟨skipUnlessKey _, hop, hb, rfl⟩
  · obtain hb | hb | hb | hb | hb | hb | hb | hb | hb := hmisc hop
    · exact ⟨readDelay _, hop, hb, rfl⟩
    · exact ⟨waitKey _, hop, hb, rfl⟩
    · exact ⟨setDelay _, hop, hb, rfl⟩
    · exact ⟨setSound _, hop, hb, rfl⟩
    · exact ⟨addIndex _, hop, hb, rfl⟩
    · exact ⟨loadGlyph _, hop, hb, rfl⟩
    · exact ⟨storeDecimal _, hop, hb, rfl⟩
    · exact ⟨saveRegisters _, hop, hb, rfl⟩
    · exact ⟨restoreRegisters _, hop, hb, rfl⟩

/-- The words that are refused are those of the digits without a row. -/
theorem ofFields?_eq_none_iff : ofFields? f = none ↔ f.Unassigned := by
  constructor
  · intro hnone
    apply Classical.byContradiction
    intro hassigned
    obtain ⟨i, hi⟩ := exists_matches hassigned
    rw [ofFields?_of_matches hi] at hnone
    cases hnone
  · intro h
    cases hread : ofFields? f with
    | none => rfl
    | some i => exact absurd (matches_of_ofFields? hread) (not_matches h i)

end Instruction

end ChipEight
