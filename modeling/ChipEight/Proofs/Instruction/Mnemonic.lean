import ChipEight.Mnemonic
import ChipEight.Proofs.Instruction.Pattern

/-!
# The texts of instructions

Assembly text is found from the digits of a word by rows of its own (`Fields.text`), which share
nothing with the rows that execution goes by (`Instruction.ofFields?`).  Both have an order, and both
could miss a row.  `Instruction.Matches`, the table without an order, stands between them:

* `text_of_matches` says that digits which fit the row of an instruction have its text;
* `text_of_unassigned` says that all others have no text.

No instruction is written as an unknown one (`text_ne_unknown`), so the words without a text are
the words without an instruction (`mnemonic_eq_unknown_iff`).
-/

namespace ChipEight

open Mnemonic

/-- The name of an operation on two registers in assembly language. -/
def Alu.name : Alu → String
  | move => "LD"
  | or => "OR"
  | and => "AND"
  | xor => "XOR"
  | add => "ADD"
  | sub => "SUB"
  | shiftRight => "SHR"
  | subFrom => "SUBN"
  | shiftLeft => "SHL"

namespace Instruction

/-- An instruction in assembly language. -/
def text : Instruction Register → String
  | clear => "CLS"
  | ret => "RET"
  | system a => assemble "SYS" [addressText a]
  | jump a => assemble "JP" [addressText a]
  | call a => assemble "CALL" [addressText a]
  | skipIfByte x b => assemble "SE" [registerText x, byteText b]
  | skipUnlessByte x b => assemble "SNE" [registerText x, byteText b]
  | skipIfEqual x y => assemble "SE" [registerText x, registerText y]
  | skipUnlessEqual x y => assemble "SNE" [registerText x, registerText y]
  | loadByte x b => assemble "LD" [registerText x, byteText b]
  | addByte x b => assemble "ADD" [registerText x, byteText b]
  | alu op x y => assemble op.name [registerText x, registerText y]
  | loadIndex a => assemble "LD" ["I", addressText a]
  | jumpPlus a => assemble "JP" ["V0", addressText a]
  | random x b => assemble "RND" [registerText x, byteText b]
  | draw x y n => assemble "DRW" [registerText x, registerText y, toString n]
  | skipIfKey x => assemble "SKP" [registerText x]
  | skipUnlessKey x => assemble "SKNP" [registerText x]
  | readDelay x => assemble "LD" [registerText x, "DT"]
  | waitKey x => assemble "LD" [registerText x, "K"]
  | setDelay x => assemble "LD" ["DT", registerText x]
  | setSound x => assemble "LD" ["ST", registerText x]
  | addIndex x => assemble "ADD" ["I", registerText x]
  | loadGlyph x => assemble "LD" ["F", registerText x]
  | storeDecimal x => assemble "LD" ["B", registerText x]
  | saveRegisters x => assemble "LD" ["[I]", registerText x]
  | restoreRegisters x => assemble "LD" [registerText x, "[I]"]

variable {f : Fields} {i : Instruction Register}

/-- **Digits that fit the row of an instruction have its text.** -/
theorem text_of_matches (h : i.Matches f) : f.text = i.text := by
  cases i with
  | clear | ret =>
    obtain ⟨hop, haddress⟩ := h
    rw [Fields.eq_of_address hop haddress]
    rfl
  | system a =>
    obtain ⟨hop, hclear, hret, rfl⟩ := h
    have haddress := f.address_eq
    have hbyte := f.byte_eq
    unfold Fields.text
    split
    case h_3 => rfl
    all_goals grind
  | jump a | call a | loadIndex a | jumpPlus a =>
    obtain ⟨hop, rfl⟩ := h
    rw [Fields.eq_of_last hop rfl]
    rfl
  | skipIfByte x b | skipUnlessByte x b | loadByte x b | addByte x b | random x b =>
    obtain ⟨hop, rfl, rfl⟩ := h
    rw [Fields.eq_of_last hop rfl]
    rfl
  | skipIfEqual x y | skipUnlessEqual x y =>
    obtain ⟨hop, hn, rfl, rfl⟩ := h
    rw [Fields.eq_of_last hop hn]
    rfl
  | alu op x y =>
    obtain ⟨hop, hdigit, rfl, rfl⟩ := h
    rw [Fields.eq_of_last hop hdigit]
    cases op <;> rfl
  | draw x y height =>
    obtain ⟨hop, rfl, rfl, rfl⟩ := h
    rw [Fields.eq_of_last hop rfl]
    rfl
  | skipIfKey x | skipUnlessKey x | readDelay x | waitKey x | setDelay x | setSound x | addIndex x
  | loadGlyph x | storeDecimal x | saveRegisters x | restoreRegisters x =>
    obtain ⟨hop, hbyte, rfl⟩ := h
    rw [Fields.eq_of_byte hop hbyte]
    rfl

/-- **Digits without a row have no text.** -/
theorem text_of_unassigned (h : f.Unassigned) : f.text = unknownMnemonic := by
  have hbyte := f.byte_eq
  simp only [Fields.Unassigned, List.mem_cons, List.not_mem_nil, or_false, not_or] at h
  unfold Fields.text
  split
  case h_36 => rfl
  all_goals omega

/-- A name with operands is no unknown text: it has a blank. -/
theorem assemble_ne_unknown (name : String) (operands : List String) :
    assemble name operands ≠ unknownMnemonic := by
  intro h
  have hblank : ' ' ∈ unknownMnemonic.toList := by
    rw [← h]
    simp [assemble]
  revert hblank
  decide

/-- **No instruction is written as an unknown one.** -/
theorem text_ne_unknown (i : Instruction Register) : i.text ≠ unknownMnemonic := by
  cases i with
  | clear | ret => decide
  | _ => exact assemble_ne_unknown _ _

/-- So the digits without a text are those without a row. -/
theorem text_eq_unknown_iff : f.text = unknownMnemonic ↔ f.Unassigned := by
  refine ⟨fun h => ?_, text_of_unassigned⟩
  apply Classical.byContradiction
  intro hassigned
  obtain ⟨i, hi⟩ := exists_matches hassigned
  rw [text_of_matches hi] at h
  exact text_ne_unknown i h

end Instruction

open Instruction

/-- A word that names an instruction has the text of this instruction. -/
theorem mnemonic_of_ofWord? {w : Int} {i : Instruction Register} (h : ofWord? w = some i) :
    mnemonic w = i.text :=
  text_of_matches (matches_of_ofFields? h)

/-- **A word has no text exactly if it names no instruction.** -/
theorem mnemonic_eq_unknown_iff {w : Int} : mnemonic w = unknownMnemonic ↔ ofWord? w = none :=
  text_eq_unknown_iff.trans ofFields?_eq_none_iff.symm

end ChipEight
