import Mathlib.Data.List.Forall2
import ChipEight.Proofs.Instruction.Mnemonic
import ChipEight.Proofs.Text.Hexadecimal

/-!
# An assembler

Assembly text is read in three steps, each of which undoes one of writing: a line is a name and the
texts of its operands, an operand is a register, a number or a place with a name of its own, and a name
with its operands is an instruction.  `Instruction.word` then puts the digits of the word together.

Names are shared by several instructions: `LD` alone stands for eleven.  Which of them is meant shows in
the kinds of the operands, and a number is told from a register and from the other places by its first
characters.

* `ofText?_text` says that an instruction of a word is read back from its text;
* `word_of_matches` says that its word has the digits that it was read from;
* `wordOfText?_mnemonic` puts them together: the assembler undoes the assembly text of any word.
-/

namespace ChipEight

open Text Mnemonic

/-! ### From instructions to words -/

namespace Instruction

/-- The word of an instruction. -/
def word : Instruction Register → Int
  | clear => 0x00E0
  | ret => 0x00EE
  | system a => a
  | jump a => 0x1000 + a
  | call a => 0x2000 + a
  | skipIfByte x b => 0x3000 + 0x100 * x.val + b
  | skipUnlessByte x b => 0x4000 + 0x100 * x.val + b
  | skipIfEqual x y => 0x5000 + 0x100 * x.val + 0x10 * y.val
  | loadByte x b => 0x6000 + 0x100 * x.val + b
  | addByte x b => 0x7000 + 0x100 * x.val + b
  | alu op x y => 0x8000 + 0x100 * x.val + 0x10 * y.val + op.digit
  | skipUnlessEqual x y => 0x9000 + 0x100 * x.val + 0x10 * y.val
  | loadIndex a => 0xA000 + a
  | jumpPlus a => 0xB000 + a
  | random x b => 0xC000 + 0x100 * x.val + b
  | draw x y height => 0xD000 + 0x100 * x.val + 0x10 * y.val + height
  | skipIfKey x => 0xE09E + 0x100 * x.val
  | skipUnlessKey x => 0xE0A1 + 0x100 * x.val
  | readDelay x => 0xF007 + 0x100 * x.val
  | waitKey x => 0xF00A + 0x100 * x.val
  | setDelay x => 0xF015 + 0x100 * x.val
  | setSound x => 0xF018 + 0x100 * x.val
  | addIndex x => 0xF01E + 0x100 * x.val
  | loadGlyph x => 0xF029 + 0x100 * x.val
  | storeDecimal x => 0xF033 + 0x100 * x.val
  | saveRegisters x => 0xF055 + 0x100 * x.val
  | restoreRegisters x => 0xF065 + 0x100 * x.val

variable {f : Fields} {i : Instruction Register}

/-- **An instruction has the word that it was read from.** -/
theorem word_of_matches (h : i.Matches f) : i.word = f.value := by
  have hvalue : f.value = f.op.val * 4096 + f.address := rfl
  have haddress := f.address_eq
  have hbyte := f.byte_eq
  cases i with
  | alu op x y =>
    obtain ⟨hop, hdigit, rfl, rfl⟩ := h
    simp only [word]
    omega
  | _ =>
    simp only [Matches] at h
    obtain ⟨hop, h⟩ := h
    simp_all only [word]
    omega

/-- And it is read from that word again. -/
theorem ofWord?_word (h : i.Matches f) : ofWord? i.word = some i := by
  rw [word_of_matches h, ofWord?, Fields.ofInt_value]
  exact ofFields?_of_matches h

end Instruction

/-! ### Operands -/

/-- An operand of an instruction in assembly language. -/
inductive Operand where
  | register (x : Register)
  | number (n : Nat)
  /-- Another place, such as the address register or a timer, by its name. -/
  | place (name : String)
  deriving DecidableEq, Repr

namespace Operand

/-- Reads an operand. -/
def read? : List Char → Option Operand
  | ['V', digit] =>
    match IntegerLiteral.digits? 16 false 0 [digit] with
    | some d => if h : d < 16 then some (register ⟨d, h⟩) else none
    | none => none
  | '0' :: 'x' :: digits => (IntegerLiteral.digits? 16 false 0 digits).map number
  | text =>
    match IntegerLiteral.digits? 10 false 0 text with
    | some n => some (number n)
    | none => some (place (String.ofList text))

/-- A text is that of an operand: it can be read, and nothing in it parts a line. -/
structure Written (operand : Operand) (text : String) : Prop where
  whole : ' ' ∉ text.toList ∧ ',' ∉ text.toList
  read : read? text.toList = some operand

/-- Text in hexadecimal digits does not part a line. -/
theorem whole_of_digits {text : List Char} (h : ∀ c ∈ text, ∃ d < 16, c = Hex.digit d) :
    ' ' ∉ text ∧ ',' ∉ text := by
  constructor <;> intro hmem
  all_goals
    obtain ⟨d, hd, hc⟩ := h _ hmem
    have hmark := (Hex.digitValue?_digit hd).2
    simp [← hc] at hmark

theorem written_register (x : Register) : Written (register x) (registerText x) := by
  have htext : (registerText x).toList = ['V', Hex.digit x.val] := by
    simp [registerText, Hex.toList_padded, Hex.digits_of_lt x.isLt, Hex.zeroFill]
  have hwhole : ' ' ∉ [Hex.digit x.val] ∧ ',' ∉ [Hex.digit x.val] :=
    whole_of_digits fun c hc => ⟨x.val, x.isLt, List.mem_singleton.mp hc⟩
  constructor
  · rw [htext]
    simpa using hwhole
  · rw [htext, read?, IntegerLiteral.digits?_digit false 0 x.isLt]
    simp [IntegerLiteral.digits?]

theorem written_offsetRegister : Written (register offsetRegister) "V0" :=
  ⟨by decide, by decide⟩

/-- A number is written in any width. -/
theorem written_number (width n : Nat) : Written (number n) ("0x" ++ Hex.padded width n) := by
  have htext : ("0x" ++ Hex.padded width n).toList = '0' :: 'x' :: (Hex.padded width n).toList := by
    simp
  have hwhole : ' ' ∉ (Hex.padded width n).toList ∧ ',' ∉ (Hex.padded width n).toList :=
    whole_of_digits fun _ => Hex.mem_padded
  constructor
  · rw [htext]
    simpa using hwhole
  · rw [htext, read?, IntegerLiteral.digits?_padded]
    rfl

/-- The height of a sprite is written in decimal. -/
theorem written_height (n : Fin 16) : Written (number n.val) (toString (n.val : Int)) := by
  have hall : ∀ n : Fin 16,
      (' ' ∉ (toString (n.val : Int)).toList ∧ ',' ∉ (toString (n.val : Int)).toList) ∧
        read? (toString (n.val : Int)).toList = some (number n.val) := by
    decide
  exact ⟨(hall n).1, (hall n).2⟩

/-- The places that instructions name. -/
theorem written_place {name : String} (h : name ∈ ["I", "[I]", "DT", "ST", "K", "F", "B"]) :
    Written (place name) name := by
  have hall : ∀ name ∈ ["I", "[I]", "DT", "ST", "K", "F", "B"],
      (' ' ∉ name.toList ∧ ',' ∉ name.toList) ∧ read? name.toList = some (place name) := by
    decide
  exact ⟨(hall name h).1, (hall name h).2⟩

/-- No text in a list of operands parts the line. -/
theorem whole_of_written {operands : List Operand} {texts : List String}
    (h : List.Forall₂ Written operands texts) :
    ∀ text ∈ texts, ' ' ∉ text.toList ∧ ',' ∉ text.toList := by
  induction h with
  | nil => simp
  | cons hwritten _ ih => exact List.forall_mem_cons.mpr ⟨hwritten.whole, ih⟩

end Operand

/-- The operation on two registers that a name stands for. -/
def Alu.ofName? : String → Option Alu
  | "LD" => some .move
  | "OR" => some .or
  | "AND" => some .and
  | "XOR" => some .xor
  | "ADD" => some .add
  | "SUB" => some .sub
  | "SHR" => some .shiftRight
  | "SUBN" => some .subFrom
  | "SHL" => some .shiftLeft
  | _ => none

/-- An operation has a name of its own, without blanks. -/
theorem Alu.ofName?_name (op : Alu) : ofName? op.name = some op ∧ ' ' ∉ op.name.toList := by
  cases op <;> decide

namespace Instruction

open Operand

/-! ### Lines -/

/-- The name on a line: what stands in front of the first blank. -/
def nameOf (line : List Char) : String :=
  String.ofList (line.takeWhile (· ≠ ' '))

/-- The texts of the operands on a line: what stands between commas behind the name, without the
blanks. -/
def operandTexts (line : List Char) : List (List Char) :=
  match line.dropWhile (· ≠ ' ') with
  | [] => []
  | _ :: rest => (rest.filter (· ≠ ' ')).splitOn ','

variable {name : String} {operands : List Operand} {texts : List String}

/-- In a text without blanks, no character is one. -/
theorem not_blank {text : List Char} (h : ' ' ∉ text) : ∀ c ∈ text, decide (c ≠ ' ') = true := by
  intro c hc
  simpa using fun heq : c = ' ' => h (heq ▸ hc)

/-- The name is found again in front of its operands. -/
theorem nameOf_assemble (h : ' ' ∉ name.toList) : nameOf (assemble name texts).toList = name := by
  simp only [nameOf, assemble, String.toList_append]
  rw [List.append_assoc, List.takeWhile_append_of_pos (not_blank h)]
  simp

/-- Without the blanks, a comma alone stands between texts that have no blanks themselves. -/
theorem filter_intercalate {texts : List (List Char)} (h : ∀ text ∈ texts, ' ' ∉ text) :
    ([',', ' '].intercalate texts).filter (· ≠ ' ') = [','].intercalate texts := by
  induction texts with
  | nil => rfl
  | cons text texts ih =>
    have hrest := ih fun text' hmem => h text' (List.mem_cons_of_mem _ hmem)
    have hhead := List.filter_eq_self.mpr (not_blank (h text List.mem_cons_self))
    cases texts with
    | nil => simpa using hhead
    | cons next texts =>
      rw [List.intercalate_cons_cons, List.intercalate_cons_cons, List.filter_append,
        List.filter_append, hrest, hhead]
      rfl

/-- So are the texts of the operands. -/
theorem operandTexts_assemble (hname : ' ' ∉ name.toList)
    (htexts : ∀ text ∈ texts, ' ' ∉ text.toList ∧ ',' ∉ text.toList) (hne : texts ≠ []) :
    operandTexts (assemble name texts).toList = texts.map String.toList := by
  have hline : (assemble name texts).toList =
      name.toList ++ ' ' :: [',', ' '].intercalate (texts.map String.toList) := by
    simp [assemble, String.toList_intercalate]
  rw [operandTexts, hline, List.dropWhile_append_of_pos (not_blank hname)]
  have hwhole : ∀ text ∈ texts.map String.toList, ' ' ∉ text ∧ ',' ∉ text := by
    simpa using htexts
  simp only [List.dropWhile, ne_eq, not_true_eq_false, decide_false]
  rw [filter_intercalate fun text h => (hwhole text h).1]
  exact List.splitOn_intercalate _ (fun text h => (hwhole text h).2) (by simpa using hne)

/-! ### Statements -/

/-- The instruction that a name stands for in front of its operands. -/
def ofStatement? (name : String) : List Operand → Option (Instruction Register)
  | [] =>
    match name with
    | "CLS" => some clear
    | "RET" => some ret
    | _ => none
  | [.number n] =>
    match name with
    | "SYS" => some (system n)
    | "JP" => some (jump n)
    | "CALL" => some (call n)
    | _ => none
  | [.register x] =>
    match name with
    | "SKP" => some (skipIfKey x)
    | "SKNP" => some (skipUnlessKey x)
    | _ => none
  | [.register x, .number n] =>
    match name with
    | "SE" => some (skipIfByte x n)
    | "SNE" => some (skipUnlessByte x n)
    | "LD" => some (loadByte x n)
    | "ADD" => some (addByte x n)
    | "RND" => some (random x n)
    | "JP" => if x = offsetRegister then some (jumpPlus n) else none
    | _ => none
  | [.register x, .register y] =>
    match name with
    | "SE" => some (skipIfEqual x y)
    | "SNE" => some (skipUnlessEqual x y)
    | _ => (Alu.ofName? name).map (alu · x y)
  | [.register x, .place other] =>
    match name, other with
    | "LD", "DT" => some (readDelay x)
    | "LD", "K" => some (waitKey x)
    | "LD", "[I]" => some (restoreRegisters x)
    | _, _ => none
  | [.place other, .register x] =>
    match name, other with
    | "LD", "DT" => some (setDelay x)
    | "LD", "ST" => some (setSound x)
    | "LD", "F" => some (loadGlyph x)
    | "LD", "B" => some (storeDecimal x)
    | "LD", "[I]" => some (saveRegisters x)
    | "ADD", "I" => some (addIndex x)
    | _, _ => none
  | [.place other, .number n] =>
    match name, other with
    | "LD", "I" => some (loadIndex n)
    | _, _ => none
  | [.register x, .register y, .number n] =>
    match name with
    | "DRW" => some (draw x y n)
    | _ => none
  | _ => none

/-- Reads an instruction in assembly language. -/
def ofText? (text : String) : Option (Instruction Register) := do
  let operands ← (operandTexts text.toList).mapM read?
  ofStatement? (nameOf text.toList) operands

/-- The texts of operands are read as these operands. -/
theorem mapM_read? (h : List.Forall₂ Written operands texts) :
    (texts.map String.toList).mapM read? = some operands := by
  induction h with
  | nil => rfl
  | cons hwritten _ ih => simp [hwritten.read, ih]

/-- A name with operands is read by the name and the operands. -/
theorem ofText?_assemble (hname : ' ' ∉ name.toList)
    (h : List.Forall₂ Written operands texts) (hne : texts ≠ []) :
    ofText? (assemble name texts) = ofStatement? name operands := by
  rw [ofText?, operandTexts_assemble hname (whole_of_written h) hne, mapM_read? h,
    nameOf_assemble hname]
  rfl

variable {f : Fields} {i : Instruction Register}

/-- **The text of an instruction is read as this instruction.** -/
theorem ofText?_text (h : i.Matches f) : ofText? i.text = some i := by
  cases i with
  | clear | ret => decide
  | system a =>
    obtain ⟨-, -, -, rfl⟩ := h
    exact ofText?_assemble (by decide) (.cons (written_number 3 _) .nil) (by simp)
  | jump a | call a =>
    obtain ⟨-, rfl⟩ := h
    exact ofText?_assemble (by decide) (.cons (written_number 3 _) .nil) (by simp)
  | skipIfByte x b | skipUnlessByte x b | loadByte x b | addByte x b | random x b =>
    obtain ⟨-, rfl, rfl⟩ := h
    exact ofText?_assemble (by decide)
      (.cons (written_register _) (.cons (written_number 2 _) .nil)) (by simp)
  | skipIfEqual x y | skipUnlessEqual x y =>
    exact ofText?_assemble (by decide)
      (.cons (written_register _) (.cons (written_register _) .nil)) (by simp)
  | alu op x y =>
    -- Each operation has a name of its own, which only `rfl` after the split can see.
    have hread := ofText?_assemble (Alu.ofName?_name op).2
      (.cons (written_register x) (.cons (written_register y) .nil)) (by simp)
    exact hread.trans (by cases op <;> rfl)
  | loadIndex a =>
    obtain ⟨-, rfl⟩ := h
    exact ofText?_assemble (by decide)
      (.cons (written_place (by simp)) (.cons (written_number 3 _) .nil)) (by simp)
  | jumpPlus a =>
    obtain ⟨-, rfl⟩ := h
    exact ofText?_assemble (by decide)
      (.cons written_offsetRegister (.cons (written_number 3 _) .nil)) (by simp)
  | draw x y height =>
    obtain ⟨-, rfl, rfl, rfl⟩ := h
    exact ofText?_assemble (by decide)
      (.cons (written_register _) (.cons (written_register _) (.cons (written_height _) .nil)))
      (by simp)
  | skipIfKey x | skipUnlessKey x =>
    exact ofText?_assemble (by decide) (.cons (written_register _) .nil) (by simp)
  | readDelay x | waitKey x | restoreRegisters x =>
    exact ofText?_assemble (by decide)
      (.cons (written_register _) (.cons (written_place (by simp)) .nil)) (by simp)
  | setDelay x | setSound x | addIndex x | loadGlyph x | storeDecimal x | saveRegisters x =>
    exact ofText?_assemble (by decide)
      (.cons (written_place (by simp)) (.cons (written_register _) .nil)) (by simp)

end Instruction

/-! ### Words -/

/-- The word of a text in assembly language. -/
def wordOfText? (text : String) : Option Int :=
  (Instruction.ofText? text).map Instruction.word

/-- **The assembler undoes the assembly text of any word**, up to what a word keeps of an integer. -/
theorem wordOfText?_mnemonic {w : Int} (h : mnemonic w ≠ unknownMnemonic) :
    wordOfText? (mnemonic w) = some (w % 65536) := by
  cases hw : Instruction.ofWord? w with
  | none => exact absurd (mnemonic_eq_unknown_iff.mpr hw) h
  | some i =>
    have hrow := Instruction.matches_of_ofFields? hw
    rw [wordOfText?, mnemonic_of_ofWord? hw, Instruction.ofText?_text hrow, Option.map_some,
      Instruction.word_of_matches hrow, Fields.value_ofInt]

end ChipEight
