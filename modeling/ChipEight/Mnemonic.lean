import ChipEight.Text.Hex
import ChipEight.Word

/-!
# Mnemonics

The assembly text of an instruction word.  It is found from the four digits of the word alone, by
rows of its own: nothing is executed for it, and nothing is asked of the part that executes.

* `Fields.text` is the text of the digits, `???` where no row fits;
* `mnemonic` is the text of any integer as a word.
-/

namespace ChipEight

namespace Mnemonic

/-- A register by its name. -/
def registerText (x : Fin 16) : String :=
  "V" ++ Text.Hex.padded 1 x.val

/-- An address operand: three digits. -/
def addressText (a : Int) : String :=
  "0x" ++ Text.Hex.padded 3 a

/-- A byte operand: two digits. -/
def byteText (b : Int) : String :=
  "0x" ++ Text.Hex.padded 2 b

/-- A name and its operands, which stand between commas. -/
def assemble (name : String) (operands : List String) : String :=
  name ++ " " ++ ", ".intercalate operands

end Mnemonic

/-- What stands for the text of a word that names no instruction. -/
def unknownMnemonic : String := "???"

open Mnemonic in
/-- The assembly text of the digits of a word.  The first row that fits is taken. -/
def Fields.text (f : Fields) : String :=
  match f.op, f.x, f.y, f.n with
  | 0x0, 0x0, 0xE, 0x0 => "CLS"
  | 0x0, 0x0, 0xE, 0xE => "RET"
  | 0x0, _, _, _ => assemble "SYS" [addressText f.address]
  | 0x1, _, _, _ => assemble "JP" [addressText f.address]
  | 0x2, _, _, _ => assemble "CALL" [addressText f.address]
  | 0x3, _, _, _ => assemble "SE" [registerText f.x, byteText f.byte]
  | 0x4, _, _, _ => assemble "SNE" [registerText f.x, byteText f.byte]
  | 0x5, _, _, 0x0 => assemble "SE" [registerText f.x, registerText f.y]
  | 0x6, _, _, _ => assemble "LD" [registerText f.x, byteText f.byte]
  | 0x7, _, _, _ => assemble "ADD" [registerText f.x, byteText f.byte]
  | 0x8, _, _, 0x0 => assemble "LD" [registerText f.x, registerText f.y]
  | 0x8, _, _, 0x1 => assemble "OR" [registerText f.x, registerText f.y]
  | 0x8, _, _, 0x2 => assemble "AND" [registerText f.x, registerText f.y]
  | 0x8, _, _, 0x3 => assemble "XOR" [registerText f.x, registerText f.y]
  | 0x8, _, _, 0x4 => assemble "ADD" [registerText f.x, registerText f.y]
  | 0x8, _, _, 0x5 => assemble "SUB" [registerText f.x, registerText f.y]
  | 0x8, _, _, 0x6 => assemble "SHR" [registerText f.x, registerText f.y]
  | 0x8, _, _, 0x7 => assemble "SUBN" [registerText f.x, registerText f.y]
  | 0x8, _, _, 0xE => assemble "SHL" [registerText f.x, registerText f.y]
  | 0x9, _, _, 0x0 => assemble "SNE" [registerText f.x, registerText f.y]
  | 0xA, _, _, _ => assemble "LD" ["I", addressText f.address]
  | 0xB, _, _, _ => assemble "JP" ["V0", addressText f.address]
  | 0xC, _, _, _ => assemble "RND" [registerText f.x, byteText f.byte]
  | 0xD, _, _, _ => assemble "DRW" [registerText f.x, registerText f.y, toString f.n.val]
  | 0xE, _, 0x9, 0xE => assemble "SKP" [registerText f.x]
  | 0xE, _, 0xA, 0x1 => assemble "SKNP" [registerText f.x]
  | 0xF, _, 0x0, 0x7 => assemble "LD" [registerText f.x, "DT"]
  | 0xF, _, 0x0, 0xA => assemble "LD" [registerText f.x, "K"]
  | 0xF, _, 0x1, 0x5 => assemble "LD" ["DT", registerText f.x]
  | 0xF, _, 0x1, 0x8 => assemble "LD" ["ST", registerText f.x]
  | 0xF, _, 0x1, 0xE => assemble "ADD" ["I", registerText f.x]
  | 0xF, _, 0x2, 0x9 => assemble "LD" ["F", registerText f.x]
  | 0xF, _, 0x3, 0x3 => assemble "LD" ["B", registerText f.x]
  | 0xF, _, 0x5, 0x5 => assemble "LD" ["[I]", registerText f.x]
  | 0xF, _, 0x6, 0x5 => assemble "LD" [registerText f.x, "[I]"]
  | _, _, _, _ => unknownMnemonic

/-- The assembly text of a word. -/
def mnemonic (w : Int) : String :=
  (Fields.ofInt w).text

end ChipEight
