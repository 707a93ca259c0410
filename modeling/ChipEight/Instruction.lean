import ChipEight.Word

/-!
# Instructions

An instruction is a word that has been read: the operation by name and its operands as numbers.
Addresses, bytes and sprite heights are plain integers here, because an instruction may be given
to the machine directly; those that come out of a word have as many digits as the word gives them.
For the same reason it is left open how an instruction names its registers: those that come out of
words name the registers themselves.

* `Instruction.ofFields?` reads the digits of a word, and refuses those that name no operation;
* `Instruction.ofWord?` does so for any integer as a word.
-/

namespace ChipEight

/-- One of the sixteen registers `V0` to `VF`. -/
abbrev Register := Fin 16

/-- `V0`, which an indexed jump adds to its address. -/
def offsetRegister : Register := ⟨0, by decide⟩

/-- `VF`, which some operations also use for their flag. -/
def flagRegister : Register := ⟨15, by decide⟩

/-- The operations `8xy_` on two registers, by their last digit. -/
inductive Alu where
  | move
  | or
  | and
  | xor
  | add
  | sub
  | shiftRight
  | subFrom
  | shiftLeft
  deriving DecidableEq, Repr

/-- The instructions of the machine, which name registers by a type of names. -/
inductive Instruction (ρ : Type) where
  /-- Blank the display. -/
  | clear
  /-- Return from a subroutine. -/
  | ret
  /-- A call into the host computer's own code, which does nothing here. -/
  | system (address : Int)
  | jump (address : Int)
  | call (address : Int)
  /-- Skip the next instruction if the register holds the byte. -/
  | skipIfByte (x : ρ) (byte : Int)
  | skipUnlessByte (x : ρ) (byte : Int)
  | skipIfEqual (x y : ρ)
  | skipUnlessEqual (x y : ρ)
  | loadByte (x : ρ) (byte : Int)
  | addByte (x : ρ) (byte : Int)
  | alu (op : Alu) (x y : ρ)
  | loadIndex (address : Int)
  /-- Jump to the address plus `V0`. -/
  | jumpPlus (address : Int)
  /-- A random byte, masked. -/
  | random (x : ρ) (mask : Int)
  /-- Draw a sprite of the given height at the coordinates in two registers. -/
  | draw (x y : ρ) (height : Int)
  | skipIfKey (x : ρ)
  | skipUnlessKey (x : ρ)
  | readDelay (x : ρ)
  | waitKey (x : ρ)
  | setDelay (x : ρ)
  | setSound (x : ρ)
  | addIndex (x : ρ)
  /-- Point the address register at the glyph of a hexadecimal digit. -/
  | loadGlyph (x : ρ)
  /-- Store the three decimal digits of a register. -/
  | storeDecimal (x : ρ)
  /-- Store `V0` to `Vx` in memory. -/
  | saveRegisters (x : ρ)
  /-- Load `V0` to `Vx` from memory. -/
  | restoreRegisters (x : ρ)
  deriving DecidableEq, Repr

namespace Instruction

/-- The instruction that the digits of a word name, if there is one.  The first row that fits is
taken. -/
def ofFields? (f : Fields) : Option (Instruction Register) :=
  match f.op, f.x, f.y, f.n with
  | 0x0, 0x0, 0xE, 0x0 => some clear
  | 0x0, 0x0, 0xE, 0xE => some ret
  | 0x0, a, b, c => some (system (joinAddress a b c))
  | 0x1, a, b, c => some (jump (joinAddress a b c))
  | 0x2, a, b, c => some (call (joinAddress a b c))
  | 0x3, a, b, c => some (skipIfByte a (joinByte b c))
  | 0x4, a, b, c => some (skipUnlessByte a (joinByte b c))
  | 0x5, a, b, 0x0 => some (skipIfEqual a b)
  | 0x6, a, b, c => some (loadByte a (joinByte b c))
  | 0x7, a, b, c => some (addByte a (joinByte b c))
  | 0x8, a, b, 0x0 => some (alu .move a b)
  | 0x8, a, b, 0x1 => some (alu .or a b)
  | 0x8, a, b, 0x2 => some (alu .and a b)
  | 0x8, a, b, 0x3 => some (alu .xor a b)
  | 0x8, a, b, 0x4 => some (alu .add a b)
  | 0x8, a, b, 0x5 => some (alu .sub a b)
  | 0x8, a, b, 0x6 => some (alu .shiftRight a b)
  | 0x8, a, b, 0x7 => some (alu .subFrom a b)
  | 0x8, a, b, 0xE => some (alu .shiftLeft a b)
  | 0x9, a, b, 0x0 => some (skipUnlessEqual a b)
  | 0xA, a, b, c => some (loadIndex (joinAddress a b c))
  | 0xB, a, b, c => some (jumpPlus (joinAddress a b c))
  | 0xC, a, b, c => some (random a (joinByte b c))
  | 0xD, a, b, c => some (draw a b c.val)
  | 0xE, a, 0x9, 0xE => some (skipIfKey a)
  | 0xE, a, 0xA, 0x1 => some (skipUnlessKey a)
  | 0xF, a, 0x0, 0x7 => some (readDelay a)
  | 0xF, a, 0x0, 0xA => some (waitKey a)
  | 0xF, a, 0x1, 0x5 => some (setDelay a)
  | 0xF, a, 0x1, 0x8 => some (setSound a)
  | 0xF, a, 0x1, 0xE => some (addIndex a)
  | 0xF, a, 0x2, 0x9 => some (loadGlyph a)
  | 0xF, a, 0x3, 0x3 => some (storeDecimal a)
  | 0xF, a, 0x5, 0x5 => some (saveRegisters a)
  | 0xF, a, 0x6, 0x5 => some (restoreRegisters a)
  | _, _, _, _ => none

/-- The instruction that a word names, if there is one. -/
def ofWord? (w : Int) : Option (Instruction Register) :=
  ofFields? (Fields.ofInt w)

end Instruction

end ChipEight
