import ChipEight.Text.IntegerLiteral

/-!
# Colors

A color is written as a mark followed by two hexadecimal digits each for red, green and blue. Any
number of marks may stand in front, and what follows the six digits is ignored.

* `Color.components` reads the three parts, each as an integer of its own;
* `Color.ofText` makes a color of them.
-/

namespace ChipEight

/-- A color. -/
structure Color where
  red : UInt8
  green : UInt8
  blue : UInt8
  deriving DecidableEq, Repr

/-- Why a text is no color. -/
inductive ColorFault where
  /-- A part is no hexadecimal integer. -/
  | notHexadecimal (digits : String)
  /-- A part is no byte. -/
  | notByte (value : Int)
  deriving DecidableEq, Repr

/-- The text of a fault. -/
def ColorFault.message : ColorFault → String
  | notHexadecimal digits => Text.IntegerLiteral.faultMessage 16 digits
  | notByte value => s!"Python integer {value} out of bounds for uint8"

namespace Color

/-- Reads one part of a color. -/
def component (digits : List Char) : Except ColorFault Int :=
  let text := String.ofList digits
  match Text.IntegerLiteral.parse? 16 text with
  | some n => .ok n
  | none => .error (.notHexadecimal text)

/-- Reads the parts of a color. -/
def components (text : String) : Except ColorFault (Int × Int × Int) := do
  let digits := text.toList.dropWhile (· = '#')
  let red ← component (digits.take 2)
  let green ← component ((digits.drop 2).take 2)
  let blue ← component ((digits.drop 4).take 2)
  return (red, green, blue)

/-- A part of a color as a byte. -/
def byte (n : Int) : Except ColorFault UInt8 :=
  if 0 ≤ n ∧ n < 256 then .ok (UInt8.ofNat n.toNat) else .error (.notByte n)

/-- Reads a color. -/
def ofText (text : String) : Except ColorFault Color := do
  let (red, green, blue) ← components text
  return ⟨← byte red, ← byte green, ← byte blue⟩

end Color

end ChipEight
