import ChipEight.Binary64.Decimal
import ChipEight.Text.IntegerLiteral

/-!
# Numbers of two kinds

A setting or a time step may be given as an integer of any size, as a truth value, which counts as
one or zero, or as a binary64 number. Numbers of different kinds are compared by their exact
values; arithmetic that involves a binary64 number first turns the other operand into one.

* `Number.lt` and `Number.le` compare exactly;
* `Number.quotient` divides, and rounds the exact quotient of two integers only once;
* `Number.toInt?` gives the whole number towards zero, and `Number.text` the text of a number,
  unless that would be too long.
-/

namespace ChipEight

/-- A number as it may be given. -/
inductive Number where
  | integer (n : Int)
  | truth (b : Bool)
  | real (x : Binary64)
  deriving DecidableEq

/-- Why a computation with numbers has no result. -/
inductive NumberFault where
  /-- A division of integers by zero. -/
  | divisionByZero
  /-- A division by a zero, with a binary64 number involved. -/
  | realDivisionByZero
  /-- The integer is beyond the binary64 numbers. -/
  | tooLarge
  /-- The quotient of two integers is beyond the binary64 numbers. -/
  | quotientTooLarge
  | conversion (cause : ConversionFault)
  /-- The integer has more decimal digits than are written. -/
  | tooManyDigits
  deriving DecidableEq, Repr

/-- The text of a number fault. -/
def NumberFault.message : NumberFault → String
  | divisionByZero => "division by zero"
  | realDivisionByZero => "float division by zero"
  | tooLarge => "int too large to convert to float"
  | quotientTooLarge => "integer division result too large for a float"
  | conversion cause => cause.message
  | tooManyDigits => Text.IntegerLiteral.limitMessage ""

namespace Number

/-- The integer that a number is, if it is not a binary64 number. -/
def integer? : Number → Option Int
  | integer n => some n
  | truth b => some b.toNat
  | real _ => none

/-- A binary64 number if an integer is within their range. -/
def realOfInt (n : Int) : Except NumberFault Binary64 :=
  let x := Binary64.ofInt n
  if x.isFinite then .ok x else .error .tooLarge

/-- The number as a binary64 number. -/
def toReal : Number → Except NumberFault Binary64
  | integer n => realOfInt n
  | truth b => realOfInt b.toNat
  | real x => .ok x

/-- Compares an integer with a binary64 number exactly: whether it is below. -/
def intLtReal (n : Int) : Binary64 → Bool
  | .nan => false
  | .infinity negative => !negative
  | x => n * Binary64.unitsPerOne < x.units

/-- Compares a binary64 number with an integer exactly: whether it is below. -/
def realLtInt (x : Binary64) (n : Int) : Bool :=
  match x with
  | .nan => false
  | .infinity negative => negative
  | x => x.units < n * Binary64.unitsPerOne

/-- Whether one number is below another. -/
def lt (a b : Number) : Bool :=
  match a, b with
  | real x, real y => x.lt y
  | real x, b => realLtInt x (b.integer?.getD 0)
  | a, real y => intLtReal (a.integer?.getD 0) y
  | a, b => a.integer?.getD 0 < b.integer?.getD 0

/-- Whether the number is not a number. -/
def isNan : Number → Bool
  | real .nan => true
  | _ => false

/-- Whether one number is at most another. -/
def le (a b : Number) : Bool :=
  !a.isNan && !b.isNan && !b.lt a

/-- Whether two numbers have the same value. -/
def same (a b : Number) : Bool :=
  a.le b && b.le a

/-- The quotient as a binary64 number. -/
def quotient (a b : Number) : Except NumberFault Binary64 :=
  match a.integer?, b.integer? with
  | some m, some n =>
    if n = 0 then .error .divisionByZero
    else
      let q := Binary64.ofQuotient m n
      if q.isFinite then .ok q else .error .quotientTooLarge
  | _, _ => do
    let x ← a.toReal
    let y ← b.toReal
    if y.isZero then .error .realDivisionByZero else .ok (x.div y)

/-- The product with an integer. -/
def times (a : Number) (n : Int) : Except NumberFault Number :=
  match a with
  | real x => (realOfInt n).map fun y => real (x.mul y)
  | integer m => .ok (integer (m * n))
  | truth b => .ok (integer (b.toNat * n))

/-- The whole number towards zero. -/
def toInt? : Number → Except NumberFault Int
  | real x => x.toInt?.mapError .conversion
  | integer n => .ok n
  | truth b => .ok b.toNat

/-- A number as text. -/
def text : Number → Except NumberFault String
  | integer n =>
    match Text.IntegerLiteral.decimal? n with
    | some digits => .ok digits
    | none => .error .tooManyDigits
  | truth b => .ok (if b then "True" else "False")
  | real x => .ok x.text

end Number

end ChipEight
