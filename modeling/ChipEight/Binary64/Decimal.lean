import ChipEight.Binary64.Arithmetic

/-!
# Decimal text of binary64 numbers

A decimal is a whole number times a power of ten. Reading rounds its exact value once. Writing
takes the fewest digits that read back as the same number, and of those the nearest to it.

* `Decimal.nearest` is the number nearest to a decimal;
* `shortest` is the decimal to write: if any decimal with so many digits reads back, then one of
  the two that enclose the number does, so only these are tried, for one digit, two digits and so
  on up to seventeen, which always suffice;
* `text` writes a number with a point, or in scientific form if the point would stand far from
  its digits.
-/

namespace ChipEight

/-- The decimal `digits * 10 ^ exponent`. -/
structure Decimal where
  digits : Nat
  exponent : Int
  deriving DecidableEq, Repr

namespace Decimal

/-- The digits, most significant first. -/
def text (d : Decimal) : List Char :=
  Nat.toDigits 10 d.digits

/-- How many digits stand before the point: none or fewer, by the zeros behind the point, if the
decimal is below a tenth. -/
def point (d : Decimal) : Int :=
  d.text.length + d.exponent

/-- The number nearest to a decimal. Decimals far outside the range of the format are infinite or
zero, and their powers of ten are not worked out. -/
def nearest (negative : Bool) (d : Decimal) : Binary64 :=
  if d.digits = 0 ∨ d.point < -400 then .zero negative
  else if 400 < d.point then .infinity negative
  else if 0 ≤ d.exponent then
    .ofRatio negative (d.digits * Nat.pow 10 d.exponent.toNat * Binary64.unitsPerOne) 1
  else .ofRatio negative (d.digits * Binary64.unitsPerOne) (Nat.pow 10 (-d.exponent).toNat)

end Decimal

namespace Binary64

/-- How many digits a positive ratio has before the point; none or fewer, by the zeros behind the
point, if it is below a tenth. -/
def pointOf (num den : Nat) : Int :=
  if den ≤ num then (Nat.toDigits 10 (num / den)).length
  else -((List.range 400).find? fun zeros => den ≤ num * Nat.pow 10 (zeros + 1)).getD 0

/-- The two decimals with some exponent that enclose a ratio, the nearer one first. -/
def enclosing (num den : Nat) (exponent : Int) : List Decimal :=
  let n := num * Nat.pow 10 (-exponent).toNat
  let d := den * Nat.pow 10 exponent.toNat
  let below := n / d
  if nearestEven n d = below then [⟨below, exponent⟩, ⟨below + 1, exponent⟩]
  else [⟨below + 1, exponent⟩, ⟨below, exponent⟩]

/-- The decimal with the fewest digits that reads back as the magnitude of a finite number. -/
def shortest (x : Binary64) : Decimal :=
  let num := x.units.natAbs
  let point := pointOf num unitsPerOne
  let readsBack (d : Decimal) : Bool := d.nearest false = x.withSign false
  let tries := (List.range 17).flatMap fun k => enclosing num unitsPerOne (point - (k + 1 : Nat))
  (tries.find? readsBack).getD ⟨num, 0⟩

/-- Digits with a point among them and at least one digit on each side of it. -/
def positional (digits : List Char) (point : Int) : List Char :=
  if point ≤ 0 then '0' :: '.' :: List.replicate (-point).toNat '0' ++ digits
  else
    let whole := digits.take point.toNat
    let fraction := digits.drop point.toNat
    whole ++ List.replicate (point.toNat - digits.length) '0'
      ++ '.' :: (if fraction.isEmpty then ['0'] else fraction)

/-- An exponent: its mark, its sign, and two digits or more. -/
def exponentText (exponent : Int) : List Char :=
  let magnitude := Nat.toDigits 10 exponent.natAbs
  ['e', if exponent < 0 then '-' else '+'] ++ List.replicate (2 - magnitude.length) '0' ++ magnitude

/-- Digits with a point behind the first of them, and the exponent. -/
def scientific (digits : List Char) (point : Int) : List Char :=
  let fraction := digits.drop 1
  digits.take 1 ++ (if fraction.isEmpty then [] else '.' :: fraction) ++ exponentText (point - 1)

/-- A decimal as text, without zeros at its end. The point stands among the digits or near them,
from three zeros behind the point up to sixteen digits before it; beyond, the form is
scientific. -/
def decimalText (d : Decimal) : List Char :=
  let digits := (d.text.reverse.dropWhile (· == '0')).reverse
  if -4 < d.point ∧ d.point ≤ 16 then positional digits d.point else scientific digits d.point

/-- A number as text: the fewest digits that read back. -/
def text (x : Binary64) : String :=
  let sign := if x.isNegative then "-" else ""
  match x with
  | nan => "nan"
  | infinity _ => sign ++ "inf"
  | x => sign ++ if x.isZero then "0.0" else String.ofList (decimalText x.shortest)

end Binary64

end ChipEight
