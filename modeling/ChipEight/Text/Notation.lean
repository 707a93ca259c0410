import ChipEight.Binary64.Decimal

/-!
# Notations of a number

A ratio of natural numbers as decimal text with a given number of digits: with so many places behind
the point, in scientific form, or in the shorter of both with so many digits in all. The last digit
is rounded to nearest, ties to the even one. A point with nothing behind it is left out unless it is
to be kept, and with it are the zeros at the end of the short form.

* `Notation.fixed`, `Notation.scientific` and `Notation.general` are the three notations.
-/

namespace ChipEight.Text.Notation

/-- Digits before and behind a point. -/
def join (keepPoint : Bool) (whole fraction : List Char) : List Char :=
  whole ++ if fraction.isEmpty && !keepPoint then [] else '.' :: fraction

/-- Digits without the zeros at their end. -/
def dropZeros (digits : List Char) : List Char :=
  (digits.reverse.dropWhile (· == '0')).reverse

/-- The first digits of a ratio, so many of them, and how many of these stand before the point. -/
def significant (count num den : Nat) : List Char × Int :=
  if num = 0 then (List.replicate count '0', 1)
  else
    let point := Binary64.pointOf num den
    let shift : Int := count - point
    let rounded := nearestEven (num * Nat.pow 10 shift.toNat) (den * Nat.pow 10 (-shift).toNat)
    let digits := Nat.toDigits 10 rounded
    (digits.take count, if count < digits.length then point + 1 else point)

/-- A ratio with so many places behind the point. -/
def fixed (places : Nat) (keepPoint : Bool) (num den : Nat) : List Char :=
  let unit := Nat.pow 10 places
  let rounded := nearestEven (num * unit) den
  let fraction := Nat.toDigits 10 (rounded % unit)
  join keepPoint (Nat.toDigits 10 (rounded / unit))
    (List.replicate (places - fraction.length) '0' ++ fraction.take places)

/-- A ratio in scientific form, with so many places behind the point. -/
def scientific (places : Nat) (keepPoint : Bool) (num den : Nat) : List Char :=
  let (digits, point) := significant (places + 1) num den
  join keepPoint (digits.take 1) (digits.drop 1) ++ Binary64.exponentText (point - 1)

/-- A ratio with so many digits, in scientific form if the point would not stand among them or close
before them. -/
def general (count : Nat) (keepPoint : Bool) (num den : Nat) : List Char :=
  let count := max 1 count
  let (digits, point) := significant count num den
  let trim (fraction : List Char) := if keepPoint then fraction else dropZeros fraction
  if -4 < point ∧ point ≤ count then
    let zeros := List.replicate (-point).toNat '0'
    let whole := digits.take point.toNat
    join keepPoint (if whole.isEmpty then ['0'] else whole)
      (trim (zeros ++ digits.drop point.toNat))
  else
    join keepPoint (digits.take 1) (trim (digits.drop 1)) ++ Binary64.exponentText (point - 1)

end ChipEight.Text.Notation
