import ChipEight.Binary64.Basic

/-!
# Arithmetic on binary64 numbers

Every operation computes the exact result in units and rounds it once, except the remainder, which
is exact. Infinities and numbers that are not numbers follow the rules of the format.

* `add`, `sub`, `mul` and `div` round the exact sum, difference, product and quotient;
* `divMod` splits a number into a whole quotient, rounded downwards, and a remainder that has the
  sign of the divisor;
* `toInt?` and `roundInt?` give the whole number towards zero and the nearest one.
-/

namespace ChipEight

/-- Why a number is no whole number. -/
inductive ConversionFault where
  | notANumber
  | infinite
  deriving DecidableEq, Repr

/-- The text of a conversion fault. -/
def ConversionFault.message : ConversionFault → String
  | notANumber => "cannot convert float NaN to integer"
  | infinite => "cannot convert float infinity to integer"

namespace Binary64

/-- The nearest number to a whole number of units; a zero takes the given sign. -/
def ofUnits (zeroSign : Bool) (u : Int) : Binary64 :=
  if u = 0 then zero zeroSign else ofRatio (u < 0) u.natAbs 1

/-- The nearest number to an integer. -/
def ofInt (n : Int) : Binary64 :=
  ofRatio (n < 0) (n.natAbs * unitsPerOne) 1

/-- The nearest number to a quotient of integers, of which the second is not zero. -/
def ofQuotient (a b : Int) : Binary64 :=
  ofRatio ((a < 0) != (b < 0)) (a.natAbs * unitsPerOne) b.natAbs

/-- The negative of a number. -/
def neg (x : Binary64) : Binary64 :=
  x.withSign !x.isNegative

/-- The sum. -/
def add : Binary64 → Binary64 → Binary64
  | nan, _ => nan
  | _, nan => nan
  | infinity s, infinity t => if s = t then infinity s else nan
  | infinity s, _ => infinity s
  | _, infinity t => infinity t
  | x, y => ofUnits (x.isNegative && y.isNegative) (x.units + y.units)

/-- The difference. -/
def sub (x y : Binary64) : Binary64 :=
  x.add y.neg

/-- The product. -/
def mul (x y : Binary64) : Binary64 :=
  let negative := x.isNegative != y.isNegative
  match x, y with
  | nan, _ => nan
  | _, nan => nan
  | infinity _, y => if y.isZero then nan else infinity negative
  | x, infinity _ => if x.isZero then nan else infinity negative
  | x, y => ofRatio negative (x.units.natAbs * y.units.natAbs) unitsPerOne

/-- The quotient. -/
def div (x y : Binary64) : Binary64 :=
  let negative := x.isNegative != y.isNegative
  match x, y with
  | nan, _ => nan
  | _, nan => nan
  | infinity _, infinity _ => nan
  | infinity _, _ => infinity negative
  | _, infinity _ => zero negative
  | x, y =>
    if y.isZero then (if x.isZero then nan else infinity negative)
    else ofRatio negative (x.units.natAbs * unitsPerOne) y.units.natAbs

/-- The remainder of a division towards zero, with the sign of the dividend. -/
def rem (x y : Binary64) : Binary64 :=
  match x, y with
  | finite .., finite .. =>
    if y.isZero then nan
    else ofUnits x.isNegative (x.units.tmod y.units)
  | finite .., infinity _ => x
  | _, _ => nan

/-- The greatest whole number that is not above a finite number. -/
def floorInt (x : Binary64) : Int :=
  x.units / unitsPerOne

/-- The greatest whole number that is not above, as a number of the format. -/
def floor (x : Binary64) : Binary64 :=
  if x.isFinite then ofInt x.floorInt else x

/-- Whether one number is below another; never if one of them is not a number. -/
def lt : Binary64 → Binary64 → Bool
  | nan, _ => false
  | _, nan => false
  | infinity s, infinity t => s && !t
  | infinity s, _ => s
  | _, infinity t => !t
  | x, y => x.units < y.units

/-- The number that is half of one. -/
def half : Binary64 := ofRatio false (unitsPerOne / 2) 1

/-- The number one. -/
def one : Binary64 := ofInt 1

/-- Whole quotient and remainder of a division by a number that is not zero. The quotient is
rounded downwards and the remainder has the sign of the divisor. -/
def divMod (x y : Binary64) : Binary64 × Binary64 :=
  let r := x.rem y
  let d := (x.sub r).div y
  let adjusted := !r.isZero && y.isNegative != r.isNegative
  let d := if adjusted then d.sub one else d
  let r := if r.isZero then zero y.isNegative else if adjusted then r.add y else r
  let q :=
    if d.isZero then zero (x.div y).isNegative
    else if half.lt (d.sub d.floor) then d.floor.add one
    else d.floor
  (q, r)

/-- The whole number that is left when the places after the point are dropped. -/
def toInt? : Binary64 → Except ConversionFault Int
  | nan => .error .notANumber
  | infinity _ => .error .infinite
  | x => .ok (x.units.tdiv unitsPerOne)

/-- The nearest whole number; a tie goes to the even one. -/
def roundInt? : Binary64 → Except ConversionFault Int
  | nan => .error .notANumber
  | infinity _ => .error .infinite
  | x =>
    let n : Nat := nearestEven x.units.natAbs unitsPerOne
    .ok (if x.isNegative then -n else n)

end Binary64

end ChipEight
