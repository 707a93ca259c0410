/-!
# Hexadecimal text

Addresses, instruction words and registers are written in upper-case hexadecimal, padded with
zeros to a least width. A negative number is a minus sign before its magnitude, and the sign
counts towards the width: `-1` in width four is `-001`.

* `Hex.digits` writes a natural number with no padding;
* `Hex.padded` writes an integer in a least width.
-/

namespace ChipEight.Text.Hex

/-- The upper-case digit of a value below sixteen. -/
def digit (d : Nat) : Char :=
  if d < 10 then Char.ofNat (48 + d) else Char.ofNat (55 + d)

/-- The digits of a natural number, most significant first. -/
def digits (n : Nat) : List Char :=
  if n < 16 then [digit n] else digits (n / 16) ++ [digit (n % 16)]
termination_by n
decreasing_by omega

/-- A number below sixteen has one digit. -/
theorem digits_of_lt {n : Nat} (h : n < 16) : digits n = [digit n] := by
  rw [digits, if_pos h]

/-- The last digit of a larger number stands behind those of the sixteenth part. -/
theorem digits_of_ge {n : Nat} (h : 16 ≤ n) :
    digits n = digits (n / 16) ++ [digit (n % 16)] := by
  rw [digits, if_neg (by omega)]

/-- Zeros in front of a text until it is `width` characters long. -/
def zeroFill (width : Nat) (text : List Char) : List Char :=
  List.replicate (width - text.length) '0' ++ text

/-- An integer in at least `width` characters, of which a minus sign is one. -/
def padded (width : Nat) (n : Int) : String :=
  String.ofList <|
    if n < 0 then '-' :: zeroFill (width - 1) (digits n.natAbs)
    else zeroFill width (digits n.natAbs)

end ChipEight.Text.Hex
