/-!
# Binary64 numbers

The numbers of the binary64 format, and the rounding of an exact ratio to one of them.

A finite number is a whole multiple of the least positive one, `2 ^ -1074`. It is held as a
significand of at most 53 bits and an exponent counted from the least one, so its magnitude is
`significand <<< exponent` such units. The significand has all its 53 bits unless the exponent
is zero, which makes the form of every number unique.

* `Binary64.ofRatio` rounds a ratio of units to the nearest number, a tie to the even significand;
* `Binary64.units` is the exact value of a finite number, in units;
* `Binary64.ofBits` and `Binary64.toBits` are the interchange format.
-/

namespace ChipEight

/-- Significand and exponent of a finite number in its unique form. -/
def Binary64.Canonical (significand exponent : Nat) : Prop :=
  significand < 0x20000000000000 ∧ exponent ≤ 2045 ∧ (exponent = 0 ∨ 0x10000000000000 ≤ significand)

instance (m k : Nat) : Decidable (Binary64.Canonical m k) :=
  inferInstanceAs (Decidable (_ ∧ _))

/-- A number of the binary64 format. All that are not a number count as one. -/
inductive Binary64 where
  | nan
  | infinity (negative : Bool)
  | finite (negative : Bool) (significand exponent : Nat)
      (canonical : Binary64.Canonical significand exponent)
  deriving DecidableEq

/-- The nearest natural number to a ratio; a tie goes to the even one. -/
def nearestEven (num den : Nat) : Nat :=
  let q := num / den
  let twice := 2 * (num % den)
  if den < twice ∨ (twice = den ∧ q % 2 = 1) then q + 1 else q

namespace Binary64

/-- Zero with a sign. -/
def zero (negative : Bool := false) : Binary64 :=
  finite negative 0 0 ⟨by decide, by decide, .inl rfl⟩

/-- A finite number from its parts; one that is too large is infinite. -/
def ofParts (negative : Bool) (m k : Nat) : Binary64 :=
  if h : Canonical m k then finite negative m k h else infinity negative

/-- The nearest number to `num / den` units. -/
def ofRatio (negative : Bool) (num den : Nat) : Binary64 :=
  let k := (num / den).log2 - 52
  let m := nearestEven num (den <<< k)
  if m = 0x20000000000000 then ofParts negative 0x10000000000000 (k + 1) else ofParts negative m k

/-- How many units make one. -/
def unitsPerOne : Nat := 1 <<< 1074

/-- The value of a finite number in units; zero for the others. -/
def units : Binary64 → Int
  | finite negative m k _ => if negative then -(m <<< k : Nat) else (m <<< k : Nat)
  | _ => 0

/-- Whether the sign bit is set. -/
def isNegative : Binary64 → Bool
  | nan => false
  | infinity negative => negative
  | finite negative .. => negative

/-- Whether the number is finite. -/
def isFinite : Binary64 → Bool
  | finite .. => true
  | _ => false

/-- Whether the number is zero, of either sign. -/
def isZero : Binary64 → Bool
  | finite _ m _ _ => m == 0
  | _ => false

/-- The same number with another sign. -/
def withSign (negative : Bool) : Binary64 → Binary64
  | nan => nan
  | infinity _ => infinity negative
  | finite _ m k h => finite negative m k h

/-- The sign among the interchange bits. -/
def signBit : Nat := 0x8000000000000000

/-- The bit of a significand that the interchange format leaves out, since the exponent tells
whether it is set. -/
def hiddenBit : Nat := 0x10000000000000

/-- The number with the given interchange bits. -/
def ofBits (bits : Nat) : Binary64 :=
  let negative := bits / signBit % 2 = 1
  let exponent := bits / hiddenBit % 2048
  let fraction := bits % hiddenBit
  if exponent = 2047 then
    if fraction = 0 then infinity negative else nan
  else if exponent = 0 then ofParts negative fraction 0
  else ofParts negative (hiddenBit + fraction) (exponent - 1)

/-- The interchange bits of a number; nothing for one that is not a number, which has many. -/
def toBits? : Binary64 → Option Nat
  | nan => none
  | infinity negative => some (negative.toNat * signBit + 2047 * hiddenBit)
  | finite negative m k _ =>
    let exponent := if m < hiddenBit then 0 else k + 1
    some (negative.toNat * signBit + exponent * hiddenBit + m % hiddenBit)

/-- A ratio that is a whole number is its own nearest number. -/
theorem nearestEven_mul (q : Nat) {den : Nat} (h : 0 < den) : nearestEven (q * den) den = q := by
  simp only [nearestEven, Nat.mul_div_cancel q h, Nat.mul_mod_left]
  rw [if_neg (by omega)]

/-- **Rounding keeps what can be kept.** The magnitude of a finite number, as a ratio of units,
rounds to that number. -/
theorem ofRatio_units (negative : Bool) (m k : Nat) (h : Canonical m k) :
    ofRatio negative (m <<< k) 1 = finite negative m k h := by
  obtain ⟨hm, hk, hn⟩ := h
  rw [Nat.shiftLeft_eq]
  have hlog : (m * 2 ^ k).log2 - 52 = k := by
    rcases hn with rfl | hn
    · rcases Nat.eq_zero_or_pos m with rfl | hpos
      · simp
      · have : (m * 2 ^ 0).log2 < 53 := (Nat.log2_lt (by omega)).2 (by omega)
        omega
    · have hne : m * 2 ^ k ≠ 0 := Nat.ne_of_gt (Nat.mul_pos (by omega) (Nat.two_pow_pos k))
      have hlo : 52 + k ≤ (m * 2 ^ k).log2 := by
        rw [Nat.le_log2 hne, Nat.pow_add]
        exact Nat.mul_le_mul_right _ hn
      have hhi : (m * 2 ^ k).log2 < 53 + k := by
        rw [Nat.log2_lt hne, Nat.pow_add]
        exact Nat.mul_lt_mul_of_pos_right hm (Nat.two_pow_pos k)
      omega
  simp only [ofRatio, Nat.div_one, hlog, Nat.shiftLeft_eq, Nat.one_mul]
  rw [nearestEven_mul m (Nat.two_pow_pos k), if_neg (by omega), ofParts,
    dif_pos ⟨hm, hk, hn⟩]

end Binary64

end ChipEight
