import ChipEight.Binary64.Arithmetic

/-!
# Dividing what is not negative

The operations of `Binary64` round, so a sign of the exact result is worth something only if the
rounded one keeps it.  `isNegative_ofRatio` says that rounding always does, also where the result is
a zero or is too large.

The remainder is more than that: it is exact.  The exact remainder of two finite numbers is a multiple
of the smaller of their last places and needs no more digits than they have, so it is a number of the
format itself (`units_rem`).  Hence a number that is not negative is never below its remainder, the
quotient that `divMod` makes of their difference is not negative, and neither is what is left
(`toInt?_divMod_nonneg` and `isNegative_divMod`).
-/

namespace ChipEight

namespace Binary64

@[simp] theorem isNegative_ofParts (negative : Bool) (m k : Nat) :
    (ofParts negative m k).isNegative = negative := by
  unfold ofParts
  split <;> rfl

/-- Rounding keeps the sign. -/
@[simp] theorem isNegative_ofRatio (negative : Bool) (num den : Nat) :
    (ofRatio negative num den).isNegative = negative := by
  simp only [ofRatio]
  split <;> simp

/-- A sum or a difference that is not below zero, and is no negative zero, is not negative. -/
theorem isNegative_ofUnits {u : Int} (h : 0 ≤ u) : (ofUnits false u).isNegative = false := by
  unfold ofUnits
  split
  · rfl
  · rw [isNegative_ofRatio]
    exact decide_eq_false (by omega)

theorem isNegative_ofInt {n : Int} (h : 0 ≤ n) : (ofInt n).isNegative = false := by
  unfold ofInt
  rw [isNegative_ofRatio]
  exact decide_eq_false (by omega)

/-- What is not negative is not below zero. -/
theorem units_nonneg {x : Binary64} (h : x.isNegative = false) : 0 ≤ x.units := by
  cases x with
  | nan | infinity => exact Int.le_refl 0
  | finite negative m k canonical =>
    have hsign : negative = false := h
    rw [hsign]
    exact Int.natCast_nonneg (m <<< k)

/-- A number that is at least zero, if it can be compared at all; it may be a negative zero. -/
structure AtLeastZero (x : Binary64) : Prop where
  bounded : x ≠ infinity true
  units : 0 ≤ x.units

/-- Adding something that is at least zero to what is not negative leaves it so. -/
theorem isNegative_add {x y : Binary64} (hx : x.isNegative = false) (hy : y.AtLeastZero) :
    (x.add y).isNegative = false := by
  have hunits := units_nonneg hx
  cases x with
  | nan => rfl
  | infinity s =>
    have hs : s = false := hx
    subst hs
    cases y with
    | nan => rfl
    | infinity t => cases t <;> rfl
    | finite => rfl
  | finite negative m k canonical =>
    have hsign : negative = false := hx
    subst hsign
    cases y with
    | nan => rfl
    | infinity t =>
      cases t with
      | false => rfl
      | true => exact absurd rfl hy.bounded
    | finite => exact isNegative_ofUnits (Int.add_nonneg hunits hy.units)

/-- The quotient of numbers of one sign is not negative. -/
theorem isNegative_div {x y : Binary64} (h : x.isNegative = y.isNegative) :
    (x.div y).isNegative = false := by
  have hsign : (x.isNegative != y.isNegative) = false := by simp [h]
  unfold div
  rw [hsign]
  cases x <;> cases y <;> try rfl
  dsimp only
  split
  · split <;> rfl
  · exact isNegative_ofRatio ..

theorem isNegative_floor {x : Binary64} (h : x.isNegative = false) : x.floor.isNegative = false := by
  unfold floor
  split
  · exact isNegative_ofInt (Int.ediv_nonneg (units_nonneg h) (Int.natCast_nonneg _))
  · exact h

/-- The whole part of what is not negative is not below zero. -/
theorem toInt?_nonneg {x : Binary64} (h : x.isNegative = false) {n : Int} (hn : x.toInt? = .ok n) :
    0 ≤ n := by
  cases x with
  | nan | infinity => cases hn
  | finite negative m k canonical =>
    cases hn
    exact Int.tdiv_nonneg (units_nonneg h) (Int.natCast_nonneg _)

/-- **At most fifty-three digits and an exponent are a number of the format.** -/
theorem exists_canonical (r k : Nat) (hr : r < 0x20000000000000) (hk : k ≤ 2045) :
    ∃ m j, Canonical m j ∧ m <<< j = r <<< k := by
  induction k generalizing r with
  | zero => exact ⟨r, 0, ⟨hr, by omega, .inl rfl⟩, rfl⟩
  | succ k ih =>
    by_cases hfull : 0x10000000000000 ≤ r
    · exact ⟨r, k + 1, ⟨hr, hk, .inr hfull⟩, rfl⟩
    · obtain ⟨m, j, hcanonical, hsame⟩ := ih (2 * r) (by omega) (by omega)
      refine ⟨m, j, hcanonical, hsame.trans ?_⟩
      rw [Nat.shiftLeft_succ, Nat.shiftLeft_eq, Nat.shiftLeft_eq, Nat.mul_assoc]

/-- So it is its own nearest number. -/
theorem ofUnits_exact {zeroSign : Bool} {u : Int} {r k : Nat} (hr : r < 0x20000000000000)
    (hk : k ≤ 2045) (hu : u.natAbs = r <<< k) :
    (ofUnits zeroSign u).isFinite = true ∧ (ofUnits zeroSign u).units = u := by
  obtain ⟨m, j, hcanonical, hsame⟩ := exists_canonical r k hr hk
  have hmagnitude : u.natAbs = m <<< j := hu.trans hsame.symm
  unfold ofUnits
  split
  next hzero =>
    refine ⟨rfl, ?_⟩
    rw [hzero]
    cases zeroSign <;> rfl
  next hne =>
    rw [hmagnitude, ofRatio_units _ m j hcanonical]
    refine ⟨rfl, ?_⟩
    by_cases hsign : u < 0
    · simp only [units, hsign, decide_true, if_true, ← hmagnitude]
      omega
    · simp only [units, hsign, decide_false, Bool.false_eq_true, if_false, ← hmagnitude]
      omega

theorem natAbs_units (negative : Bool) (m k : Nat) (h : Canonical m k) :
    (finite negative m k h).units.natAbs = m <<< k := by
  cases negative with
  | false => exact Int.natAbs_natCast _
  | true => exact (Int.natAbs_neg _).trans (Int.natAbs_natCast _)

/-- The remainder of two multiples of powers of two is a multiple of the lower power, and has no more
digits than they have. -/
theorem exists_shiftLeft_mod {m k n j : Nat} (hm : Canonical m k) (hn : Canonical n j) (hpos : 0 < n) :
    ∃ r i, r < 0x20000000000000 ∧ i ≤ 2045 ∧ m <<< k % n <<< j = r <<< i := by
  simp only [Nat.shiftLeft_eq]
  rcases Nat.le_total k j with hkj | hjk
  · refine ⟨m % (n * 2 ^ (j - k)), k, ?_, hm.2.1, ?_⟩
    · exact Nat.lt_of_le_of_lt (Nat.mod_le _ _) hm.1
    · rw [← Nat.mul_mod_mul_right, Nat.mul_assoc, ← Nat.pow_add, Nat.sub_add_cancel hkj]
  · refine ⟨m * 2 ^ (k - j) % n, j, ?_, hn.2.1, ?_⟩
    · exact Nat.lt_trans (Nat.mod_lt _ hpos) hn.1
    · rw [← Nat.mul_mod_mul_right, Nat.mul_assoc, ← Nat.pow_add, Nat.sub_add_cancel hjk]

/-- **The remainder is exact.** -/
theorem rem_exact {x y : Binary64} (hx : x.isFinite = true) (hy : y.isFinite = true)
    (hzero : y.isZero = false) :
    (x.rem y).isFinite = true ∧ (x.rem y).units = x.units.tmod y.units := by
  cases x with
  | nan | infinity => cases hx
  | finite s m k hm =>
    cases y with
    | nan | infinity => cases hy
    | finite t n j hn =>
      have hpos : 0 < n := by
        have hne : n ≠ 0 := by simpa [isZero] using hzero
        omega
      obtain ⟨r, i, hr, hi, hmod⟩ := exists_shiftLeft_mod hm hn hpos
      have habs : ((finite s m k hm).units.tmod (finite t n j hn).units).natAbs = r <<< i := by
        rw [Int.natAbs_tmod, natAbs_units, natAbs_units, hmod]
      unfold rem
      rw [hzero]
      exact ofUnits_exact hr hi habs

theorem units_neg (x : Binary64) : x.neg.units = -x.units := by
  cases x with
  | nan | infinity => rfl
  | finite negative m k h => cases negative <;> simp [neg, withSign, isNegative, units]

section DivMod

variable {x y : Binary64}

/-- The remainder has the sign of the dividend. -/
theorem isNegative_rem (hx : x.isNegative = false) : (x.rem y).isNegative = false := by
  unfold rem
  split
  · split
    · rfl
    · rw [hx]
      exact isNegative_ofUnits (Int.tmod_nonneg _ (units_nonneg hx))
  · exact hx
  · rfl

/-- What is taken off for the remainder is not more than there is. -/
theorem isNegative_sub_rem (hx : x.isNegative = false) (hfinite : y.isFinite = true)
    (hzero : y.isZero = false) : (x.sub (x.rem y)).isNegative = false := by
  cases x with
  | nan => rfl
  | infinity => rfl
  | finite s m k hm =>
    have hs : s = false := hx
    subst hs
    obtain ⟨hrem, hunits⟩ := rem_exact (x := finite false m k hm) rfl hfinite hzero
    have hnonneg := units_nonneg hx
    have hle : (finite false m k hm).units.tmod y.units ≤ (finite false m k hm).units := by
      have habs := Int.natAbs_tmod (finite false m k hm).units y.units
      have hmod := Nat.mod_le (finite false m k hm).units.natAbs y.units.natAbs
      omega
    have hneg := units_neg ((finite false m k hm).rem y)
    unfold sub
    cases hr : (finite false m k hm).rem y with
    | nan | infinity =>
      rw [hr] at hrem
      cases hrem
    | finite t n j hn =>
      rw [hr] at hunits hneg
      refine isNegative_ofUnits (u := (finite false m k hm).units + (finite t n j hn).neg.units) ?_
      omega

/-- Where nothing is negative, the quotient of a division is that of the exact multiple of the divisor,
rounded to a whole number. -/
theorem divMod_eq (hx : x.isNegative = false) (hy : y.isNegative = false) :
    x.divMod y =
      (let d := (x.sub (x.rem y)).div y
        if d.isZero then zero (x.div y).isNegative
        else if half.lt (d.sub d.floor) then d.floor.add one
        else d.floor,
        if (x.rem y).isZero then zero else x.rem y) := by
  simp only [divMod, hy, isNegative_rem hx, bne_self_eq_false, Bool.and_false, Bool.false_eq_true,
    if_false]

/-- **What is left of a division is not negative.** -/
theorem isNegative_divMod (hx : x.isNegative = false) (hy : y.isNegative = false) :
    (x.divMod y).2.isNegative = false := by
  rw [divMod_eq hx hy]
  dsimp only
  split
  · rfl
  · exact isNegative_rem hx

/-- **Nor is the whole quotient.** -/
theorem toInt?_divMod_nonneg (hx : x.isNegative = false) (hy : y.isNegative = false)
    (hfinite : y.isFinite = true) (hzero : y.isZero = false) {n : Int}
    (hn : (x.divMod y).1.toInt? = .ok n) : 0 ≤ n := by
  have hquotient : ((x.sub (x.rem y)).div y).isNegative = false :=
    isNegative_div ((isNegative_sub_rem hx hfinite hzero).trans hy.symm)
  have hfloor := isNegative_floor hquotient
  have hone : one.AtLeastZero := ⟨by decide +kernel, by decide +kernel⟩
  rw [divMod_eq hx hy] at hn
  dsimp only at hn
  refine toInt?_nonneg ?_ hn
  split
  · exact isNegative_div (hx.trans hy.symm)
  split
  · exact isNegative_add hfloor hone
  · exact hfloor

end DivMod

end Binary64

end ChipEight
