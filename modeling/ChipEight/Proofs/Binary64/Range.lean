import ChipEight.Proofs.Binary64.Rounding

/-!
# Operations within the range of the format

An operation on finite numbers is infinite only if its exact result is out of range, and where that begins
is known exactly: `isFinite_ofInt`, `isFinite_ofQuotient` and `isFinite_div` say so for integers and for
quotients.

Most of what is computed with are amounts, finite numbers without a sign.  Their sum is the rounded one
(`Amount.add`).  An amount that is divided into whole parts leaves an amount below the divisor
(`Amount.rest`), and the whole quotient is an integer unless the quotient that it is made of is out of
range (`Amount.toInt?_divMod`).
-/

namespace ChipEight

namespace Binary64

variable {x y : Binary64}

/-- There is a greatest finite number. -/
theorem natAbs_units_le (x : Binary64) : x.units.natAbs ≤ (2 ^ 53 - 1) <<< topPlace := by
  cases x with
  | nan | infinity => exact Nat.zero_le _
  | finite negative m k canonical =>
    have hm : m < 2 ^ 53 := canonical.1
    have hk : k ≤ topPlace := canonical.2.1
    rw [natAbs_units, Nat.shiftLeft_eq, Nat.shiftLeft_eq]
    exact Nat.mul_le_mul (by omega) (Nat.pow_le_pow_right (by decide) hk)

/-- It is so far from the end of the range that one more makes no difference. -/
theorem natAbs_units_room (x : Binary64) : x.units.natAbs + unitsPerOne < beyond * unitsPerOne :=
  Nat.lt_of_le_of_lt (Nat.add_le_add_right x.natAbs_units_le unitsPerOne) (by decide +kernel)

theorem units_ne_zero (hfinite : x.isFinite = true) (hzero : x.isZero = false) : x.units ≠ 0 := by
  cases x with
  | nan | infinity => cases hfinite
  | finite negative m k canonical =>
    have hm : m ≠ 0 := by simpa [isZero] using hzero
    have hmagnitude := natAbs_units negative m k canonical
    have hpos := shiftLeft_pos (Nat.pos_of_ne_zero hm) k
    omega

theorem units_of_isZero (h : x.isZero = true) : x.units = 0 := by
  cases x with
  | nan | infinity => rfl
  | finite negative m k canonical =>
    have hm : m = 0 := of_decide_eq_true h
    subst hm
    have hmagnitude := natAbs_units negative 0 k canonical
    rw [Nat.zero_shiftLeft] at hmagnitude
    omega

theorem units_nonpos (h : x.isNegative = true) : x.units ≤ 0 := by
  cases x with
  | nan | infinity => exact Int.le_refl 0
  | finite negative m k canonical =>
    have hsign : negative = true := h
    rw [hsign]
    exact Int.neg_nonpos_of_nonneg (Int.natCast_nonneg (m <<< k))

/-- Without signs it makes no difference which numbers are compared. -/
theorem natAbs_lt_mul_natAbs {a b : Int} (ha : 0 ≤ a) (hb : 0 ≤ b) (c : Nat) :
    a.natAbs < c * b.natAbs ↔ a < c * b := by
  rw [← Int.ofNat_lt, Int.natCast_mul, Int.natAbs_of_nonneg ha, Int.natAbs_of_nonneg hb]

/-! ### Integers and quotients -/

/-- Integers of at most fifty-three digits are not rounded. -/
theorem units_ofInt {m : Nat} (hm : m < 2 ^ 53) :
    (ofInt m).isFinite = true ∧ (ofInt m).units = m * unitsPerOne := by
  have hunits : m <<< 1074 = m * unitsPerOne := by
    rw [Nat.shiftLeft_eq, unitsPerOne, Nat.one_shiftLeft]
  have hlt : m < beyond := Nat.lt_trans hm (by decide +kernel)
  have hfinite : (ofInt m).isFinite = true := by
    unfold ofInt
    rw [isFinite_ofRatio_iff Nat.one_pos, Nat.mul_one, Int.natAbs_natCast]
    exact Nat.mul_lt_mul_of_pos_right hlt (by decide +kernel)
  have hnonneg := units_nonneg (isNegative_ofInt (Int.natCast_nonneg m))
  have hexact : nearestUnits (m * unitsPerOne) 1 = m * unitsPerOne := by
    rw [← hunits]
    exact Nat.le_antisymm (nearestUnits_le Nat.one_pos hm (by rw [Nat.mul_one]))
      (le_nearestUnits Nat.one_pos hm (by rw [Nat.mul_one]))
  have hmagnitude : (ofInt m).units.natAbs = m * unitsPerOne := by
    rw [← hexact]
    unfold ofInt at hfinite ⊢
    rw [Int.natAbs_natCast] at hfinite ⊢
    exact natAbs_units_ofRatio Nat.one_pos hfinite
  refine ⟨hfinite, ?_⟩
  rw [← Int.natAbs_of_nonneg hnonneg, hmagnitude, Int.natCast_mul]

theorem isFinite_ofInt (n : Int) : (ofInt n).isFinite = true ↔ n.natAbs < beyond := by
  unfold ofInt
  rw [isFinite_ofRatio_iff Nat.one_pos, Nat.mul_one, Nat.mul_lt_mul_right (by decide +kernel)]

theorem isFinite_ofQuotient (a : Int) {b : Int} (hb : b ≠ 0) :
    (ofQuotient a b).isFinite = true ↔ a.natAbs < beyond * b.natAbs := by
  unfold ofQuotient
  rw [isFinite_ofRatio_iff (Int.natAbs_pos.mpr hb), Nat.mul_right_comm,
    Nat.mul_lt_mul_right (by decide +kernel)]

theorem isFinite_div (hx : x.isFinite = true) (hy : y.isFinite = true) (hzero : y.isZero = false) :
    (x.div y).isFinite = true ↔ x.units.natAbs < beyond * y.units.natAbs := by
  have hpos := Int.natAbs_pos.mpr (units_ne_zero hy hzero)
  cases x with
  | nan | infinity => cases hx
  | finite =>
    cases y with
    | nan | infinity => cases hy
    | finite =>
      unfold div
      dsimp only
      rw [if_neg (by simp [hzero]), isFinite_ofRatio_iff hpos, Nat.mul_right_comm,
        Nat.mul_lt_mul_right (by decide +kernel)]

theorem div_nan (x : Binary64) : x.div nan = nan := by
  cases x <;> rfl

theorem isFinite_div_infinity (hx : x.isFinite = true) (negative : Bool) :
    (x.div (infinity negative)).isFinite = true := by
  cases x with
  | nan | infinity => cases hx
  | finite => rfl

/-- A quotient of finite numbers is a number. -/
theorem div_of_not_finite (hx : x.isFinite = true) (hy : y.isFinite = true) (hzero : y.isZero = false)
    (h : (x.div y).isFinite = false) : x.div y = infinity (x.isNegative != y.isNegative) := by
  have hpos := Int.natAbs_pos.mpr (units_ne_zero hy hzero)
  cases x with
  | nan | infinity => cases hx
  | finite =>
    cases y with
    | nan | infinity => cases hy
    | finite =>
      unfold div at h ⊢
      dsimp only at h ⊢
      rw [if_neg (by simp [hzero])] at h ⊢
      exact ofRatio_of_not_finite hpos h

/-- What can be made an integer is what is finite. -/
theorem exists_toInt? (h : x.isFinite = true) : ∃ n, x.toInt? = .ok n := by
  cases x with
  | nan | infinity => cases h
  | finite => exact ⟨_, rfl⟩

theorem exists_roundInt?_iff : (∃ n, x.roundInt? = .ok n) ↔ x.isFinite = true := by
  cases x with
  | nan | infinity => simp [roundInt?, isFinite]
  | finite => exact ⟨fun _ => rfl, fun _ => ⟨_, rfl⟩⟩

/-- From zero to an integer, the whole part of a number is too. -/
theorem toInt?_of_units (hfinite : x.isFinite = true) (hlow : 0 ≤ x.units) {m : Nat}
    (hhigh : x.units ≤ m * unitsPerOne) : ∃ n, x.toInt? = .ok n ∧ 0 ≤ n ∧ n ≤ m := by
  have hone : (0 : Int) < unitsPerOne := by decide +kernel
  cases x with
  | nan | infinity => cases hfinite
  | finite =>
    refine ⟨_, rfl, Int.tdiv_nonneg hlow (Int.le_of_lt hone), ?_⟩
    rw [Int.tdiv_eq_ediv_of_nonneg hlow]
    exact Int.ediv_le_of_le_mul hone hhigh

/-- An integer of at most fifty-three digits is a factor that is exact. -/
theorem mul_ofInt (hx : x.isFinite = true) {m : Nat} (hm : m < 2 ^ 53) :
    x.mul (ofInt m) = ofRatio x.isNegative (x.units.natAbs * (m * unitsPerOne)) unitsPerOne := by
  obtain ⟨hfinite, hunits⟩ := units_ofInt hm
  have hsign := isNegative_ofInt (Int.natCast_nonneg m)
  have hmagnitude : (ofInt m).units.natAbs = m * unitsPerOne := by omega
  rw [← hmagnitude]
  generalize ofInt m = y at hfinite hsign ⊢
  cases x with
  | nan | infinity => cases hx
  | finite =>
    cases y with
    | nan | infinity => cases hfinite
    | finite negative =>
      have hunsigned : negative = false := hsign
      subst hunsigned
      unfold mul
      dsimp only [isNegative]
      rw [Bool.bne_false]

/-- **A fraction of an integer** lies between zero and the integer. -/
theorem units_mul_ofInt (hx : x.isFinite = true) (hlow : 0 ≤ x.units) (hhigh : x.units ≤ unitsPerOne)
    {m : Nat} (hm : m < 2 ^ 53) :
    (x.mul (ofInt m)).isFinite = true ∧ 0 ≤ (x.mul (ofInt m)).units ∧
      (x.mul (ofInt m)).units ≤ m * unitsPerOne := by
  have hone : 0 < unitsPerOne := by decide +kernel
  have hlt : m < beyond := Nat.lt_trans hm (by decide +kernel)
  have hshift : m <<< 1074 = m * unitsPerOne := by
    rw [Nat.shiftLeft_eq, unitsPerOne, Nat.one_shiftLeft]
  have hle : x.units.natAbs * (m * unitsPerOne) ≤ m * unitsPerOne * unitsPerOne := by
    rw [Nat.mul_comm]
    exact Nat.mul_le_mul_left _ (by omega)
  rw [mul_ofInt hx hm]
  have hfinite : (ofRatio x.isNegative (x.units.natAbs * (m * unitsPerOne)) unitsPerOne).isFinite = true := by
    rw [isFinite_ofRatio_iff hone]
    refine Nat.lt_of_le_of_lt hle ?_
    rw [Nat.mul_assoc, Nat.mul_assoc]
    exact Nat.mul_lt_mul_of_pos_right hlt (Nat.mul_pos hone hone)
  have hbound {n k : Nat} (hn : n < 2 ^ 53)
      (h : x.units.natAbs * (m * unitsPerOne) ≤ n <<< k * unitsPerOne) :
      (ofRatio x.isNegative (x.units.natAbs * (m * unitsPerOne)) unitsPerOne).units.natAbs ≤ n <<< k := by
    rw [natAbs_units_ofRatio hone hfinite]
    exact nearestUnits_le hone hn h
  have hupper := hbound hm (by rwa [hshift])
  refine ⟨hfinite, ?_, ?_⟩
  · cases hsign : x.isNegative with
    | false => exact units_nonneg (by rw [isNegative_ofRatio])
    | true =>
      -- A negative zero, which stays one.
      have hnonpos := units_nonpos hsign
      have hzero : x.units.natAbs = 0 := by omega
      have hnone := hbound (n := 0) (k := 0) (by decide) (by rw [hzero, Nat.zero_mul]; exact Nat.zero_le _)
      rw [hsign, Nat.zero_shiftLeft, Nat.le_zero, Int.natAbs_eq_zero] at hnone
      exact Int.le_of_eq hnone.symm
  · rw [hshift] at hupper
    rw [← Int.natCast_mul]
    exact Int.le_trans Int.le_natAbs (Int.ofNat_le.mpr hupper)

/-! ### Amounts -/

/-- A finite number without a sign. -/
structure Amount (x : Binary64) : Prop where
  finite : x.isFinite = true
  unsigned : x.isNegative = false

namespace Amount

theorem units_nonneg (h : x.Amount) : 0 ≤ x.units :=
  Binary64.units_nonneg h.unsigned

theorem units_pos (h : x.Amount) (hzero : x.isZero = false) : 0 < x.units := by
  have hnonneg := h.units_nonneg
  have hne := units_ne_zero h.finite hzero
  omega

theorem ofUnits {u : Nat} (h : u < beyond * unitsPerOne) :
    (ofUnits false u).Amount ∧ (Binary64.ofUnits false u).units = nearestUnits u 1 := by
  have hunsigned := isNegative_ofUnits (Int.natCast_nonneg u)
  have hnonneg := Binary64.units_nonneg hunsigned
  unfold Binary64.ofUnits at hunsigned hnonneg ⊢
  split
  next hzero =>
    obtain rfl := Int.ofNat_eq_zero.mp hzero
    exact ⟨⟨rfl, rfl⟩, by decide +kernel⟩
  next hne =>
    rw [if_neg hne] at hunsigned hnonneg
    have hfinite : (ofRatio (decide ((u : Int) < 0)) (u : Int).natAbs 1).isFinite = true :=
      (isFinite_ofRatio_iff Nat.one_pos).mpr (by simpa using h)
    have hmagnitude := natAbs_units_ofRatio Nat.one_pos hfinite
    refine ⟨⟨hfinite, hunsigned⟩, ?_⟩
    rw [Int.natAbs_natCast] at hmagnitude hnonneg ⊢
    omega

/-- **Sums and differences** that are not below zero and within range are rounded. -/
theorem add (hx : x.Amount) (hy : y.isFinite = true) {u : Nat} (hu : x.units + y.units = u)
    (hroom : u < beyond * unitsPerOne) : (x.add y).Amount ∧ (x.add y).units = nearestUnits u 1 := by
  have hsum : x.add y = Binary64.ofUnits (x.isNegative && y.isNegative) (x.units + y.units) := by
    obtain ⟨hfinite, -⟩ := hx
    cases x with
    | nan | infinity => cases hfinite
    | finite =>
      cases y with
      | nan | infinity => cases hy
      | finite => rfl
  rw [hsum, hx.unsigned, hu, Bool.false_and]
  exact Amount.ofUnits hroom

theorem sub (hx : x.Amount) (hy : y.isFinite = true) {u : Nat} (hu : x.units - y.units = u)
    (hroom : u < beyond * unitsPerOne) : (x.sub y).Amount ∧ (x.sub y).units = nearestUnits u 1 := by
  have hneg : y.neg.isFinite = true := by
    cases y with
    | nan | infinity => cases hy
    | finite => rfl
  exact hx.add hneg (by rw [units_neg]; omega) hroom

/-- What is left of an amount is an amount below the divisor. -/
theorem rem (hx : x.Amount) (hy : y.Amount) (hzero : y.isZero = false) :
    (x.rem y).Amount ∧ (x.rem y).units < y.units ∧ (x.rem y).units ≤ x.units := by
  obtain ⟨hfinite, hunits⟩ := rem_exact hx.finite hy.finite hzero
  have hnonneg := hx.units_nonneg
  have hrest := Int.tmod_nonneg y.units hnonneg
  have hmagnitude := Int.natAbs_tmod x.units y.units
  have hle := Nat.mod_le x.units.natAbs y.units.natAbs
  refine ⟨⟨hfinite, isNegative_rem hx.unsigned⟩, ?_, ?_⟩
  · rw [hunits]
    exact Int.tmod_lt_of_pos x.units (hy.units_pos hzero)
  · omega

/-- **The rest.** -/
theorem rest (hx : x.Amount) (hy : y.Amount) (hzero : y.isZero = false) :
    (x.divMod y).2.Amount ∧ (x.divMod y).2.units < y.units := by
  obtain ⟨hrem, hlt, -⟩ := hx.rem hy hzero
  rw [divMod_eq hx.unsigned hy.unsigned]
  dsimp only
  split
  · exact ⟨⟨rfl, rfl⟩, hy.units_pos hzero⟩
  · exact ⟨hrem, hlt⟩

/-- An amount without its rest is an amount that is no greater. -/
theorem sub_rem (hx : x.Amount) (hy : y.Amount) (hzero : y.isZero = false) :
    (x.sub (x.rem y)).Amount ∧
      (x.sub (x.rem y)).units = nearestUnits (x.units - (x.rem y).units).toNat 1 := by
  obtain ⟨hrem, -, hle⟩ := hx.rem hy hzero
  have hnonneg := hrem.units_nonneg
  have hroom := x.natAbs_units_room
  exact hx.sub hrem.finite (Int.toNat_of_nonneg (by omega)).symm (by omega)

theorem floor (h : x.Amount) : x.floor.Amount := by
  refine ⟨?_, isNegative_floor h.unsigned⟩
  have hnonneg := h.units_nonneg
  have hroom := x.natAbs_units_room
  have hpos : (0 : Int) < unitsPerOne := by decide +kernel
  have hwhole : 0 ≤ x.floorInt := Int.ediv_nonneg hnonneg (Int.le_of_lt hpos)
  have hlt : x.floorInt < beyond := by
    refine Int.ediv_lt_of_lt_mul hpos ?_
    rw [← Int.natCast_mul]
    omega
  unfold Binary64.floor
  rw [if_pos h.finite, isFinite_ofInt]
  omega

/-- **The whole quotient** is an integer if the quotient that it is made of is within range, and infinite
otherwise. -/
theorem toInt?_divMod (hx : x.Amount) (hy : y.Amount) (hzero : y.isZero = false) :
    (((x.sub (x.rem y)).div y).isFinite = true → ∃ n, (x.divMod y).1.toInt? = .ok n) ∧
      (((x.sub (x.rem y)).div y).isFinite = false → (x.divMod y).1.toInt? = .error .infinite) := by
  have hsub := (hx.sub_rem hy hzero).1
  have hsign := hsub.unsigned.trans hy.unsigned.symm
  rw [divMod_eq hx.unsigned hy.unsigned]
  dsimp only
  constructor
  · intro hfinite
    have hd : ((x.sub (x.rem y)).div y).Amount := ⟨hfinite, isNegative_div hsign⟩
    refine exists_toInt? ?_
    split
    · rfl
    split
    · have hone : one.isFinite = true ∧ one.units = unitsPerOne := by decide +kernel
      have hnonneg := hd.floor.units_nonneg
      have hroom := ((x.sub (x.rem y)).div y).floor.natAbs_units_room
      exact (hd.floor.add hone.1 (u := ((x.sub (x.rem y)).div y).floor.units.natAbs + unitsPerOne)
        (by rw [hone.2]; omega) hroom).1.finite
    · exact hd.floor.finite
  · intro hinfinite
    have hd := div_of_not_finite hsub.finite hy.finite hzero hinfinite
    rw [hsign, bne_self_eq_false] at hd
    have hlt : half.lt (infinity false |>.sub (infinity false)) = false := by decide +kernel
    simp only [hd, isZero, Binary64.floor, isFinite, Bool.false_eq_true, if_false, hlt, toInt?]

end Amount

end Binary64

end ChipEight
