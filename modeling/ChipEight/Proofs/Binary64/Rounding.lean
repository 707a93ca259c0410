import Mathlib.Algebra.Order.Ring.Nat
import ChipEight.Proofs.Binary64.Division

/-!
# Where rounding goes

A ratio of units is rounded at the place of its fifty-third digit, which `Binary64.lastPlace` is, and
`Binary64.nearestUnits` is the whole number of units that this gives, however large.  The format has no
more to say than whether that number is within its range (`Binary64.ofRatio_cases`).

So questions about a rounded result are questions about `nearestUnits`.  Rounding crosses no number of
the format, from below or from above (`nearestUnits_le` and `le_nearestUnits`).  It is out of range from
the middle between the greatest finite number and the next power of two on, since a tie goes to the even
one of these (`isFinite_ofRatio_iff`).  And a change by less than a quarter of the last place of a number
is rounded away (`nearestUnits_near`).
-/

namespace ChipEight

/-! ### The nearest natural number -/

section NearestEven

variable {num den c : Nat}

/-- The nearest natural number is the quotient or the next one. -/
theorem nearestEven_cases (num den : Nat) :
    nearestEven num den = num / den ∧ 2 * (num % den) ≤ den ∨
      nearestEven num den = num / den + 1 ∧ den ≤ 2 * (num % den) := by
  unfold nearestEven
  dsimp only
  split
  · exact .inr ⟨rfl, by omega⟩
  · exact .inl ⟨rfl, by omega⟩

theorem nearestEven_le (hden : 0 < den) (h : num ≤ c * den) : nearestEven num den ≤ c := by
  have hquotient : num / den ≤ c := Nat.div_le_of_le_mul (by rwa [Nat.mul_comm])
  have hsplit := Nat.div_add_mod' num den
  rcases nearestEven_cases num den with ⟨hdown, -⟩ | ⟨hup, hover⟩
  · omega
  · have hne : num / den ≠ c := by
      rintro rfl
      omega
    omega

theorem le_nearestEven (hden : 0 < den) (h : c * den ≤ num) : c ≤ nearestEven num den := by
  have hquotient : c ≤ num / den := (Nat.le_div_iff_mul_le hden).mpr h
  rcases nearestEven_cases num den with ⟨hdown, -⟩ | ⟨hup, -⟩ <;> omega

/-- Only a whole number is nearer than half of one. -/
theorem nearestEven_eq (hbelow : 2 * (c * den) < 2 * num + den) (habove : 2 * num < 2 * (c * den) + den) :
    nearestEven num den = c := by
  have hden : 0 < den := by omega
  have hsplit := Nat.div_add_mod' num den
  have hrest := Nat.mod_lt num hden
  have hlow : num / den ≤ c := by
    by_contra hgreater
    have := Nat.mul_le_mul_right den (Nat.lt_of_not_le hgreater)
    rw [Nat.succ_mul] at this
    omega
  have hhigh : c ≤ num / den + 1 := by
    by_contra hless
    have := Nat.mul_le_mul_right den (Nat.lt_of_not_le hless)
    rw [Nat.succ_mul, Nat.succ_mul] at this
    omega
  obtain rfl | rfl : c = num / den ∨ c = num / den + 1 := by omega
  · rcases nearestEven_cases num den with ⟨hdown, -⟩ | ⟨-, hover⟩ <;> omega
  · rw [Nat.succ_mul (num / den)] at hbelow habove
    rcases nearestEven_cases num den with ⟨-, hunder⟩ | ⟨hup, -⟩ <;> omega

/-- Below an even number from half of one before it. -/
theorem nearestEven_lt_iff (hden : 0 < den) (heven : c % 2 = 0) :
    nearestEven num den < c ↔ 2 * num + den < 2 * (c * den) := by
  have hsplit := Nat.div_add_mod' num den
  have hrest := Nat.mod_lt num hden
  constructor
  · intro h
    have hquotient : num / den < c := by
      rcases nearestEven_cases num den with ⟨hdown, -⟩ | ⟨hup, -⟩ <;> omega
    have hroom := Nat.mul_le_mul_right den hquotient
    rw [Nat.succ_mul] at hroom
    by_cases hlast : num / den + 1 = c
    · -- The quotient is odd, so it has been kept only if the rest is less than half.
      have hkept : 2 * (num % den) < den := by
        unfold nearestEven at h
        dsimp only at h
        split at h <;> omega
      omega
    · have hfar := Nat.mul_le_mul_right den (show num / den + 2 ≤ c by omega)
      rw [Nat.add_mul] at hfar
      omega
  · intro h
    by_contra hge
    rcases nearestEven_cases num den with ⟨hdown, -⟩ | ⟨hup, hover⟩
    · have := Nat.mul_le_mul_right den (show c ≤ num / den by omega)
      omega
    · have := Nat.mul_le_mul_right den (show c ≤ num / den + 1 by omega)
      rw [Nat.succ_mul] at this
      omega

end NearestEven

namespace Binary64

/-! ### The nearest whole number of units -/

/-- The place of the last digit that is kept of a ratio. -/
def lastPlace (num den : Nat) : Nat :=
  (num / den).log2 - 52

/-- The last place of the greatest numbers. -/
def topPlace : Nat := 2045

/-- The whole number of units that a ratio of units is rounded to, however large. -/
def nearestUnits (num den : Nat) : Nat :=
  nearestEven num (den <<< lastPlace num den) <<< lastPlace num den

variable {num den m k : Nat} {negative : Bool}

/-- Fifty-three digits reach up to the last place, and no fewer unless it is the first. -/
theorem lastPlace_bounds (num : Nat) (hden : 0 < den) :
    num < 2 ^ 53 * (den <<< lastPlace num den) ∧
      (lastPlace num den = 0 ∨ 2 ^ 52 * (den <<< lastPlace num den) ≤ num) := by
  have hplace (d : Nat) : 2 ^ d * (den <<< lastPlace num den) = 2 ^ (d + lastPlace num den) * den := by
    rw [Nat.shiftLeft_eq, Nat.pow_add, Nat.mul_comm den, Nat.mul_assoc]
  rw [hplace, hplace]
  constructor
  · have hlt : num / den < 2 ^ (53 + lastPlace num den) :=
      Nat.lt_of_lt_of_le Nat.lt_log2_self (Nat.pow_le_pow_right (by decide) (by unfold lastPlace; omega))
    exact (Nat.div_lt_iff_lt_mul hden).mp hlt
  · by_cases hfirst : lastPlace num den = 0
    · exact .inl hfirst
    · have hpos : num / den ≠ 0 := by
        intro hzero
        exact hfirst (by rw [lastPlace, hzero]; rfl)
      have hle : 2 ^ (52 + lastPlace num den) ≤ num / den :=
        Nat.le_trans (Nat.pow_le_pow_right (by decide) (by unfold lastPlace at *; omega))
          (Nat.log2_self_le hpos)
      exact .inr ((Nat.le_div_iff_mul_le hden).mp hle)

/-- These bounds say which place it is. -/
theorem lastPlace_eq (hden : 0 < den) (hlow : 2 ^ 52 * (den <<< k) ≤ num)
    (hhigh : num < 2 ^ 53 * (den <<< k)) : lastPlace num den = k := by
  have hplace (d : Nat) : 2 ^ d * (den <<< k) = 2 ^ (d + k) * den := by
    rw [Nat.shiftLeft_eq, Nat.pow_add, Nat.mul_comm den, Nat.mul_assoc]
  rw [hplace] at hlow hhigh
  have hle := (Nat.le_div_iff_mul_le hden).mpr hlow
  have hlt := (Nat.div_lt_iff_lt_mul hden).mpr hhigh
  have hne : num / den ≠ 0 := Nat.ne_of_gt (Nat.lt_of_lt_of_le (Nat.two_pow_pos _) hle)
  have hlog : 52 + k ≤ (num / den).log2 := (Nat.le_log2 hne).mpr hle
  have hlog' : (num / den).log2 < 53 + k := (Nat.log2_lt hne).mpr hlt
  unfold lastPlace
  omega

theorem shiftLeft_pos (hden : 0 < den) (k : Nat) : 0 < den <<< k := by
  rw [Nat.shiftLeft_eq]
  exact Nat.mul_pos hden (Nat.two_pow_pos k)

/-- The digits that are kept are fifty-three, or a carry beyond them. -/
theorem significand_bounds (num : Nat) (hden : 0 < den) :
    nearestEven num (den <<< lastPlace num den) ≤ 2 ^ 53 ∧
      (lastPlace num den = 0 ∨ 2 ^ 52 ≤ nearestEven num (den <<< lastPlace num den)) := by
  obtain ⟨hlt, hle⟩ := lastPlace_bounds num hden
  have hpos := shiftLeft_pos hden (lastPlace num den)
  refine ⟨nearestEven_le hpos (Nat.le_of_lt hlt), ?_⟩
  rcases hle with hfirst | hle
  · exact .inl hfirst
  · exact .inr (le_nearestEven hpos hle)

/-- **The range of the format.**  What a ratio is rounded to is a finite number if it is within range, and
infinite if not. -/
theorem ofRatio_cases (negative : Bool) (num : Nat) (hden : 0 < den) :
    (nearestUnits num den < 2 ^ 53 <<< topPlace ∧ ∃ m k canonical,
        ofRatio negative num den = finite negative m k canonical ∧ m <<< k = nearestUnits num den) ∨
      2 ^ 53 <<< topPlace ≤ nearestUnits num den ∧ ofRatio negative num den = infinity negative := by
  obtain ⟨hdigits, hfull⟩ := significand_bounds num hden
  have hratio : ofRatio negative num den =
      if nearestEven num (den <<< lastPlace num den) = 2 ^ 53 then
        ofParts negative (2 ^ 52) (lastPlace num den + 1)
      else ofParts negative (nearestEven num (den <<< lastPlace num den)) (lastPlace num den) := rfl
  rw [hratio]
  unfold nearestUnits
  generalize nearestEven num (den <<< lastPlace num den) = m at *
  generalize lastPlace num den = k at *
  have hrange {m k : Nat} : Canonical m k ↔ m < 2 ^ 53 ∧ k ≤ topPlace ∧ (k = 0 ∨ 2 ^ 52 ≤ m) := Iff.rfl
  generalize topPlace = top at *
  simp only [Nat.shiftLeft_eq]
  by_cases hcarry : m = 2 ^ 53
  · -- The carry goes to the next place.
    rw [if_pos hcarry, hcarry]
    have hsame : 2 ^ 52 * 2 ^ (k + 1) = 2 ^ 53 * 2 ^ k := by
      rw [Nat.pow_succ]
      omega
    by_cases hk : k + 1 ≤ top
    · have hcanonical : Canonical (2 ^ 52) (k + 1) := hrange.mpr ⟨by decide, hk, .inr (by decide)⟩
      refine .inl ⟨?_, 2 ^ 52, k + 1, hcanonical, dif_pos hcanonical, hsame⟩
      exact Nat.mul_lt_mul_of_pos_left (Nat.pow_lt_pow_right (by decide) hk) (by decide)
    · refine .inr ⟨?_, dif_neg fun h => hk (hrange.mp h).2.1⟩
      exact Nat.mul_le_mul_left _ (Nat.pow_le_pow_right (by decide) (by omega))
  · rw [if_neg hcarry]
    have hm : m < 2 ^ 53 := Nat.lt_of_le_of_ne hdigits hcarry
    by_cases hk : k ≤ top
    · have hcanonical : Canonical m k := hrange.mpr ⟨hm, hk, hfull⟩
      refine .inl ⟨?_, m, k, hcanonical, dif_pos hcanonical, rfl⟩
      exact Nat.mul_lt_mul_of_lt_of_le hm (Nat.pow_le_pow_right (by decide) hk) (Nat.two_pow_pos _)
    · refine .inr ⟨?_, dif_neg fun h => hk (hrange.mp h).2.1⟩
      have hleast : 2 ^ 52 ≤ m := hfull.resolve_left (by omega)
      calc 2 ^ 53 * 2 ^ top = 2 ^ 52 * 2 ^ (top + 1) := by
            rw [Nat.pow_succ]
            omega
        _ ≤ m * 2 ^ k := Nat.mul_le_mul hleast (Nat.pow_le_pow_right (by decide) (by omega))

theorem isFinite_ofRatio (hden : 0 < den) :
    (ofRatio negative num den).isFinite = true ↔ nearestUnits num den < 2 ^ 53 <<< topPlace := by
  rcases ofRatio_cases negative num hden with ⟨hlt, m, k, canonical, hratio, -⟩ | ⟨hge, hratio⟩
  · rw [hratio]
    exact ⟨fun _ => hlt, fun _ => rfl⟩
  · rw [hratio]
    exact ⟨(nomatch ·), fun hlt => absurd hlt (Nat.not_lt.mpr hge)⟩

theorem natAbs_units_ofRatio (hden : 0 < den) (h : (ofRatio negative num den).isFinite = true) :
    (ofRatio negative num den).units.natAbs = nearestUnits num den := by
  rcases ofRatio_cases negative num hden with ⟨-, m, k, canonical, hratio, hunits⟩ | ⟨-, hratio⟩
  · rw [hratio, natAbs_units, hunits]
  · rw [hratio] at h
    cases h

theorem ofRatio_of_not_finite (hden : 0 < den) (h : (ofRatio negative num den).isFinite = false) :
    ofRatio negative num den = infinity negative := by
  rcases ofRatio_cases negative num hden with ⟨-, m, k, canonical, hratio, -⟩ | ⟨-, hratio⟩
  · rw [hratio] at h
    cases h
  · exact hratio

/-! ### Rounding crosses no number -/

/-- What is at most a number of the format is rounded to no more than that. -/
theorem nearestUnits_le (hden : 0 < den) (hm : m < 2 ^ 53) (h : num ≤ m <<< k * den) :
    nearestUnits num den ≤ m <<< k := by
  obtain ⟨-, hfull⟩ := lastPlace_bounds num hden
  have hpos := shiftLeft_pos hden (lastPlace num den)
  unfold nearestUnits
  generalize lastPlace num den = p at *
  simp only [Nat.shiftLeft_eq] at *
  rcases Nat.lt_or_ge k p with hlt | hge
  · -- The number would have more digits than the format keeps.
    have hgreat : 2 ^ 52 * (den * 2 ^ p) ≤ num := hfull.resolve_left (by omega)
    have hless : m * 2 ^ k * den < 2 ^ 52 * (den * 2 ^ p) := by
      have hroom : m * 2 ^ k < 2 ^ 52 * 2 ^ p := by
        calc m * 2 ^ k < 2 ^ 53 * 2 ^ k := Nat.mul_lt_mul_of_pos_right hm (Nat.two_pow_pos k)
          _ = 2 ^ 52 * 2 ^ (k + 1) := by
            rw [Nat.pow_succ]
            omega
          _ ≤ 2 ^ 52 * 2 ^ p := Nat.mul_le_mul_left _ (Nat.pow_le_pow_right (by decide) hlt)
      rw [Nat.mul_comm den, ← Nat.mul_assoc]
      exact Nat.mul_lt_mul_of_pos_right hroom hden
    omega
  · obtain ⟨d, rfl⟩ := Nat.exists_eq_add_of_le hge
    have hsplit : m * 2 ^ (p + d) = m * 2 ^ d * 2 ^ p := by
      rw [Nat.pow_add, Nat.mul_comm (2 ^ p), Nat.mul_assoc]
    rw [hsplit] at h ⊢
    rw [Nat.mul_assoc _ (2 ^ p), Nat.mul_comm (2 ^ p)] at h
    exact Nat.mul_le_mul_right _ (nearestEven_le hpos h)

/-- What is at least a number of the format is rounded to no less than that. -/
theorem le_nearestUnits (hden : 0 < den) (hm : m < 2 ^ 53) (h : m <<< k * den ≤ num) :
    m <<< k ≤ nearestUnits num den := by
  obtain ⟨-, hfull⟩ := significand_bounds num hden
  have hpos := shiftLeft_pos hden (lastPlace num den)
  unfold nearestUnits
  generalize lastPlace num den = p at *
  simp only [Nat.shiftLeft_eq] at *
  rcases Nat.lt_or_ge k p with hlt | hge
  · calc m * 2 ^ k ≤ 2 ^ 53 * 2 ^ k := Nat.mul_le_mul_right _ (Nat.le_of_lt hm)
      _ = 2 ^ 52 * 2 ^ (k + 1) := by
        rw [Nat.pow_succ]
        omega
      _ ≤ nearestEven num (den * 2 ^ p) * 2 ^ p :=
        Nat.mul_le_mul (hfull.resolve_left (by omega)) (Nat.pow_le_pow_right (by decide) hlt)
  · obtain ⟨d, rfl⟩ := Nat.exists_eq_add_of_le hge
    have hsplit : m * 2 ^ (p + d) = m * 2 ^ d * 2 ^ p := by
      rw [Nat.pow_add, Nat.mul_comm (2 ^ p), Nat.mul_assoc]
    rw [hsplit] at h ⊢
    rw [Nat.mul_assoc _ (2 ^ p), Nat.mul_comm (2 ^ p)] at h
    exact Nat.mul_le_mul_right _ (le_nearestEven hpos h)

/-- **A change by less than a quarter of the last place is rounded away.** -/
theorem nearestUnits_near (hfull : 2 ^ 52 ≤ m) (hm : m < 2 ^ 53) (hlow : 4 * m <<< k < 4 * num + 2 ^ k)
    (hhigh : 4 * num < 4 * m <<< k + 2 ^ k) : nearestUnits num 1 = m <<< k := by
  simp only [Nat.shiftLeft_eq] at hlow hhigh
  have hpos := Nat.two_pow_pos k
  have hupper := Nat.mul_le_mul_right (2 ^ k) hm
  have hlower := Nat.mul_le_mul_right (2 ^ k) hfull
  rw [Nat.succ_mul] at hupper
  by_cases hsame : 2 ^ 52 * 2 ^ k ≤ num
  · have hplace : lastPlace num 1 = k := by
      refine lastPlace_eq Nat.one_pos ?_ ?_ <;> rw [Nat.one_shiftLeft] <;> omega
    unfold nearestUnits
    rw [hplace, nearestEven_eq (c := m)] <;> rw [Nat.one_shiftLeft] <;> omega
  · -- Below a power of two the places are half as wide.
    obtain rfl : m = 2 ^ 52 := by
      by_contra hne
      have hnext := Nat.mul_le_mul_right (2 ^ k) (show 2 ^ 52 + 1 ≤ m by omega)
      rw [Nat.succ_mul] at hnext
      omega
    cases k with
    | zero => omega
    | succ k =>
      rw [Nat.pow_succ] at hlow hhigh hsame
      have hplace : lastPlace num 1 = k := by
        refine lastPlace_eq Nat.one_pos ?_ ?_ <;> rw [Nat.one_shiftLeft] <;> omega
      have hcarry : nearestEven num (2 ^ k) = 2 ^ 53 := nearestEven_eq (by omega) (by omega)
      unfold nearestUnits
      rw [hplace, Nat.one_shiftLeft, hcarry, Nat.shiftLeft_eq, Nat.shiftLeft_eq, Nat.pow_succ]
      omega

/-! ### The end of the range -/

/-- The least natural number that is out of range: it lies in the middle between the greatest finite number
and the next power of two, and of these the power of two has the even significand. -/
def beyond : Nat := 2 ^ 1024 - 2 ^ 970

theorem nearestUnits_lt_iff (hden : 0 < den) :
    nearestUnits num den < 2 ^ 53 <<< topPlace ↔ 2 * num < (2 ^ 54 - 1) * den <<< topPlace := by
  obtain ⟨hlt, hle⟩ := lastPlace_bounds num hden
  obtain ⟨hdigits, hfull⟩ := significand_bounds num hden
  unfold nearestUnits
  generalize topPlace = top
  rcases Nat.lt_trichotomy (lastPlace num den) top with hless | hsame | hgreater
  · generalize lastPlace num den = p at *
    simp only [Nat.shiftLeft_eq] at *
    have hplaces : 2 ^ p * 2 ≤ 2 ^ top := by
      rw [← Nat.pow_succ]
      exact Nat.pow_le_pow_right (by decide) hless
    have hscaled := Nat.mul_le_mul_left den hplaces
    have hfits := Nat.mul_le_mul_right (2 ^ p) hdigits
    have hpos := Nat.two_pow_pos p
    rw [← Nat.mul_assoc] at hscaled
    constructor <;> intro _ <;> omega
  · rw [hsame] at hlt ⊢
    have hpos := shiftLeft_pos hden top
    have hcarry : nearestEven num (den <<< top) < 2 ^ 53 ↔ _ := nearestEven_lt_iff hpos (by decide)
    rw [Nat.shiftLeft_eq (nearestEven _ _), Nat.shiftLeft_eq (2 ^ 53),
      Nat.mul_lt_mul_right (Nat.two_pow_pos top), hcarry]
    omega
  · have hleast := hfull.resolve_left (by omega)
    have hgreat := hle.resolve_left (by omega)
    generalize lastPlace num den = p at *
    simp only [Nat.shiftLeft_eq] at *
    have hplaces : 2 ^ top * 2 ≤ 2 ^ p := by
      rw [← Nat.pow_succ]
      exact Nat.pow_le_pow_right (by decide) hgreater
    have hscaled := Nat.mul_le_mul_left den hplaces
    have hover := Nat.mul_le_mul hleast hplaces
    rw [← Nat.mul_assoc] at hscaled
    constructor <;> intro _ <;> omega

/-- **When a rounded ratio is finite.** -/
theorem isFinite_ofRatio_iff (hden : 0 < den) :
    (ofRatio negative num den).isFinite = true ↔ num < beyond * unitsPerOne * den := by
  have hend : (2 ^ 54 - 1) <<< topPlace = 2 * (beyond * unitsPerOne) := by decide +kernel
  have hscaled : (2 ^ 54 - 1) * den <<< topPlace = 2 * (beyond * unitsPerOne * den) := by
    rw [← Nat.mul_assoc 2, ← hend, Nat.shiftLeft_eq, Nat.shiftLeft_eq, Nat.mul_comm den, Nat.mul_assoc]
  rw [isFinite_ofRatio hden, nearestUnits_lt_iff hden, hscaled]
  exact Nat.mul_lt_mul_left (by decide)

end Binary64

end ChipEight
