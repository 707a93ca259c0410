import ChipEight.Computer.Usual
import ChipEight.Proofs.Binary64.Range
import ChipEight.Proofs.Settings.Acceptance
import ChipEight.Tone.Wave

/-!
# Which tones have a wave

Settings are accepted with any frequency that is not zero or less, and any volume from zero to one.  The
volume is all that it should be: whatever number it is, the amplitude is a sample, and so is its negative
(`exists_amplitudeOf`).  So nothing is cut off, and the wave is made of equal periods, the first half of
each up and the rest down (`samples_eq`).

The frequency may be more than that test has in mind.  It may be no number, which is not zero or less
either, or so near to zero that a period has more samples than there are numbers.  Then there is no period.
`InReach` says when there is one, in exact values: the rate is a number, and less than so many times the
frequency as numbers end at (`exists_periodOf_iff`).
-/

namespace ChipEight

open Binary64
open Toml (Table Value)

namespace Number

variable {n : Int}

/-- Integers are numbers of the format up to the end of its range. -/
theorem realOfInt_of_isFinite (h : (ofInt n).isFinite = true) : realOfInt n = .ok (ofInt n) :=
  if_pos h

theorem realOfInt_of_not_isFinite (h : ¬(ofInt n).isFinite = true) : realOfInt n = .error .tooLarge :=
  if_neg h

end Number

namespace Wave

/-! ### Samples -/

/-- All samples. -/
def samples (w : Wave) : List Int :=
  (List.range w.length).map w.sample

/-- What is a sample is not cut. -/
theorem cut_eq {n : Int} (hlow : -maxSample ≤ n) (hhigh : n ≤ maxSample) : cut n = n := by
  unfold maxSample at hlow hhigh
  exact Int.bmod_eq_of_le (by omega) (by omega)

/-- Nor is its negative. -/
theorem uncut {w : Wave} (hlow : 0 ≤ w.amplitude) (hhigh : w.amplitude ≤ maxSample) :
    w.high = w.amplitude ∧ w.low = -w.amplitude := by
  have hmax : 0 ≤ maxSample := by decide
  exact ⟨cut_eq (by omega) hhigh, cut_eq (by omega) (by omega)⟩

section Periodic

variable {α : Type} {a b : α} {half period : Nat}

/-- A list that is one thing up to some place and another from there on. -/
theorem map_range_ite (h : half ≤ period) :
    (List.range period).map (fun k => if k < half then a else b) =
      List.replicate half a ++ List.replicate (period - half) b := by
  obtain ⟨rest, rfl⟩ := Nat.exists_eq_add_of_le h
  have hfirst : (List.range half).map (fun k => if k < half then a else b) =
      List.replicate half a := by
    rw [List.map_congr_left (g := fun _ => a), List.map_const', List.length_range]
    intro k hk
    rw [if_pos (List.mem_range.mp hk)]
  rw [List.range_add, List.map_append, hfirst, List.map_map, Nat.add_sub_cancel_left]
  congr 1
  rw [List.map_congr_left (g := fun _ => b), List.map_const', List.length_range]
  intro k hk
  rw [Function.comp_apply, if_neg (by omega)]

/-- Such a list again and again. -/
theorem map_range_mod (h : half ≤ period) (count : Nat) :
    (List.range (period * count)).map (fun k => if k % period < half then a else b) =
      (List.replicate count (List.replicate half a ++ List.replicate (period - half) b)).flatten := by
  induction count with
  | zero => rfl
  | succ count ih =>
    have hlast : (List.range period).map (fun k => if (period * count + k) % period < half then a else b) =
        List.replicate half a ++ List.replicate (period - half) b := by
      rw [← map_range_ite h]
      refine List.map_congr_left fun k hk => ?_
      rw [Nat.mul_add_mod, Nat.mod_eq_of_lt (List.mem_range.mp hk)]
    rw [Nat.mul_succ, List.range_add, List.map_append, ih, List.map_map, List.replicate_succ',
      List.flatten_append, List.flatten_singleton]
    exact congrArg _ hlast

end Periodic

/-- **Every period is the same**: the first half up, the rest down. -/
theorem samples_eq (w : Wave) :
    w.samples = (List.replicate periods
      (List.replicate (w.period / 2) w.high ++ List.replicate (w.period - w.period / 2) w.low)).flatten :=
  map_range_mod (Nat.div_le_self w.period 2) periods

/-- Equal neighbours together are the samples one by one. -/
theorem flatMap_runs (w : Wave) : (w.runs.flatMap fun r => List.replicate r.2 r.1) = w.samples := by
  rw [samples_eq, runs]
  split
  next hsilent =>
    have hhalves : w.period / 2 + (w.period - w.period / 2) = w.period :=
      Nat.add_sub_of_le (Nat.div_le_self w.period 2)
    rw [← hsilent, List.replicate_append_replicate, hhalves, List.flatten_replicate_replicate,
      List.flatMap_singleton, length, Nat.mul_comm]
  next =>
    rw [List.flatMap_def, List.map_flatten, List.flatten_flatten, List.map_replicate, List.map_replicate]
    simp

/-! ### The amplitude -/

/-- An accepted number from zero to one is an integer, or a finite number of the format. -/
theorem fraction_cases {name : String} {given : Value} {volume : Number}
    (h : Settings.fraction name given = .ok volume) :
    (∃ n : Nat, n ≤ 1 ∧ volume.integer? = some (n : Int)) ∨
      ∃ x : Binary64, volume = .real x ∧ x.isFinite = true ∧ 0 ≤ x.units ∧ x.units ≤ unitsPerOne := by
  unfold Settings.fraction at h
  split at h
  next n =>
    split at h <;> cases h
    next hbounds =>
      simp only [Number.le, Bool.and_eq_true, Bool.not_eq_true'] at hbounds
      obtain ⟨⟨-, hlow⟩, ⟨hnumber, -⟩, hhigh⟩ := hbounds
      cases volume with
      | integer n =>
        have hlow : ¬n < 0 := of_decide_eq_false hlow
        have hhigh : ¬1 < n := of_decide_eq_false hhigh
        exact .inl ⟨n.toNat, by omega, congrArg some (Int.toNat_of_nonneg (by omega)).symm⟩
      | truth b => exact .inl ⟨b.toNat, Bool.toNat_le b, rfl⟩
      | real x =>
        refine .inr ⟨x, rfl, ?_⟩
        cases x with
        | nan => cases hnumber
        | infinity negative =>
          -- Either of the two is out of bounds.
          cases negative with
          | false => cases hhigh
          | true => cases hlow
        | finite =>
          have hlow := of_decide_eq_false hlow
          have hhigh := of_decide_eq_false hhigh
          simp only [Number.integer?, Option.getD_some, Int.zero_mul, Int.one_mul] at hlow hhigh
          exact ⟨rfl, Int.not_lt.mp hlow, Int.not_lt.mp hhigh⟩
  next => cases h

/-- **The amplitude of an accepted volume** is a sample. -/
theorem exists_amplitudeOf {name : String} {given : Value} {volume : Number}
    (h : Settings.fraction name given = .ok volume) :
    ∃ amplitude, amplitudeOf volume = .ok amplitude ∧ 0 ≤ amplitude ∧ amplitude ≤ maxSample := by
  obtain ⟨n, hn, hvolume⟩ | ⟨x, rfl, hfinite, hlow, hhigh⟩ := fraction_cases h
  · refine ⟨n * maxSample, ?_, ?_, ?_⟩
    · cases volume with
      | integer m | truth b =>
        cases hvolume
        rfl
      | real x => cases hvolume
    all_goals unfold maxSample; omega
  · obtain ⟨hproduct, hnonneg, hle⟩ := units_mul_ofInt hfinite hlow hhigh (m := 32767) (by decide)
    obtain ⟨amplitude, hamplitude, hbounds⟩ := toInt?_of_units hproduct hnonneg hle
    refine ⟨amplitude, ?_, hbounds⟩
    have hmax : maxSample = ((32767 : Nat) : Int) := rfl
    have hfactor := Number.realOfInt_of_isFinite (units_ofInt (m := 32767) (by decide)).1
    rw [amplitudeOf, hmax, Number.times, hfactor, map_ok, ok_bind, Number.toInt?]
    exact congrArg (Except.mapError _) hamplitude

/-! ### The period -/

/-- Whether a period of a frequency has a number of samples at a rate. -/
def InReach (rate : Int) : Number → Prop
  | .integer n => rate < beyond * n
  | .truth b => rate < beyond * b.toNat
  | .real .nan => False
  | .real (.infinity _) => rate < beyond
  | .real x => rate < beyond ∧ (ofInt rate).units < beyond * x.units

/-- An accepted number that is not zero or less is a positive integer, or a number of the format that is
positive or is no number. -/
theorem positive_cases {name : String} {given : Value} {frequency : Number}
    (h : Settings.positive name given = .ok frequency) :
    (∃ n : Int, 0 < n ∧ frequency.integer? = some n) ∨ frequency = .real nan ∨
      frequency = .real (infinity false) ∨
      ∃ x : Binary64, frequency = .real x ∧ x.isFinite = true ∧ 0 < x.units := by
  unfold Settings.positive at h
  split at h
  next =>
    split at h <;> cases h
    next hbound =>
      simp only [Number.le, Bool.and_eq_true, Bool.not_eq_true', not_and, Bool.not_eq_false] at hbound
      cases frequency with
      | integer n =>
        have habove : 0 < n := of_decide_eq_true (hbound ⟨rfl, rfl⟩)
        exact .inl ⟨n, habove, rfl⟩
      | truth b =>
        have habove : (0 : Int) < b.toNat := of_decide_eq_true (hbound ⟨rfl, rfl⟩)
        exact .inl ⟨b.toNat, habove, rfl⟩
      | real x =>
        refine .inr ?_
        cases x with
        | nan => exact .inl rfl
        | infinity negative =>
          cases negative with
          | false => exact .inr (.inl rfl)
          | true => cases hbound ⟨rfl, rfl⟩
        | finite =>
          have habove := of_decide_eq_true (hbound ⟨rfl, rfl⟩)
          simp only [Number.integer?, Option.getD_some, Int.zero_mul] at habove
          exact .inr (.inr ⟨_, rfl, rfl, habove⟩)
  next => cases h

/-- There is a period if the quotient of the rate and the frequency is finite. -/
theorem exists_periodOf_iff_quotient {frequency : Number} {rate : Int} :
    (∃ period, periodOf frequency rate = .ok period) ↔
      ∃ x, Number.quotient (.integer rate) frequency = .ok x ∧ x.isFinite = true := by
  simp only [periodOf, bind_eq_ok, ← exists_roundInt?_iff]
  constructor
  · rintro ⟨period, x, hquotient, n, hround, -⟩
    exact ⟨x, hquotient, n, ok_of_mapError_ok hround⟩
  · rintro ⟨x, hquotient, n, hround⟩
    exact ⟨_, x, hquotient, n, by rw [hround]; rfl, rfl⟩

/-- Quotients of integers. -/
theorem exists_quotient_of_integer {frequency : Number} {rate n : Int} (hrate : 0 < rate) (hn : 0 < n)
    (hinteger : frequency.integer? = some n) :
    (∃ x, Number.quotient (.integer rate) frequency = .ok x ∧ x.isFinite = true) ↔ rate < beyond * n := by
  have hquotient : Number.quotient (.integer rate) frequency =
      if (ofQuotient rate n).isFinite then .ok (ofQuotient rate n) else .error .quotientTooLarge := by
    unfold Number.quotient
    rw [hinteger]
    exact if_neg (Int.ne_of_gt hn)
  rw [hquotient, ← natAbs_lt_mul_natAbs (Int.le_of_lt hrate) (Int.le_of_lt hn),
    ← isFinite_ofQuotient rate (Int.ne_of_gt hn)]
  constructor
  · rintro ⟨x, hx, hfinite⟩
    split at hx <;> cases hx
    exact hfinite
  · intro hfinite
    exact ⟨_, if_pos hfinite, hfinite⟩

/-- Quotients of an integer and a number of the format that is not zero. -/
theorem exists_quotient_of_real {y : Binary64} {rate : Int} (hrate : 0 < rate) (hzero : y.isZero = false) :
    (∃ x, Number.quotient (.integer rate) (.real y) = .ok x ∧ x.isFinite = true) ↔
      rate < beyond ∧ ((ofInt rate).div y).isFinite = true := by
  have hquotient : Number.quotient (.integer rate) (.real y) =
      (Number.realOfInt rate >>= fun x => .ok (x.div y)) := by
    unfold Number.quotient
    simp only [Number.integer?, Number.toReal, ok_bind, hzero, Bool.false_eq_true, if_false]
  have hrange : rate < beyond ↔ (ofInt rate).isFinite = true := by
    rw [isFinite_ofInt]
    omega
  rw [hquotient, hrange]
  by_cases hfinite : (ofInt rate).isFinite = true
  · rw [Number.realOfInt_of_isFinite hfinite, ok_bind]
    simp [hfinite]
  · rw [Number.realOfInt_of_not_isFinite hfinite, error_bind]
    simp [hfinite]

/-- **There is a period of an accepted frequency** exactly if it is in reach. -/
theorem exists_periodOf_iff {name : String} {given : Value} {frequency : Number}
    (h : Settings.positive name given = .ok frequency) {rate : Int} (hrate : 0 < rate) :
    (∃ period, periodOf frequency rate = .ok period) ↔ InReach rate frequency := by
  rw [exists_periodOf_iff_quotient]
  obtain ⟨n, hn, hinteger⟩ | rfl | rfl | ⟨y, rfl, hfinite, hpos⟩ := positive_cases h
  · rw [exists_quotient_of_integer hrate hn hinteger]
    cases frequency with
    | integer | truth =>
      cases hinteger
      rfl
    | real x => cases hinteger
  · rw [exists_quotient_of_real hrate rfl, div_nan]
    exact ⟨nofun, nofun⟩
  · rw [exists_quotient_of_real hrate rfl]
    refine and_iff_left_of_imp fun hbelow => ?_
    exact isFinite_div_infinity ((isFinite_ofInt rate).mpr (by omega)) false
  · have hzero : y.isZero = false := by
      cases hzero : y.isZero with
      | false => rfl
      | true =>
        rw [units_of_isZero hzero] at hpos
        exact absurd hpos (Int.lt_irrefl 0)
    have hreach : InReach rate (.real y) ↔ rate < beyond ∧ (ofInt rate).units < beyond * y.units := by
      cases y with
      | nan | infinity => cases hfinite
      | finite => rfl
    rw [exists_quotient_of_real hrate hzero, hreach]
    refine and_congr_right fun hbelow => ?_
    have hnonneg := units_nonneg (isNegative_ofInt (Int.le_of_lt hrate))
    rw [isFinite_div ((isFinite_ofInt rate).mpr (by omega)) hfinite hzero,
      natAbs_lt_mul_natAbs hnonneg (Int.le_of_lt hpos)]

/-- A period has a sample up and one down. -/
theorem two_le_of_periodOf {frequency : Number} {rate : Int} {period : Nat}
    (h : periodOf frequency rate = .ok period) : 2 ≤ period := by
  simp only [periodOf, bind_eq_ok] at h
  obtain ⟨quotient, -, samples, -, hperiod⟩ := h
  cases hperiod
  omega

/-! ### The wave -/

variable {frequency volume : Number} {rate amplitude : Int} {period : Nat}

/-- With a period and an amplitude that is a sample there is a wave if there is memory for it. -/
theorem ofTone_eq (room : Room) (hperiod : periodOf frequency rate = .ok period)
    (hamplitude : amplitudeOf volume = .ok amplitude) (hlow : 0 ≤ amplitude) (hhigh : amplitude ≤ maxSample) :
    ofTone room frequency rate volume =
      ((room.samples (period * periods)).mapError .room).map fun _ => ⟨period, amplitude⟩ := by
  have hcut : canCut amplitude := by
    unfold maxSample at hhigh
    exact ⟨by omega, by omega⟩
  unfold ofTone
  rw [hperiod, hamplitude, mapError_ok, mapError_ok, ok_bind]
  cases room.samples (period * periods) with
  | error f => rfl
  | ok u =>
    simp only [mapError_ok, ok_bind, hcut, not_true_eq_false, if_false]
    rfl

/-- Without a period there is no wave. -/
theorem ofTone_of_error (room : Room) {f : NumberFault} (h : periodOf frequency rate = .error f) :
    ofTone room frequency rate volume = .error (.number f) := by
  unfold ofTone
  rw [h]
  rfl

/-- **Which accepted tones have a wave.**  Whatever the volume, its amplitude is a sample.  If the frequency
is in reach of the rate, then there is a period of two samples or more, and all that can be in the way of
the wave is the room for it.  The wave is thirty-two times the same period, its first half up by the
amplitude and the rest down by it.  If the frequency is not in reach, then there is no period, and so no
wave. -/
theorem wave_of_accepted {t : Table} {settings : Settings} (h : Settings.ofTable t = .ok settings)
    (hrate : 0 < rate) (room : Room) :
    ∃ amplitude, amplitudeOf settings.volume = .ok amplitude ∧ 0 ≤ amplitude ∧ amplitude ≤ 32767 ∧
      (InReach rate settings.frequency →
        ∃ period, periodOf settings.frequency rate = .ok period ∧ 2 ≤ period ∧
          (ofTone room settings.frequency rate settings.volume =
            ((room.samples (period * 32)).mapError .room).map fun _ => ⟨period, amplitude⟩) ∧
          samples ⟨period, amplitude⟩ =
            (List.replicate 32 (List.replicate (period / 2) amplitude ++
              List.replicate (period - period / 2) (-amplitude))).flatten ∧
          ((runs ⟨period, amplitude⟩).flatMap fun r => List.replicate r.2 r.1) =
            samples ⟨period, amplitude⟩) ∧
      (¬InReach rate settings.frequency →
        ∃ f, periodOf settings.frequency rate = .error f ∧
          ofTone room settings.frequency rate settings.volume = .error (.number f)) := by
  obtain ⟨⟨given, hfrequency⟩, loud, hvolume⟩ := Settings.tone_of_ofTable h
  obtain ⟨amplitude, hamplitude, hlow, hhigh⟩ := exists_amplitudeOf hvolume
  have hreach := exists_periodOf_iff hfrequency hrate
  refine ⟨amplitude, hamplitude, hlow, hhigh, ?_, ?_⟩
  · intro hin
    obtain ⟨period, hperiod⟩ := hreach.mpr hin
    refine ⟨period, hperiod, two_le_of_periodOf hperiod, ofTone_eq room hperiod hamplitude hlow hhigh, ?_,
      flatMap_runs _⟩
    obtain ⟨hup, hdown⟩ := uncut (w := ⟨period, amplitude⟩) hlow hhigh
    have hsamples := samples_eq ⟨period, amplitude⟩
    rwa [hup, hdown] at hsamples
  · intro hout
    cases hperiod : periodOf settings.frequency rate with
    | ok period => exact absurd (hreach.mp ⟨period, hperiod⟩) hout
    | error f => exact ⟨f, rfl, ofTone_of_error room hperiod⟩

/-- The loudest tone of a frequency without end, on a usual computer. -/
theorem wave_of_accepted_endless :
    let t := Settings.assign "audio" "volume" (.number (.truth true))
      (Settings.assign "audio" "frequency" (.number (.real (infinity false))) Settings.defaults)
    ∃ settings, Settings.ofTable t = .ok settings ∧ (0 : Int) < 44100 ∧ InReach 44100 settings.frequency ∧
      ∃ amplitude, amplitudeOf settings.volume = .ok amplitude ∧ amplitude ≤ 32767 ∧
        periodOf settings.frequency 44100 = .ok 2 ∧
        ofTone Computer.Usual.room settings.frequency 44100 settings.volume = .ok ⟨2, amplitude⟩ := by
  intro t
  have haccepted : (Settings.ofTable t).map Settings.frequency = .ok (.real (infinity false)) := by
    decide +kernel
  have hshort : periodOf (.real (infinity false)) 44100 = .ok 2 := by decide +kernel
  obtain ⟨settings, hsettings, hfrequency⟩ := ok_of_map_ok haccepted
  have hreach : InReach 44100 settings.frequency := by
    have hbelow : (44100 : Int) < beyond := by decide +kernel
    rw [hfrequency]
    exact hbelow
  obtain ⟨amplitude, hamplitude, -, hhigh, hwave, -⟩ :=
    wave_of_accepted hsettings (show (0 : Int) < 44100 by decide) Computer.Usual.room
  obtain ⟨period, hperiod, -, hmade, -⟩ := hwave hreach
  rw [← hfrequency] at hshort
  cases hshort.symm.trans hperiod
  exact ⟨settings, hsettings, by decide, hreach, amplitude, hamplitude, hhigh, hperiod, hmade⟩

/-- A frequency that is no number is accepted, and has no period. -/
theorem no_wave_of_nan :
    let t := Settings.assign "audio" "frequency" (.number (.real nan)) Settings.defaults
    ∃ settings, Settings.ofTable t = .ok settings ∧
      periodOf settings.frequency 44100 = .error (.conversion .notANumber) := by
  intro t
  have haccepted : (Settings.ofTable t).map Settings.frequency = .ok (.real nan) := by decide +kernel
  have hperiod : periodOf (.real nan) 44100 = .error (.conversion .notANumber) := by decide +kernel
  obtain ⟨settings, hsettings, hfrequency⟩ := ok_of_map_ok haccepted
  exact ⟨settings, hsettings, by rw [hfrequency, hperiod]⟩

end Wave

end ChipEight
