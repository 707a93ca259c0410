import ChipEight.Proofs.Binary64.Range
import ChipEight.Proofs.Emulator.Access
import ChipEight.Proofs.Emulator.Clock

/-!
# Which steps of time the clock can take

A cycle accepts every step of time that is not negative.  It adds the step to the time that it has kept,
and splits the sum into whole periods and a rest, which it keeps.  Both can go wrong for steps that are
large enough, and not in the same way.

The rest is exact, so the time that is kept is less than a period after every finite step, however large
(`InPeriod.timeLeft`).  The number of ticks is a quotient, which is out of range from some step on.  Where
that is can be said of the step alone: a period and what is left of one are so short that they are rounded
away from every large step (`isFinite_quotient_iff`).  From there on, the cycle has no number of ticks and
fails, but the next one may do better: `HasTickCount` holds of the steps before.

A step without end is different.  There is no rest of it, and what is kept instead is not a number.  No
later step brings the clock back (`untimed_of_nan`), and every cycle fails, until the emulator is reset.
`Overrun` says that this has happened in a run, and `inPeriod_after` that nothing else does harm.
-/

namespace ChipEight

open Binary64

/-- A step of time without end. -/
def Number.endless : Number := .real (.infinity false)

namespace Binary64

theorem add_nan (x : Binary64) : x.add nan = nan := by
  cases x <;> rfl

/-- What is not finite has no whole part and no rest. -/
theorem divMod_of_not_finite {x y : Binary64} (hx : x.isFinite = false) (hsign : x.isNegative = false)
    (hy : y.isNegative = false) :
    (x.divMod y).2 = nan ∧ (x.divMod y).1.toInt? = .error .notANumber := by
  have hrem : x.rem y = nan := by
    cases x with
    | nan | infinity => rfl
    | finite => cases hx
  have hquotient : (x.sub nan).div y = nan := by
    have hsub : x.sub nan = nan := add_nan x
    rw [hsub]
    rfl
  have hhalf : half.lt (nan.sub nan) = false := by decide +kernel
  rw [divMod_eq hsign hy, hrem, hquotient]
  refine ⟨rfl, ?_⟩
  simp only [isZero, floor, isFinite, Bool.false_eq_true, if_false, hhalf, toInt?]

/-- A sum is finite only if both its parts are. -/
theorem isFinite_of_add {x y : Binary64} (h : (x.add y).isFinite = true) :
    x.isFinite = true ∧ y.isFinite = true := by
  cases x with
  | nan => cases h
  | infinity s =>
    cases y with
    | nan => cases h
    | infinity t => cases s <;> cases t <;> cases h
    | finite => cases h
  | finite =>
    cases y with
    | nan | infinity => cases h
    | finite => exact ⟨rfl, rfl⟩

end Binary64

namespace Number

/-- What comes of a step of time that is not negative, as a binary64 number: it is out of range, or has no
end, or is a finite number. -/
theorem toReal_cases {delta : Number} (h : Number.le (.integer 0) delta = true) :
    (delta ≠ endless ∧ ∃ f, delta.toReal = .error f) ∨
      (delta = endless ∧ delta.toReal = .ok (infinity false)) ∨
      delta ≠ endless ∧ ∃ seconds, delta.toReal = .ok seconds ∧ seconds.isFinite = true ∧
        0 ≤ seconds.units := by
  have hwhole {n : Int} (hreal : delta.toReal = realOfInt n) (hne : delta ≠ endless) :
      (delta ≠ endless ∧ ∃ f, delta.toReal = .error f) ∨
        delta ≠ endless ∧ ∃ seconds, delta.toReal = .ok seconds ∧ seconds.isFinite = true ∧
          0 ≤ seconds.units := by
    unfold realOfInt at hreal
    dsimp only at hreal
    split at hreal
    next hfinite => exact .inr ⟨hne, _, hreal, hfinite, (atLeastZero_toReal h hreal).units⟩
    next => exact .inl ⟨hne, _, hreal⟩
  cases delta with
  | integer n => exact (hwhole (n := n) rfl nofun).imp_right .inr
  | truth b => exact (hwhole (n := b.toNat) rfl nofun).imp_right .inr
  | real x =>
    have hleast := atLeastZero_toReal h rfl
    cases x with
    | nan => cases h
    | infinity negative =>
      cases negative with
      | false => exact .inr (.inl ⟨rfl, rfl⟩)
      | true => exact absurd rfl hleast.bounded
    | finite => exact .inr (.inr ⟨nofun, _, rfl, rfl, hleast.units⟩)

end Number

namespace Emulator

variable {e : Emulator} {delta : Number} {time seconds : Binary64}

/-- A time that the clock can keep: less than a period. -/
structure InPeriod (time : Binary64) : Prop extends Amount time where
  below : time.units < tickPeriod.units

/-- A step of time whose ticks can be counted: as a binary64 number, it is less than so many periods as are
out of range. -/
def HasTickCount (delta : Number) : Prop :=
  ∃ seconds, delta.toReal = .ok seconds ∧ seconds.isFinite = true ∧
    seconds.units < beyond * tickPeriod.units

theorem amount_tickPeriod : tickPeriod.Amount :=
  ⟨tickPeriod_pos.2.1, tickPeriod_pos.1⟩

/-- A period is less than a sixtieth of a second. -/
theorem InPeriod.sixtieth (h : InPeriod time) : 60 * time.units < unitsPerOne := by
  have hperiod : 60 * tickPeriod.units < unitsPerOne := by decide +kernel
  have hbelow := h.below
  omega

/-- A time that is kept and a finite step are an amount together. -/
theorem InPeriod.add (h : InPeriod time) (hfinite : seconds.isFinite = true) (hseconds : 0 ≤ seconds.units) :
    (time.add seconds).Amount ∧
      (time.add seconds).units = nearestUnits (time.units.natAbs + seconds.units.natAbs) 1 := by
  have hroom := seconds.natAbs_units_room
  have hsixtieth := h.sixtieth
  have htime := h.toAmount.units_nonneg
  exact h.toAmount.add hfinite (by omega) (by omega)

/-- **The rest of every finite step is a time that the clock can keep.** -/
theorem InPeriod.divMod (h : InPeriod time) (hfinite : seconds.isFinite = true)
    (hseconds : 0 ≤ seconds.units) : InPeriod ((time.add seconds).divMod tickPeriod).2 := by
  obtain ⟨hamount, hbelow⟩ := (h.add hfinite hseconds).1.rest amount_tickPeriod tickPeriod_pos.2.2
  exact ⟨hamount, hbelow⟩

/-! ### How many ticks can be counted -/

/-- The last place from which on a period is rounded away. -/
def farPlace : Nat := 1078

theorem tickPeriod_lt_far : 4 * tickPeriod.units.natAbs < 2 ^ farPlace := by
  decide +kernel

theorem near_lt_beyond : (2 ^ 53 - 1) <<< farPlace < beyond * tickPeriod.units.natAbs := by
  decide +kernel

/-- The time that is divided into ticks: what was kept, with the step and without the rest. -/
abbrev whole (time seconds : Binary64) : Binary64 :=
  (time.add seconds).sub ((time.add seconds).rem tickPeriod)

/-- What is rounded on the way to that time. -/
theorem InPeriod.units_whole (h : InPeriod time) (hfinite : seconds.isFinite = true)
    (hseconds : 0 ≤ seconds.units) :
    (whole time seconds).Amount ∧ ∃ rest, rest < tickPeriod.units.natAbs ∧
      (whole time seconds).units.natAbs =
        nearestUnits (nearestUnits (time.units.natAbs + seconds.units.natAbs) 1 - rest) 1 := by
  have hzero := tickPeriod_pos.2.2
  obtain ⟨hsum, hunits⟩ := h.add hfinite hseconds
  obtain ⟨hrem, hbelow, hle⟩ := hsum.rem amount_tickPeriod hzero
  obtain ⟨hwhole, hrest⟩ := hsum.sub_rem amount_tickPeriod hzero
  have hnonneg := hrem.units_nonneg
  refine ⟨hwhole, ((time.add seconds).rem tickPeriod).units.toNat, by omega, ?_⟩
  have hless : ((time.add seconds).units - ((time.add seconds).rem tickPeriod).units).toNat =
      nearestUnits (time.units.natAbs + seconds.units.natAbs) 1 -
        ((time.add seconds).rem tickPeriod).units.toNat := by omega
  rw [hrest, hless, Int.natAbs_natCast]

/-- For a step that is not large that time is not large either. -/
theorem InPeriod.units_whole_le (h : InPeriod time) (hfinite : seconds.isFinite = true)
    (hseconds : 0 ≤ seconds.units) (hnear : 2 * seconds.units.natAbs ≤ (2 ^ 53 - 1) <<< farPlace) :
    (whole time seconds).units.natAbs ≤ (2 ^ 53 - 1) <<< farPlace := by
  obtain ⟨-, rest, -, hunits⟩ := h.units_whole hfinite hseconds
  have hperiod : 2 * tickPeriod.units.natAbs ≤ (2 ^ 53 - 1) <<< farPlace := by decide +kernel
  have hbelow := h.below
  have htime := h.toAmount.units_nonneg
  have hsum : nearestUnits (time.units.natAbs + seconds.units.natAbs) 1 ≤ (2 ^ 53 - 1) <<< farPlace :=
    nearestUnits_le Nat.one_pos (by decide) (by omega)
  rw [hunits]
  exact nearestUnits_le Nat.one_pos (by decide) (by omega)

/-- From a large step the period is rounded away. -/
theorem InPeriod.units_whole_eq (h : InPeriod time) (hfinite : seconds.isFinite = true)
    (hseconds : 0 ≤ seconds.units) {m k : Nat} (hunits : seconds.units.natAbs = m <<< k)
    (hfull : 2 ^ 52 ≤ m) (hm : m < 2 ^ 53) (hfar : farPlace ≤ k) :
    (whole time seconds).units.natAbs = m <<< k := by
  obtain ⟨-, rest, hrest, hwhole⟩ := h.units_whole hfinite hseconds
  have hbelow := h.below
  have htime := h.toAmount.units_nonneg
  have hperiod : 4 * tickPeriod.units.natAbs < 2 ^ k :=
    Nat.lt_of_lt_of_le tickPeriod_lt_far (Nat.pow_le_pow_right (by decide) hfar)
  have hsum : nearestUnits (time.units.natAbs + seconds.units.natAbs) 1 = m <<< k := by
    rw [hunits]
    exact nearestUnits_near hfull hm (by omega) (by omega)
  rw [hwhole, hsum]
  exact nearestUnits_near hfull hm (by omega) (by omega)

/-- **The quotient that the ticks are made of** is in range exactly if that of the step alone is. -/
theorem isFinite_quotient_iff (h : InPeriod time) (hfinite : seconds.isFinite = true)
    (hseconds : 0 ≤ seconds.units) :
    ((whole time seconds).div tickPeriod).isFinite = true ↔
      seconds.units < beyond * tickPeriod.units := by
  have hwhole := (h.units_whole hfinite hseconds).1
  rw [isFinite_div hwhole.finite amount_tickPeriod.finite tickPeriod_pos.2.2,
    ← natAbs_lt_mul_natAbs hseconds amount_tickPeriod.units_nonneg]
  cases hform : seconds with
  | nan | infinity =>
    rw [hform] at hfinite
    cases hfinite
  | finite negative m k canonical =>
    have hunits := natAbs_units negative m k canonical
    rw [← hform] at hunits ⊢
    obtain ⟨hm, -, hplace⟩ := canonical
    have hm : m < 2 ^ 53 := hm
    by_cases hfar : farPlace ≤ k
    · have hfull : 2 ^ 52 ≤ m := by
        unfold farPlace at hfar
        omega
      rw [h.units_whole_eq hfinite hseconds hunits hfull hm hfar, hunits]
    · -- Neither of the two is out of range.
      have hnear : 2 * seconds.units.natAbs ≤ (2 ^ 53 - 1) <<< farPlace := by
        have hpow := Nat.pow_le_pow_right (n := 2) (by decide) (Nat.not_le.mp hfar)
        rw [hunits, Nat.shiftLeft_eq, Nat.shiftLeft_eq, Nat.mul_left_comm, Nat.mul_comm 2,
          ← Nat.pow_succ]
        exact Nat.mul_le_mul (by omega) hpow
      have hle := h.units_whole_le hfinite hseconds hnear
      have hlt := near_lt_beyond
      exact ⟨fun _ => by omega, fun _ => by omega⟩

/-! ### What a cycle does with a step -/

/-- **Every finite step leaves a time that the clock can keep**, and so does one that is out of range. -/
theorem InPeriod.timeLeft (h : InPeriod e.accumulator) (hforward : Number.le (.integer 0) delta = true)
    (hend : delta ≠ .endless) : InPeriod (e.timeLeft delta) := by
  unfold Emulator.timeLeft
  obtain ⟨-, f, hreal⟩ | ⟨hendless, -⟩ | ⟨-, seconds, hreal, hfinite, hseconds⟩ :=
    Number.toReal_cases hforward
  · rwa [hreal]
  · exact absurd hendless hend
  · rw [hreal]
    exact h.divMod hfinite hseconds

/-- If the time cannot be divided, it is lost, and no ticks are due. -/
theorem untimed_of_not_finite (h : e.accumulator.isNegative = false)
    (hforward : Number.le (.integer 0) delta = true) (hreal : delta.toReal = .ok seconds)
    (hsum : (e.accumulator.add seconds).isFinite = false) :
    e.timeLeft delta = nan ∧ e.ticksDue delta = .error (.conversion .notANumber) := by
  have hsign := isNegative_add h (Number.atLeastZero_toReal hforward hreal)
  obtain ⟨hrest, hquotient⟩ := divMod_of_not_finite hsum hsign tickPeriod_pos.1
  simp only [Emulator.timeLeft, ticksDue, hreal]
  exact ⟨hrest, by rw [hquotient]; rfl⟩

/-- **A step without end** loses the time. -/
theorem untimed_of_endless (h : e.accumulator.isNegative = false) :
    e.timeLeft .endless = nan ∧ e.ticksDue .endless = .error (.conversion .notANumber) := by
  refine untimed_of_not_finite h (by decide +kernel) rfl ?_
  cases hsum : (e.accumulator.add (infinity false)).isFinite with
  | false => rfl
  | true => cases (isFinite_of_add hsum).2

/-- **A clock that has lost the time** does not find it again, and no ticks are due. -/
theorem untimed_of_nan (h : e.accumulator = nan) (hforward : Number.le (.integer 0) delta = true) :
    e.timeLeft delta = nan ∧ ∃ f, e.ticksDue delta = .error f := by
  cases hreal : delta.toReal with
  | error f => exact ⟨by simp only [Emulator.timeLeft, hreal, h], f, by simp only [ticksDue, hreal]⟩
  | ok seconds =>
    have hsum : (e.accumulator.add seconds).isFinite = false := by
      rw [h]
      rfl
    have huntimed := untimed_of_not_finite (by rw [h]; rfl) hforward hreal hsum
    exact ⟨huntimed.1, _, huntimed.2⟩

/-- **Ticks are due after every step whose ticks can be counted**, and after no other. -/
theorem exists_ticksDue_iff (h : InPeriod e.accumulator)
    (hforward : Number.le (.integer 0) delta = true) :
    (∃ due, e.ticksDue delta = .ok due) ↔ HasTickCount delta := by
  obtain ⟨-, f, hreal⟩ | ⟨rfl, hreal⟩ | ⟨-, seconds, hreal, hfinite, hseconds⟩ :=
    Number.toReal_cases hforward
  · refine iff_of_false ?_ ?_
    · rintro ⟨due, hdue⟩
      simp only [ticksDue, hreal] at hdue
      cases hdue
    · rintro ⟨seconds, hseconds, -⟩
      cases hreal.symm.trans hseconds
  · have hnone := (untimed_of_endless h.unsigned).2
    refine iff_of_false ?_ ?_
    · rintro ⟨due, hdue⟩
      cases hnone.symm.trans hdue
    · rintro ⟨seconds, hseconds, hfinite, -⟩
      cases hreal.symm.trans hseconds
      cases hfinite
  · have hquotient := isFinite_quotient_iff h hfinite hseconds
    obtain ⟨hcounted, hinfinite⟩ :=
      (h.add hfinite hseconds).1.toInt?_divMod amount_tickPeriod tickPeriod_pos.2.2
    have hcountable : HasTickCount delta ↔ seconds.units < beyond * tickPeriod.units := by
      simp only [HasTickCount, hreal, Except.ok.injEq, exists_eq_left', hfinite, true_and]
    rw [hcountable, ← hquotient]
    simp only [ticksDue, hreal]
    cases hrange : ((whole e.accumulator seconds).div tickPeriod).isFinite with
    | true =>
      obtain ⟨due, hdue⟩ := hcounted hrange
      exact ⟨fun _ => rfl, fun _ => ⟨due, by rw [hdue]; rfl⟩⟩
    | false =>
      rw [hinfinite hrange]
      refine ⟨?_, nofun⟩
      rintro ⟨due, hdue⟩
      cases hdue

/-- What is left of the time is what the clock keeps, whatever else comes of the cycle. -/
theorem accumulator_cycle (hrunner : e.runner = .execute) (hloaded : e.loaded = true)
    (hforward : Number.le (.integer 0) delta = true) :
    (e.cycle delta).emulator.accumulator = e.timeLeft delta := by
  have hcycle := cycle_cases hrunner delta
  generalize e.cycle delta = r at hcycle ⊢
  cases hcycle with
  | unloaded hunloaded => simp [hloaded] at hunloaded
  | backwards _ hbackwards => simp [hforward] at hbackwards
  | untimed | unfetched => rfl
  | waited =>
    rw [close_eq]
    rfl
  | refused => rw [poised_eq]
  | completed => rw [close_eq, poised_eq]

/-- A cycle that cannot start leaves the clock alone. -/
theorem cycle_of_not_started (h : ¬(e.loaded = true ∧ Number.le (.integer 0) delta = true)) :
    (e.cycle delta).emulator = e := by
  unfold cycle
  split
  · rfl
  split
  · rfl
  · simp_all

/-- **The result of a cycle** that can start.  Where ticks can be counted, it ends as its instruction does,
and otherwise the clock fails. -/
theorem result_cycle_of_inPeriod (h : e.Sound) (hclock : InPeriod e.accumulator) (hloaded : e.loaded = true)
    (hforward : Number.le (.integer 0) delta = true) :
    (HasTickCount delta → (e.cycle delta).result = .ok () ∨
        ∃ f : Fault, f.OfProgram ∧ (e.cycle delta).result = .error (.machine f)) ∧
      (¬HasTickCount delta → ∃ f, (e.cycle delta).result = .error (.clock f)) := by
  rw [← exists_ticksDue_iff hclock hforward]
  constructor
  · rintro ⟨due, hdue⟩
    have htimed : Timed delta due e := ⟨hloaded, hforward, hdue⟩
    have hprogram := (watch_safe (e := e.elapse delta due) (h.bounded.ticks _)).2
    rw [(cycle_watch h htimed).2]
    cases hfault : (e.elapse delta due).watch.outcome.fault? with
    | none => exact .inl rfl
    | some f => exact .inr ⟨f, hprogram f hfault, rfl⟩
  · intro hnone
    cases hdue : e.ticksDue delta with
    | ok due => exact absurd ⟨due, hdue⟩ hnone
    | error f => exact ⟨f, by rw [cycle_of_untimed hloaded hforward hdue]⟩

/-! ### What a run does with the clock -/

/-- A step without end has been taken in a run, and no reset came after it. -/
def Overrun (calls : List Call) (e : Emulator) : Prop :=
  ∃ before behind, calls = before ++ .cycle .endless :: behind ∧ (e.after before).loaded = true ∧
    .reset ∉ behind

theorem overrun_nil (e : Emulator) : ¬Overrun [] e := by
  rintro ⟨before, behind, h, -⟩
  simp at h

theorem overrun_cons {c : Call} {calls : List Call} :
    Overrun (c :: calls) e ↔
      (c = .cycle .endless ∧ e.loaded = true ∧ .reset ∉ calls) ∨ Overrun calls (c.next e) := by
  constructor
  · rintro ⟨before, behind, h, hloaded, hreset⟩
    cases before with
    | nil =>
      cases h
      exact .inl ⟨rfl, hloaded, hreset⟩
    | cons d before =>
      cases h
      exact .inr ⟨before, behind, rfl, hloaded, hreset⟩
  · rintro (⟨rfl, hloaded, hreset⟩ | ⟨before, behind, rfl, hloaded, hreset⟩)
    · exact ⟨[], calls, rfl, hloaded, hreset⟩
    · exact ⟨c :: before, behind, rfl, hloaded, hreset⟩

/-- The clock keeps a time, or it has lost it. -/
def Clocked (e : Emulator) : Prop :=
  InPeriod e.accumulator ∨ e.accumulator = nan

theorem not_inPeriod_nan : ¬InPeriod nan :=
  fun h => by cases h.finite

theorem inPeriod_zero : InPeriod .zero := by
  refine ⟨⟨rfl, rfl⟩, ?_⟩
  decide +kernel

/-- **One call.**  Only a step without end makes a clock lose the time, and only a reset sets it again. -/
theorem inPeriod_next (hrunner : e.runner = .execute) (h : Clocked e) (c : Call) :
    Clocked (c.next e) ∧
      (InPeriod (c.next e).accumulator ↔
        c = .reset ∨ InPeriod e.accumulator ∧ ¬(c = .cycle .endless ∧ e.loaded = true)) := by
  have hkept {f : Emulator} (hsame : f.accumulator = e.accumulator)
      (hc : c ≠ .reset ∧ ¬(c = .cycle .endless ∧ e.loaded = true)) :
      Clocked f ∧ (InPeriod f.accumulator ↔
        c = .reset ∨ InPeriod e.accumulator ∧ ¬(c = .cycle .endless ∧ e.loaded = true)) := by
    unfold Clocked
    rw [hsame]
    exact ⟨h, by simp [hc]⟩
  cases c with
  | reset =>
    rw [Call.next_reset]
    exact ⟨.inl inPeriod_zero, by simp [inPeriod_zero]⟩
  | load program =>
    obtain hnext | ⟨-, _, -, hnext⟩ := Call.next_load program e <;> rw [hnext] <;> exact hkept rfl (by simp)
  | keyDown key =>
    rw [Call.next_keyDown]
    split <;> exact hkept rfl (by simp)
  | keyUp key =>
    rw [Call.next_keyUp]
    split <;> exact hkept rfl (by simp)
  | trace on => exact hkept rfl (by simp)
  | listen name => exact hkept rfl (by simp)
  | cycle delta =>
    rw [Call.next_cycle]
    by_cases hstart : e.loaded = true ∧ Number.le (.integer 0) delta = true
    case neg =>
      rw [cycle_of_not_started hstart]
      refine hkept rfl ⟨nofun, ?_⟩
      rintro ⟨hcall, hloaded⟩
      cases hcall
      exact hstart ⟨hloaded, by decide +kernel⟩
    obtain ⟨hloaded, hforward⟩ := hstart
    unfold Clocked
    rw [accumulator_cycle hrunner hloaded hforward]
    rcases h with hclock | hlost
    · by_cases hend : delta = .endless
      · subst hend
        rw [(untimed_of_endless hclock.unsigned).1]
        exact ⟨.inr rfl, by simp [not_inPeriod_nan, hloaded]⟩
      · have hleft := hclock.timeLeft hforward hend
        exact ⟨.inl hleft, by simp [hleft, hclock, hend]⟩
    · rw [(untimed_of_nan hlost hforward).1, hlost]
      exact ⟨.inr rfl, by simp [not_inPeriod_nan]⟩

/-- **A run.**  The clock keeps the time after it unless a step without end was taken and no reset came
after it. -/
theorem inPeriod_after (hsound : e.Sound) (h : Clocked e) (calls : List Call) :
    Clocked (e.after calls) ∧
      (InPeriod (e.after calls).accumulator ↔
        ¬Overrun calls e ∧ (InPeriod e.accumulator ∨ .reset ∈ calls)) := by
  induction calls generalizing e with
  | nil => exact ⟨h, by simp [overrun_nil]⟩
  | cons c calls ih =>
    obtain ⟨hnext, hstep⟩ := inPeriod_next hsound.runner h c
    obtain ⟨hafter, hrun⟩ := ih (hsound.next c) hnext
    refine ⟨hafter, ?_⟩
    rw [after_cons, hrun, hstep, overrun_cons, List.mem_cons]
    have hother : c = .reset → c ≠ .cycle .endless := by
      rintro rfl
      nofun
    grind

/-- **Which steps the clock can take.**  After any run the time that is kept is less than a sixtieth of a
second, unless a step without end was taken and no reset came after it.  A cycle keeps it so after every
step but one without end.  If the ticks of the step can be counted, the cycle succeeds or fails as the
program makes it; if not, the clock fails, but is good for the next cycle.  After a step without end it is
not: every cycle fails. -/
theorem keeps_time (random : RandomSource) (hasTone : Bool) (calls : List Call) :
    let e := (new random hasTone).after calls
    (InPeriod e.accumulator ↔ ¬Overrun calls (new random hasTone)) ∧
      (InPeriod e.accumulator → 60 * e.accumulator.units < unitsPerOne) ∧
      ∀ delta, e.loaded = true → Number.le (.integer 0) delta = true →
        (InPeriod e.accumulator →
          (InPeriod (e.cycle delta).emulator.accumulator ↔ delta ≠ .endless) ∧
          (HasTickCount delta → (e.cycle delta).result = .ok () ∨
            ∃ f : Fault, f.OfProgram ∧ (e.cycle delta).result = .error (.machine f)) ∧
          (¬HasTickCount delta → ∃ f, (e.cycle delta).result = .error (.clock f))) ∧
        (¬InPeriod e.accumulator →
          (e.cycle delta).emulator.accumulator = nan ∧ ∃ f, (e.cycle delta).result = .error (.clock f)) := by
  intro e
  have hsound : e.Sound := sound_after random hasTone calls
  obtain ⟨hclocked, hrun⟩ := inPeriod_after (sound_new random hasTone) (.inl inPeriod_zero) calls
  refine ⟨hrun.trans (and_iff_left (.inl inPeriod_zero)), InPeriod.sixtieth, ?_⟩
  intro delta hloaded hforward
  constructor
  · intro hclock
    refine ⟨?_, result_cycle_of_inPeriod hsound hclock hloaded hforward⟩
    have hstep := (inPeriod_next hsound.runner hclocked (.cycle delta)).2
    rw [Call.next_cycle] at hstep
    rw [hstep]
    simp [e, hclock, hloaded]
  · intro hlost
    obtain ⟨hleft, f, hdue⟩ := untimed_of_nan (hclocked.resolve_left hlost) hforward
    exact ⟨by rw [accumulator_cycle hsound.runner hloaded hforward, hleft],
      f, by rw [cycle_of_untimed hloaded hforward hdue]⟩

/-- A program that loops in one place goes on after a year, and after more than the age of the universe. -/
theorem keeps_time_of_ages :
    let e := (new (.cycle #[]) true).after [.load [0x12, 0x00], .cycle (.integer 31536000)]
    let delta := Number.integer (10 ^ 75)
    e.loaded = true ∧ Number.le (.integer 0) delta = true ∧ InPeriod e.accumulator ∧ HasTickCount delta ∧
      InPeriod (e.cycle delta).emulator.accumulator ∧
      ((e.cycle delta).result = .ok () ∨
        ∃ f : Fault, f.OfProgram ∧ (e.cycle delta).result = .error (.machine f)) := by
  intro e delta
  obtain ⟨hloaded, hfinite, hunsigned, hbelow⟩ : e.loaded = true ∧ e.accumulator.isFinite = true ∧
      e.accumulator.isNegative = false ∧ e.accumulator.units < tickPeriod.units := by decide +kernel
  have hforward : Number.le (.integer 0) delta = true := by decide +kernel
  have hclock : InPeriod e.accumulator := ⟨⟨hfinite, hunsigned⟩, hbelow⟩
  have hcountable : HasTickCount delta :=
    ⟨.ofInt (10 ^ 75), by decide +kernel, by decide +kernel, by decide +kernel⟩
  have hend : delta ≠ .endless := by decide +kernel
  have hcycle := ((keeps_time (.cycle #[]) true _).2.2 delta hloaded hforward).1 hclock
  subst e
  exact ⟨hloaded, hforward, hclock, hcountable, hcycle.1.mpr hend, hcycle.2.1 hcountable⟩

/-- The same program does not go on after a step without end, although the step is not negative: there is no
time left to keep, and the next cycle fails although it takes no time at all. -/
theorem not_keeps_time_of_endless :
    let e := (new (.cycle #[]) true).after [.load [0x12, 0x00]]
    let later := (e.cycle .endless).emulator
    e.loaded = true ∧ Number.le (.integer 0) .endless = true ∧
      (e.cycle .endless).result = .error (.clock (.conversion .notANumber)) ∧
      later.accumulator = nan ∧
      (later.cycle (.integer 0)).result = .error (.clock (.conversion .notANumber)) := by
  decide +kernel

end Emulator

end ChipEight
