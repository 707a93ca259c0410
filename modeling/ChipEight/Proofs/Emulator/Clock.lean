import ChipEight.Proofs.Binary64.Division
import ChipEight.Proofs.Emulator.Bounds

/-!
# The clock runs forwards

The time that has passed since the last tick is kept as a binary64 number, and every step of time is
added to it and divided by the period of the timers, with rounding at each turn.  Whatever is rounded,
the time that is kept is never negative (`accumulator_nonneg`), and so no cycle owes the timers a
negative number of ticks (`ticksDue_nonneg`).
-/

namespace ChipEight

open Emulator

/-- A number that is not negative is at least zero. -/
theorem Binary64.AtLeastZero.of_isNegative {x : Binary64} (h : x.isNegative = false) :
    x.AtLeastZero where
  bounded := by
    rintro rfl
    cases h
  units := Binary64.units_nonneg h

/-- What compares as at least zero is at least zero as a binary64 number. -/
theorem Number.atLeastZero_toReal {delta : Number} {seconds : Binary64}
    (h : Number.le (.integer 0) delta = true) (hreal : delta.toReal = .ok seconds) :
    seconds.AtLeastZero := by
  have hnotless : delta.lt (.integer 0) = false := by
    simp only [le, Bool.and_eq_true, Bool.not_eq_true'] at h
    exact h.2
  have hwhole {n : Int} (hn : 0 ≤ n) (hreal : realOfInt n = .ok seconds) :
      seconds.AtLeastZero := by
    unfold realOfInt at hreal
    dsimp only at hreal
    split at hreal <;> cases hreal
    exact .of_isNegative (Binary64.isNegative_ofInt hn)
  cases delta with
  | integer n =>
    have hn : ¬n < 0 := of_decide_eq_false hnotless
    exact hwhole (Int.not_lt.mp hn) hreal
  | truth b => exact hwhole (Int.natCast_nonneg b.toNat) hreal
  | real x =>
    cases hreal
    cases seconds with
    | nan => exact ⟨nofun, Int.le_refl 0⟩
    | infinity negative =>
      have hsign : negative = false := hnotless
      exact .of_isNegative hsign
    | finite =>
      refine ⟨nofun, ?_⟩
      simpa [lt, realLtInt, integer?] using hnotless

namespace Emulator

variable {e : Emulator} {delta : Number}

/-- The period of the timers is a number that can be divided by. -/
theorem tickPeriod_pos :
    tickPeriod.isNegative = false ∧ tickPeriod.isFinite = true ∧ tickPeriod.isZero = false := by
  decide +kernel

/-- The time that is left over is not negative. -/
theorem timeLeft_nonneg (h : e.accumulator.isNegative = false)
    (hforward : Number.le (.integer 0) delta = true) : (e.timeLeft delta).isNegative = false := by
  unfold timeLeft
  cases hreal : delta.toReal with
  | error f => exact h
  | ok seconds =>
    have hsum := Binary64.isNegative_add h (Number.atLeastZero_toReal hforward hreal)
    exact Binary64.isNegative_divMod hsum tickPeriod_pos.1

/-- **No cycle owes a negative number of ticks.** -/
theorem ticksDue_nonneg (h : e.accumulator.isNegative = false)
    (hforward : Number.le (.integer 0) delta = true) {due : Int} (hdue : e.ticksDue delta = .ok due) :
    0 ≤ due := by
  unfold ticksDue at hdue
  cases hreal : delta.toReal with
  | error f =>
    rw [hreal] at hdue
    cases hdue
  | ok seconds =>
    rw [hreal] at hdue
    have hsum := Binary64.isNegative_add h (Number.atLeastZero_toReal hforward hreal)
    cases hticks : ((e.accumulator.add seconds).divMod tickPeriod).1.toInt? with
    | error f =>
      dsimp only at hdue
      rw [hticks] at hdue
      cases hdue
    | ok n =>
      dsimp only at hdue
      rw [hticks] at hdue
      cases hdue
      obtain ⟨hsign, hfinite, hzero⟩ := tickPeriod_pos
      exact Binary64.toInt?_divMod_nonneg hsum hsign hfinite hzero hticks

/-- Every call leaves a time that is not negative. -/
theorem accumulator_next (hrunner : e.runner = .execute) (h : e.accumulator.isNegative = false)
    (c : Call) : (c.next e).accumulator.isNegative = false := by
  cases c with
  | load program =>
    obtain hnext | ⟨-, _, -, hnext⟩ := Call.next_load program e <;> rw [hnext] <;> exact h
  | reset =>
    rw [Call.next_reset]
    rfl
  | keyDown key =>
    rw [Call.next_keyDown]
    split <;> exact h
  | keyUp key =>
    rw [Call.next_keyUp]
    split <;> exact h
  | cycle delta =>
    have hcycle := cycle_cases hrunner delta
    rw [Call.next_cycle]
    generalize e.cycle delta = r at hcycle ⊢
    cases hcycle with
    | unloaded => exact h
    | backwards => exact h
    | untimed _ hforward => exact timeLeft_nonneg h hforward
    | waited htimed =>
      rw [close_eq]
      exact timeLeft_nonneg h htimed.forward
    | unfetched htimed => exact timeLeft_nonneg h htimed.forward
    | refused htimed =>
      rw [poised_eq]
      exact timeLeft_nonneg h htimed.forward
    | completed htimed =>
      rw [close_eq, poised_eq]
      exact timeLeft_nonneg h htimed.forward
  | trace on => exact h
  | listen name => exact h

/-- **The time that is kept is never negative**, whatever has been rounded on the way. -/
theorem accumulator_nonneg (random : RandomSource) (hasTone : Bool) (calls : List Call) :
    ((new random hasTone).after calls).accumulator.isNegative = false := by
  suffices h : ∀ e : Emulator, e.Sound ∧ e.accumulator.isNegative = false →
      (e.after calls).Sound ∧ (e.after calls).accumulator.isNegative = false from
    (h _ ⟨sound_new random hasTone, rfl⟩).2
  intro e h
  exact after_induction (P := fun e => e.Sound ∧ e.accumulator.isNegative = false)
    (fun c e h => ⟨h.1.next c, accumulator_next h.1.runner h.2 c⟩) calls h

end Emulator

end ChipEight
