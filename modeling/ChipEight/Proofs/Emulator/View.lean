import ChipEight.Proofs.Emulator.Cycle

/-!
# Emulators seen through a view

A view shows an emulator with some of its parts exchanged, and hides some of the events that it
sends.  An operation goes `Through` a view if it makes no difference whether the view is taken before
the operation or after it.

`Through.andThen` puts operations together.  A view is `Plain` if all that a cycle does around its
step goes through it; then the cycle goes through wherever the step does (`Plain.cycle`).
-/

namespace ChipEight

/-- A way to look at an emulator and at what it sends. -/
structure View where
  emulator : Emulator → Emulator
  shows : Event → Bool

namespace View

variable {α β : Type}

/-- A report as the view shows it. -/
def report (v : View) (r : Report α) : Report α :=
  ⟨v.emulator r.emulator, r.events.filter v.shows, r.result⟩

/-- An operation does to the emulator that is shown what it is shown to do. -/
def Through (v : View) (operation : Emulator → Report α) (e : Emulator) : Prop :=
  operation (v.emulator e) = v.report (operation e)

/-- A view that exchanges nothing which a cycle looks at around its step. -/
structure Plain (v : View) : Prop where
  loaded (e : Emulator) : (v.emulator e).loaded = e.loaded
  waiting (e : Emulator) : (v.emulator e).machine.waiting = e.machine.waiting
  counter (e : Emulator) : (v.emulator e).machine.counter = e.machine.counter
  soundTimer (e : Emulator) : (v.emulator e).machine.soundTimer = e.machine.soundTimer
  /-- A line of the trace is announced within the step. -/
  emit {signal : Signal} (h : signal ≠ .traceLine) (argument : Argument) (e : Emulator) :
    v.Through (Emulator.emit signal argument) e
  advanceClock (delta : Number) (e : Emulator) : v.Through (Emulator.advanceClock delta) e
  setTone (playing : Bool) (e : Emulator) : v.Through (Emulator.setTone playing) e

variable {v : View} {e : Emulator}

theorem Through.pure (a : α) : v.Through (Report.pure · a) e := rfl

/-- What follows on an operation starts from what the operation has left. -/
theorem Through.andThen {operation : Emulator → Report α} {next : Emulator → α → Report β}
    (h : v.Through operation e)
    (hnext : ∀ a, (operation e).result = .ok a →
      v.Through (next · a) (operation e).emulator) :
    v.Through (fun e => (operation e).andThen next) e := by
  unfold Through at h
  show (operation (v.emulator e)).andThen next = v.report ((operation e).andThen next)
  rw [h]
  cases hresult : (operation e).result with
  | error f =>
    have hshown : (v.report (operation e)).result = .error f := hresult
    rw [Report.andThen_of_error hshown, Report.andThen_of_error hresult]
    rfl
  | ok a =>
    have hshown : (v.report (operation e)).result = .ok a := hresult
    have hrest : next (v.emulator (operation e).emulator) a =
        v.report (next (operation e).emulator a) := hnext a hresult
    rw [Report.andThen_of_ok hshown, Report.andThen_of_ok hresult]
    simp only [report, hrest, List.filter_append]

/-- The form of the result does not matter. -/
theorem Through.map {operation : Emulator → Report α} (h : v.Through operation e) (f : α → β) :
    v.Through (fun e => (operation e).map f) e := by
  unfold Through at h
  show (operation (v.emulator e)).map f = v.report ((operation e).map f)
  rw [h]
  rfl

/-- Announcing the counter goes through. -/
theorem Plain.announce (h : v.Plain) {signal : Signal} (hsignal : signal ≠ .traceLine)
    (e : Emulator) :
    v.Through (fun e => Emulator.emit signal (.address e.machine.counter) e) e := by
  show Emulator.emit signal (.address (v.emulator e).machine.counter) (v.emulator e) = _
  rw [h.counter]
  exact h.emit hsignal _ e

/-- So does the end of a cycle. -/
theorem Plain.close (h : v.Plain) (e : Emulator) : v.Through (Emulator.close []) e := by
  unfold Through Emulator.close
  rw [h.soundTimer]
  exact Through.andThen (h.setTone _ e) fun _ _ => h.announce (by decide) _

/-- What a cycle does after the clock has advanced goes through if its step does, -/
theorem Plain.finish (h : v.Plain) (hstep : e.machine.waiting = false → v.Through Emulator.step e) :
    v.Through Emulator.finish e := by
  unfold Through Emulator.finish
  rw [h.waiting]
  cases hwaiting : e.machine.waiting with
  | true => exact Through.andThen (.pure ()) fun _ _ => h.close _
  | false => exact Through.andThen (hstep hwaiting) fun _ _ => h.close _

/-- and then it does so with the clock. -/
theorem Plain.advance (h : v.Plain) {delta : Number}
    (hstep : ∀ due, e.ticksDue delta = .ok due → e.machine.waiting = false →
      v.Through Emulator.step (e.elapse delta due)) :
    v.Through (fun e => (e.advanceClock delta).andThen fun e _ => e.finish) e := by
  refine Through.andThen (h.advanceClock delta e) fun a hadvanced => ?_
  have hclock := Emulator.advanceClock_eq delta e
  cases hdue : e.ticksDue delta with
  | error f =>
    rw [hdue] at hclock
    rw [hclock] at hadvanced
    cases hadvanced
  | ok due =>
    rw [hdue] at hclock
    rw [hclock]
    refine h.finish fun hwaiting => hstep due hdue ?_
    exact (Emulator.waiting_elapse delta due e).symm.trans hwaiting

/-- **A cycle goes through a plain view if its step does.** -/
theorem Plain.cycle (h : v.Plain) {delta : Number}
    (hstep : ∀ due, Emulator.Timed delta due e → e.machine.waiting = false →
      v.Through Emulator.step (e.elapse delta due)) :
    v.Through (Emulator.cycle delta) e := by
  unfold Through Emulator.cycle
  rw [h.loaded]
  split
  · rfl
  next hloaded =>
  split
  · rfl
  next hforward =>
  refine Through.andThen (h.announce (by decide) e) fun _ _ => h.advance fun due hdue => ?_
  exact hstep due ⟨by simpa using hloaded, by simpa using hforward, hdue⟩

end View

end ChipEight
