import ChipEight.Proofs.Emulator.Tone
import ChipEight.Session.Run

/-!
# The tone of a session is in step with its emulator

A session passes on to its tone what the emulator sends about it.  A report is `Steady` if the last
of that is what the emulator itself takes for granted afterwards, and if nothing happens to those
parts of the emulator that the session has fitted it with.  All that a session has its emulator do is
steady.

So the tone of a session stays `InTune`: at any time it is the tone of the beginning, playing exactly
if the emulator has switched it on (`InTune.rounds`).
-/

namespace ChipEight

open Emulator

/-- An emulator is left with what it has sent about the tone, and is fitted out as before. -/
structure Steady (e after : Emulator) (events : List Event) : Prop where
  playing : e.hasTone = true → after.tonePlaying = (tones events).getLastD e.tonePlaying
  fitted : e.FittedAs after

namespace Steady

variable {e f g : Emulator} {events more : List Event}

theorem refl (e : Emulator) : Steady e e [] := ⟨fun _ => rfl, .refl e⟩

theorem trans (h : Steady e f events) (h' : Steady f g more) : Steady e g (events ++ more) where
  playing htone := by
    have hlast := h'.playing (h.fitted.hasTone.trans htone)
    rw [h.playing htone] at hlast
    rw [hlast, tones_append, List.getLastD_eq_getLast?, List.getLastD_eq_getLast?,
      List.getLastD_eq_getLast?, List.getLast?_append, Option.getD_or]
  fitted := h.fitted.trans h'.fitted

theorem andThen {α β : Type} {r : Report α} (h : Steady e r.emulator r.events)
    {next : Emulator → α → Report β}
    (hnext : ∀ a, Steady r.emulator (next r.emulator a).emulator (next r.emulator a).events) :
    Steady e (r.andThen next).emulator (r.andThen next).events := by
  cases hresult : r.result with
  | error fault =>
    rw [Report.andThen_of_error hresult]
    exact h
  | ok a =>
    rw [Report.andThen_of_ok hresult]
    exact h.trans (hnext a)

/-- What switches the tone to a level leaves the emulator with the last that it has sent. -/
theorem playing_of_tunes {level? : Option Bool} (h : Tunes level? e f events) :
    f.tonePlaying = (tones events).getLastD e.tonePlaying := by
  rw [h.left, h.sent]
  cases level? with
  | none => rfl
  | some level =>
    by_cases hchange : level = e.tonePlaying
    · rw [Option.filter_some_neg (by simp [hchange]), hchange]
      rfl
    · rw [Option.filter_some_pos (by simp [hchange])]
      rfl

/-- A call that does not fit the emulator out anew is steady. -/
theorem report (hrunner : e.runner = .execute) {c : Call} (hfits : c.fits = false) :
    Steady e (c.next e) (c.report e).events where
  playing htone := playing_of_tunes (c.tunes hrunner htone)
  fitted := fittedAs_next hrunner hfits

theorem load (hrunner : e.runner = .execute) (program : List UInt8) :
    Steady e (e.load program).emulator (e.load program).events :=
  report (c := .load program) hrunner rfl

theorem reset (hrunner : e.runner = .execute) : Steady e e.reset.emulator e.reset.events :=
  report (c := .reset) hrunner rfl

theorem keyDown (hrunner : e.runner = .execute) (key : Int) :
    Steady e (e.keyDown key).emulator (e.keyDown key).events :=
  report (c := .keyDown key) hrunner rfl

theorem keyUp (hrunner : e.runner = .execute) (key : Int) :
    Steady e (e.keyUp key).emulator (e.keyUp key).events :=
  report (c := .keyUp key) hrunner rfl

theorem cycle (hrunner : e.runner = .execute) (delta : Number) :
    Steady e (e.cycle delta).emulator (e.cycle delta).events :=
  report (c := .cycle delta) hrunner rfl

theorem cycles (hrunner : e.runner = .execute) (delta : Number) (n : Nat) :
    Steady e (e.cycles delta n).emulator (e.cycles delta n).events := by
  induction n generalizing e with
  | zero => exact refl e
  | succ n ih =>
    have hfirst := cycle hrunner delta
    exact hfirst.andThen fun _ => ih (hfirst.fitted.runner.trans hrunner)

/-- The keypad hands on no more than a key. -/
theorem handle (hrunner : e.runner = .execute) (keypad : Keypad) (event : InputEvent) :
    Steady e (keypad.handle event e).emulator (keypad.handle event e).events := by
  cases event with
  | keyDown code =>
    simp only [Keypad.handle]
    cases keypad.key? code with
    | none => exact refl e
    | some key => exact (keyDown hrunner key).andThen fun _ => refl _
  | keyUp code =>
    simp only [Keypad.handle]
    cases keypad.key? code with
    | none => exact refl e
    | some key => exact (keyUp hrunner key).andThen fun _ => refl _
  | quit => exact refl e
  | other => exact refl e

end Steady

/-- A piece of a session leaves a stage of some kind, whether the session goes on or not. -/
def Turn.Leaves {α : Type} (P : Stage → Prop) (t : Turn α) : Prop :=
  P t.stage

/-- A kind of stage that two pieces of a session leave is left by both together. -/
theorem Turn.Leaves.andThen {P : Stage → Prop} {α β : Type} {t : Turn α} (h : t.Leaves P)
    {next : Stage → α → Turn β} (hnext : ∀ s a, P s → (next s a).Leaves P) :
    (t.andThen next).Leaves P := by
  unfold Turn.andThen
  cases t.result with
  | error halt => exact h
  | ok a => exact hnext t.stage a h

namespace Stage

/-- A tone that is set plays or not as it is told, whatever it did before. -/
theorem set_tone (playing : Bool) (t : Tone) : (t.set playing).1 = { t with playing } := by
  obtain ⟨wave, channels, was⟩ := t
  cases playing <;> cases was <;> rfl

theorem relay_tone (tone : Option Tone) (event : Event) :
    (relay tone event).1 = tone.map fun t => { t with playing := event.tone?.getD t.playing } := by
  cases event with
  | tone playing =>
    cases tone with
    | none => rfl
    | some t => exact congrArg some (set_tone playing t)
  | heard _ _ argument => cases argument <;> cases tone <;> rfl
  | word | logged => cases tone <;> rfl

/-- The tone plays in the end if the last that was sent about it was a start. -/
theorem relayAll_tone (tone : Option Tone) (events : List Event) :
    (relayAll tone events).1 =
      tone.map fun t => { t with playing := (tones events).getLastD t.playing } := by
  induction events generalizing tone with
  | nil => cases tone <;> rfl
  | cons event events ih =>
    have hrest : (relayAll tone (event :: events)).1 = (relayAll (relay tone event).1 events).1 := rfl
    rw [hrest, ih, relay_tone, Option.map_map]
    congr 1
    funext t
    cases hlevel : event.tone? with
    | none => simp [tones, List.filterMap_cons_none hlevel]
    | some playing =>
      simp only [tones, List.filterMap_cons_some hlevel, List.getLastD_cons, Option.getD_some,
        Function.comp_apply]

/-- The tone is that of the first stage, and plays if the emulator has switched it on; the emulator
executes what it fetches, has the tone, and is fitted out as at the first stage. -/
structure InTune (first s : Stage) : Prop where
  tone : s.tone = first.tone.map fun t => { t with playing := s.emulator.tonePlaying }
  runner : s.emulator.runner = .execute
  hasTone : s.emulator.hasTone = first.tone.isSome
  fitted : first.emulator.FittedAs s.emulator

namespace InTune

variable {first s : Stage} {session : Session}

/-- What the emulator does steadily keeps the tone in step. -/
theorem perform (h : first.InTune s) {α : Type} {operation : Emulator → Report α}
    (hsteady : Steady s.emulator (operation s.emulator).emulator (operation s.emulator).events) :
    (s.perform operation).Leaves first.InTune where
  tone := by
    have htone : (s.perform operation).stage.tone =
        (relayAll s.tone (operation s.emulator).events).1 := rfl
    rw [htone, relayAll_tone, h.tone]
    cases hfirst : first.tone with
    | none => rfl
    | some t =>
      have hplaying := hsteady.playing (by rw [h.hasTone, hfirst]; rfl)
      exact congrArg (fun playing => some { t with playing }) hplaying.symm
  runner := hsteady.fitted.runner.trans h.runner
  hasTone := hsteady.fitted.hasTone.trans h.hasTone
  fitted := h.fitted.trans hsteady.fitted

theorem load (h : first.InTune s) : (session.load s).Leaves first.InTune := by
  refine Turn.Leaves.andThen (h.perform (.load h.runner _)) fun s loaded h => ?_
  cases loaded <;> exact h

theorem handle (h : first.InTune s) (event : InputEvent) :
    (session.handle event s).Leaves first.InTune := by
  unfold Session.handle
  split
  · exact h
  split
  · exact Turn.Leaves.andThen (h.perform (.reset h.runner)) fun _ _ h => h.load
  · exact Turn.Leaves.andThen (h.perform (.handle h.runner _ _)) fun _ _ h => h

theorem handleAll (h : first.InTune s) (events : List InputEvent) :
    (session.handleAll events s).Leaves first.InTune := by
  induction events generalizing s with
  | nil => exact h
  | cons event events ih => exact (h.handle event).andThen fun _ _ h => ih h

theorem runCycles (h : first.InTune s) (milliseconds : Int) :
    (session.runCycles milliseconds s).Leaves first.InTune := by
  unfold Session.runCycles
  exact Turn.Leaves.andThen (t := Turn.ofResult _ s _) h fun _ _ h =>
    h.perform (.cycles h.runner _ _)

theorem round (h : first.InTune s) (r : Round) : (session.round r s).Leaves first.InTune := by
  unfold Session.round
  refine (h.handleAll r.input).andThen fun s _ h => ?_
  refine Turn.Leaves.andThen (t := Turn.send s _) h fun _ _ h => ?_
  exact (h.runCycles r.milliseconds).andThen fun _ _ h => h

/-- **The tone stays in step with the emulator** through any rounds, whether they end the session or
not. -/
theorem rounds (h : first.InTune s) (rounds : List Round) :
    (session.rounds rounds s).Leaves first.InTune := by
  induction rounds generalizing s with
  | nil => exact h
  | cons r rounds ih => exact (h.round r).andThen fun _ _ h => ih h

end InTune

end Stage

end ChipEight
