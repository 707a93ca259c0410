import Mathlib.Data.List.Destutter
import ChipEight.Proofs.Emulator.Bounds
import ChipEight.Proofs.Emulator.Sent

/-!
# The tone follows the sound timer

A cycle that succeeds asks for the tone if the sound timer still runs, and a reset asks for silence.
No other call has a say in it: neither the others nor a cycle that fails.  `Call.level?` is the
level that a call asks for, and `Call.tunes` says that a call sends the change to that level, if it
is one, and nothing else about the tone.

Along a run the levels that are asked for form a list, which begins at silence.  `tone_edges` says
that what is sent about the tone is that list with every repetition left out: the starts and stops
are the edges of the sound timer, as it stands at the ends of the cycles.
-/

namespace ChipEight

open Emulator

/-- The level that a cycle asks for at its end: whether the sound timer still runs. -/
def Report.level? (r : Report Unit) : Option Bool :=
  match r.result with
  | .ok () => some (0 < r.emulator.machine.soundTimer)
  | .error _ => none

/-- The level of the tone that a call asks for, if it does. -/
def Call.level? (c : Call) (e : Emulator) : Option Bool :=
  match c with
  | reset => some false
  | cycle delta => (e.cycle delta).level?
  | load _ | keyDown _ | keyUp _ | trace _ | listen _ => none

/-- A report on an emulator switches the tone to a level, if there is one, and sends that only if it
is a change. -/
structure Tunes (level? : Option Bool) (e after : Emulator) (events : List Event) : Prop where
  sent : tones events = (level?.filter (· ≠ e.tonePlaying)).toList
  left : after.tonePlaying = level?.getD e.tonePlaying

namespace Emulator

variable {e : Emulator}

/-- Switching the tone sends the change. -/
theorem tones_setTone_of_hasTone (htone : e.hasTone = true) (playing : Bool) :
    tones (setTone playing e).events = ((some playing).filter (· ≠ e.tonePlaying)).toList := by
  rw [tones_setTone]
  by_cases hchange : playing = e.tonePlaying <;> simp [Option.filter, htone, hchange]

/-- The end of a cycle switches the tone to what the sound timer says. -/
theorem tunes_close (htone : e.hasTone = true) {before : Emulator} {sent : List Event}
    (hsent : tones sent = []) (hplaying : e.tonePlaying = before.tonePlaying) :
    Tunes (e.close sent).level? before (e.close sent).emulator (e.close sent).events := by
  rw [close_eq]
  refine ⟨?_, rfl⟩
  rw [tones_close, hsent, tones_setTone_of_hasTone htone, hplaying]
  rfl

/-- A cycle switches the tone to its level. -/
theorem tunes_cycle (hrunner : e.runner = .execute) (htone : e.hasTone = true) (delta : Number) :
    Tunes (e.cycle delta).level? e (e.cycle delta).emulator (e.cycle delta).events := by
  have hcycle := cycle_cases hrunner delta
  generalize e.cycle delta = r at hcycle ⊢
  cases hcycle with
  | unloaded => exact ⟨rfl, rfl⟩
  | backwards => exact ⟨rfl, rfl⟩
  | untimed => exact ⟨tones_opening e, rfl⟩
  | @waited due => exact tunes_close (e := e.elapse delta due) htone (tones_opening e) rfl
  | unfetched => exact ⟨tones_opening e, rfl⟩
  | refused =>
    rw [poised_eq]
    exact ⟨by simp [sentPoised, Report.level?], rfl⟩
  | @completed due word fetched =>
    have hsent : tones (e.sentPoised delta due word fetched) = [] := by simp [sentPoised]
    rw [poised_eq]
    exact tunes_close (by exact htone) hsent rfl

end Emulator

namespace Call

variable {e : Emulator}

/-- Only a reset and a cycle send anything about the tone. -/
theorem tones_load (program : List UInt8) (e : Emulator) :
    tones ((load program).report e).events = [] := by
  simp only [report, Emulator.load]
  split
  · rfl
  · cases e.machine.load program <;> rfl

theorem tones_keyDown (key : Int) (e : Emulator) :
    tones ((keyDown key).report e).events = [] := by
  simp only [report, Emulator.keyDown]
  split
  · split <;> rfl
  · rfl

theorem tones_keyUp (key : Int) (e : Emulator) : tones ((keyUp key).report e).events = [] := by
  simp only [report, Emulator.keyUp]
  split <;> rfl

/-- A reset sends the change to silence. -/
theorem tones_reset (e : Emulator) :
    tones (reset.report e).events = tones (setTone false e).events := by
  have hevents : (reset.report e).events =
      .logged (.info "Resetting emulator...") :: (setTone false e).events :=
    congrArg Report.events (reset_eq e)
  rw [hevents]
  rfl

/-- **A call switches the tone to the level that it asks for**, and sends that if it is a change. -/
theorem tunes (hrunner : e.runner = .execute) (htone : e.hasTone = true) (c : Call) :
    Tunes (c.level? e) e (c.next e) (c.report e).events := by
  cases c with
  | load program =>
    obtain hnext | ⟨-, _, -, hnext⟩ := next_load program e <;> rw [hnext]
    · exact ⟨tones_load program e, rfl⟩
    · exact ⟨tones_load program e, rfl⟩
  | reset =>
    rw [next_reset]
    exact ⟨(tones_reset e).trans (tones_setTone_of_hasTone htone false), rfl⟩
  | keyDown key =>
    rw [next_keyDown]
    split <;> exact ⟨tones_keyDown key e, rfl⟩
  | keyUp key =>
    rw [next_keyUp]
    split <;> exact ⟨tones_keyUp key e, rfl⟩
  | cycle delta => exact tunes_cycle hrunner htone delta
  | trace on => exact ⟨rfl, rfl⟩
  | listen name => exact ⟨rfl, rfl⟩

end Call

namespace Emulator

/-- A run sends the changes of the tone to the levels that its calls ask for, and leaves the tone at
the last of them. -/
theorem tones_sent {e : Emulator} (h : e.Sound) (htone : e.hasTone = true) (calls : List Call) :
    e.tonePlaying :: tones (sent calls e) =
        (observed Call.level? calls e).destutter' (· ≠ ·) e.tonePlaying ∧
      (e.after calls).tonePlaying = (tones (sent calls e)).getLastD e.tonePlaying := by
  induction calls generalizing e with
  | nil => exact ⟨rfl, rfl⟩
  | cons c calls ih =>
    obtain ⟨hsent, hleft⟩ := Call.tunes h.runner htone c
    obtain ⟨hrest, hlast⟩ := ih (h.next c) ((hasTone_after h.runner [c]).trans htone)
    rw [sent, tones_append, hsent, observed, after_cons, hlast]
    cases hlevel : c.level? e with
    | none =>
      rw [hlevel, Option.getD_none] at hleft
      rw [hleft] at hrest ⊢
      exact ⟨hrest, rfl⟩
    | some level =>
      rw [hlevel, Option.getD_some] at hleft
      rw [hleft] at hrest ⊢
      rw [Option.toList_some, List.singleton_append, List.destutter'_cons]
      by_cases hchange : level = e.tonePlaying
      · -- The level is the one that the tone has already: the list stutters here.
        rw [if_neg (by simp [hchange]), Option.filter_some_neg (by simp [hchange])]
        rw [hchange] at hrest ⊢
        exact ⟨hrest, rfl⟩
      · rw [if_pos (Ne.symm hchange), Option.filter_some_pos (by simp [hchange]), ← hrest]
        exact ⟨rfl, (List.getLastD_cons ..).symm⟩

/-- **The tone follows the edges of the sound timer.**  Take any run of a new emulator with something
that plays the tone, and list the levels that its calls ask for: whether the sound timer runs at the
end of each cycle that succeeds, and silence at each reset.  The starts and stops that are sent are
the changes along this list, from silence at the beginning.  So they alternate, beginning with a
start, and the tone is on exactly if the last of them was a start.  A cycle that succeeds leaves the
tone as the sound timer says, and one that fails sends nothing about it. -/
theorem tone_edges (random : RandomSource) (calls : List Call) :
    let e := (new random true).after calls
    let switched := tones (sent calls (new random true))
    let levels := observed Call.level? calls (new random true)
    false :: switched = (false :: levels).destutter (· ≠ ·) ∧
    (false :: switched).IsChain (· ≠ ·) ∧
    e.tonePlaying = switched.getLastD false ∧
    ∀ delta, match (e.cycle delta).result with
      | .ok () => (e.cycle delta).emulator.tonePlaying =
          decide (0 < (e.cycle delta).emulator.machine.soundTimer)
      | .error _ => tones (e.cycle delta).events = [] := by
  intro e switched levels
  have hsound : e.Sound := sound_after random true calls
  have htone : e.hasTone = true := hasTone_after (e := new random true) rfl calls
  obtain ⟨hedges, hlast⟩ : false :: switched = levels.destutter' (· ≠ ·) false ∧ _ :=
    tones_sent (sound_new random true) rfl calls
  refine ⟨hedges, ?_, hlast, ?_⟩
  · rw [hedges]
    exact List.isChain_destutter' ..
  · intro delta
    obtain ⟨hsent, hleft⟩ := tunes_cycle hsound.runner htone delta
    unfold Report.level? at hsent hleft
    cases hresult : (e.cycle delta).result with
    | ok _ =>
      rw [hresult] at hleft
      exact hleft
    | error _ =>
      rw [hresult] at hsent
      exact hsent

end Emulator

end ChipEight
