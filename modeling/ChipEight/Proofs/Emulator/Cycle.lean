import ChipEight.Proofs.Emulator.Call
import ChipEight.Proofs.Machine.Footprint

/-!
# Everything that a cycle can come to

A cycle is a sequence of effects that can break off in several places: its time step is checked, the
clock advances, a word is fetched and traced, the word is executed, and the tone follows the sound
timer.  `Cycled` lists all that can come of it, one constructor for each place where it ends, with
the conditions under which it gets there and the whole report that it answers with.

`cycle_cases` says that the list is complete.  What is proved of cycles afterwards is proved for
the constructors, and the cycle itself is not taken apart again.
-/

namespace ChipEight

namespace Emulator

/-- The whole ticks that are due some time later. -/
def ticksDue (delta : Number) (e : Emulator) : Except NumberFault Int :=
  match delta.toReal with
  | .error f => .error f
  | .ok seconds => ((e.accumulator.add seconds).divMod tickPeriod).1.toInt?.mapError .conversion

/-- The time that is left when the ticks that are due are taken off. -/
def timeLeft (delta : Number) (e : Emulator) : Binary64 :=
  match delta.toReal with
  | .error _ => e.accumulator
  | .ok seconds => ((e.accumulator.add seconds).divMod tickPeriod).2

/-- The emulator some time later, with so many ticks due. -/
def elapse (delta : Number) (due : Int) (e : Emulator) : Emulator :=
  { e with
    accumulator := e.timeLeft delta
    machine := e.machine.ticks (min due maxTicks).toNat }

/-- A cycle gets under way: there is a program, time does not run backwards, and so many whole ticks
are due. -/
structure Timed (delta : Number) (due : Int) (e : Emulator) : Prop where
  loaded : e.loaded = true
  forward : Number.le (.integer 0) delta = true
  ticks : e.ticksDue delta = .ok due

/-- What is sent when a cycle begins. -/
def opening (e : Emulator) : List Event :=
  (emit .beforeCycle (.address e.machine.counter) e).events

/-- The end of a cycle, with what it has sent so far: the tone follows the sound timer. -/
def close (sent : List Event) (e : Emulator) : Report Unit :=
  let r := (setTone (0 < e.machine.soundTimer) e).andThen fun e _ =>
    emit .afterCycle (.address e.machine.counter) e
  { r with events := sent ++ r.events }

/-- The emulator with a line about a fetched word in its trace, if tracing is on. -/
def traced (word : Int) (e : Emulator) : Emulator :=
  if e.tracing then { e with trace := e.trace.push (traceLine word e.machine) } else e

/-- The emulator right before a fetched word is executed. -/
def poised (delta : Number) (due word : Int) (fetched : Machine) (e : Emulator) : Emulator :=
  traced word { e.elapse delta due with machine := fetched }

/-- What a cycle has sent when a fetched word is about to be executed. -/
def sentPoised (delta : Number) (due word : Int) (fetched : Machine) (e : Emulator) : List Event :=
  e.opening ++ (traceWord word { e.elapse delta due with machine := fetched }).events

/-- Everything that a cycle can come to, with its report. -/
inductive Cycled (delta : Number) (e : Emulator) : Report Unit → Prop
  | unloaded (hloaded : e.loaded = false) : Cycled delta e (.fail e .notLoaded)
  | backwards (hloaded : e.loaded = true) (hforward : Number.le (.integer 0) delta = false) :
    Cycled delta e (.fail e .negativeStep)
  /-- The clock has no whole number of ticks for the time step. -/
  | untimed {f : NumberFault} (hloaded : e.loaded = true)
      (hforward : Number.le (.integer 0) delta = true) (hdue : e.ticksDue delta = .error f) :
    Cycled delta e ⟨{ e with accumulator := e.timeLeft delta }, e.opening, .error (.clock f)⟩
  /-- A key is waited for, and no word is fetched. -/
  | waited {due : Int} (htimed : Timed delta due e) (hwaiting : e.machine.waiting = true) :
    Cycled delta e ((e.elapse delta due).close e.opening)
  | unfetched {due : Int} {f : Fault} (htimed : Timed delta due e)
      (hwaiting : e.machine.waiting = false)
      (hfetch : (e.elapse delta due).machine.fetch = .error f) :
    Cycled delta e ⟨e.elapse delta due, e.opening, .error (.machine f)⟩
  /-- The fetched word is refused. -/
  | refused {due word : Int} {fetched stopped : Machine} {f : Fault} {random : RandomSource}
      (htimed : Timed delta due e) (hwaiting : e.machine.waiting = false)
      (hfetch : (e.elapse delta due).machine.fetch = .ok (word, fetched))
      (hrun : fetched.runWord word e.random = (.stopped stopped f, random)) :
    Cycled delta e
      ⟨{ e.poised delta due word fetched with machine := stopped, random },
        e.sentPoised delta due word fetched ++ (f.notice?.map Event.logged).toList,
        .error (.machine f)⟩
  | completed {due word : Int} {fetched done : Machine} {random : RandomSource}
      (htimed : Timed delta due e) (hwaiting : e.machine.waiting = false)
      (hfetch : (e.elapse delta due).machine.fetch = .ok (word, fetched))
      (hrun : fetched.runWord word e.random = (.done done, random)) :
    Cycled delta e
      (close (e.sentPoised delta due word fetched)
        { e.poised delta due word fetched with machine := done, random })

variable {delta : Number} {e : Emulator}

/-- The clock advances by what is due, or fails with no tick. -/
theorem advanceClock_eq (delta : Number) (e : Emulator) :
    e.advanceClock delta = match e.ticksDue delta with
      | .error f => .fail { e with accumulator := e.timeLeft delta } (.clock f)
      | .ok due => .pure (e.elapse delta due) () := by
  unfold advanceClock ticksDue timeLeft elapse
  cases hreal : delta.toReal with
  | error f => rfl
  | ok seconds =>
    cases hdue : ((e.accumulator.add seconds).divMod tickPeriod).1.toInt? with
    | error f =>
      simp only [hdue]
      rfl
    | ok due =>
      simp only [hdue, timeLeft, hreal]
      rfl

/-- Tracing a word adds its line and sends it. -/
theorem traceWord_eq (word : Int) (e : Emulator) :
    e.traceWord word = ⟨e.traced word, (e.traceWord word).events, .ok ()⟩ := by
  unfold traceWord traced
  split <;> rfl

/-- A word that is executed to its end leaves its machine and sends nothing. -/
theorem runWord_of_done (hrunner : e.runner = .execute) {word : Int} {after : Machine}
    {random : RandomSource} (h : e.machine.runWord word e.random = (.done after, random)) :
    e.runWord word = .pure { e with machine := after, random } () := by
  unfold runWord
  rw [hrunner]
  simp only [h]
  rfl

/-- A word that is refused may be noted in the log. -/
theorem runWord_of_stopped (hrunner : e.runner = .execute) {word : Int} {after : Machine}
    {f : Fault} {random : RandomSource}
    (h : e.machine.runWord word e.random = (.stopped after f, random)) :
    e.runWord word =
      ⟨{ e with machine := after, random }, (f.notice?.map Event.logged).toList,
        .error (.machine f)⟩ := by
  unfold runWord
  rw [hrunner]
  simp only [h]
  rfl

/-- The end of a cycle switches the tone and succeeds. -/
theorem close_eq (sent : List Event) (e : Emulator) :
    e.close sent =
      ⟨{ e with tonePlaying := decide (0 < e.machine.soundTimer) }, (e.close sent).events,
        .ok ()⟩ := by
  unfold close
  rw [setTone_eq]
  rfl

@[simp] theorem traced_machine (word : Int) (e : Emulator) :
    (e.traced word).machine = e.machine := by
  unfold traced
  split <;> rfl

@[simp] theorem poised_machine (delta : Number) (due word : Int) (fetched : Machine)
    (e : Emulator) : (e.poised delta due word fetched).machine = fetched :=
  traced_machine ..

@[simp] theorem poised_random (delta : Number) (due word : Int) (fetched : Machine)
    (e : Emulator) : (e.poised delta due word fetched).random = e.random := by
  unfold poised traced
  split <;> rfl

@[simp] theorem poised_runner (delta : Number) (due word : Int) (fetched : Machine)
    (e : Emulator) : (e.poised delta due word fetched).runner = e.runner := by
  unfold poised traced
  split <;> rfl

@[simp] theorem poised_loaded (delta : Number) (due word : Int) (fetched : Machine)
    (e : Emulator) : (e.poised delta due word fetched).loaded = e.loaded := by
  unfold poised traced
  split <;> rfl

/-- Before the word is executed, only the clock, the machine and the trace are different. -/
theorem poised_eq (delta : Number) (due word : Int) (fetched : Machine) (e : Emulator) :
    e.poised delta due word fetched =
      { e with
        accumulator := e.timeLeft delta
        machine := fetched
        trace := if e.tracing then e.trace.push (traceLine word fetched) else e.trace } := by
  unfold poised traced elapse
  cases e.tracing <;> rfl

/-- A fetched word is traced and then executed. -/
theorem step_of_fetch {w : Int} {fetched : Machine} (h : e.machine.fetch = .ok (w, fetched)) :
    e.step =
      { (traced w { e with machine := fetched }).runWord w with
        events := (traceWord w { e with machine := fetched }).events ++
          ((traced w { e with machine := fetched }).runWord w).events } := by
  unfold step
  simp only [h]
  rw [traceWord_eq, Report.andThen_of_ok (a := ()) rfl]

/-- What a cycle does after the clock has advanced. -/
def finish (e : Emulator) : Report Unit :=
  (if e.machine.waiting then .pure e () else step e).andThen fun e _ => e.close []

/-- A cycle that gets under way begins with its signal and the clock, and then finishes. -/
theorem cycle_of_timed {due : Int} (h : Timed delta due e) :
    e.cycle delta =
      { (e.elapse delta due).finish with
        events := e.opening ++ (e.elapse delta due).finish.events } := by
  have hclock : e.advanceClock delta = .pure (e.elapse delta due) () := by
    rw [advanceClock_eq, h.ticks]
  have hcycle : e.cycle delta =
      ((emit .beforeCycle (.address e.machine.counter) e).andThen fun e _ =>
        (e.advanceClock delta).andThen fun e _ => e.finish) := by
    unfold cycle
    rw [if_neg (by simp [h.loaded]), if_neg (by simp [h.forward])]
    rfl
  rw [hcycle, Report.andThen_of_ok (a := ()) rfl]
  simp only [emit]
  rw [hclock]
  rfl

/-- What the clock leaves waits for a key as before. -/
theorem waiting_elapse (delta : Number) (due : Int) (e : Emulator) :
    (e.elapse delta due).machine.waiting = e.machine.waiting :=
  (Machine.same_ticks (p := .keyWait) _ e.machine (by decide)).1

/-- While a key is waited for, a cycle ends without fetching. -/
theorem finish_of_waiting (h : e.machine.waiting = true) : e.finish = e.close [] := by
  unfold finish
  rw [if_pos h]
  rfl

/-- Otherwise it makes one step and ends if that succeeds. -/
theorem finish_of_not_waiting (h : e.machine.waiting = false) :
    e.finish = e.step.andThen fun e _ => e.close [] := by
  unfold finish
  rw [if_neg (by simp [h])]

/-- Where the clock has no whole number of ticks, a cycle ends after its signal. -/
theorem cycle_of_untimed {f : NumberFault} (hloaded : e.loaded = true)
    (hforward : Number.le (.integer 0) delta = true) (hdue : e.ticksDue delta = .error f) :
    e.cycle delta = ⟨{ e with accumulator := e.timeLeft delta }, e.opening, .error (.clock f)⟩ := by
  have hclock : e.advanceClock delta =
      .fail { e with accumulator := e.timeLeft delta } (.clock f) := by
    rw [advanceClock_eq, hdue]
  unfold cycle
  rw [if_neg (by simp [hloaded]), if_neg (by simp [hforward]), Report.andThen_of_ok (a := ()) rfl]
  simp only [emit, hclock, Report.fail, Report.andThen, List.append_nil, opening]

/-- A cycle that fetches a word ends as the word does. -/
theorem cycled_of_fetch (hrunner : e.runner = .execute) {due word : Int} {fetched : Machine}
    (htimed : Timed delta due e) (hwaiting : e.machine.waiting = false)
    (hfetch : (e.elapse delta due).machine.fetch = .ok (word, fetched)) :
    Cycled delta e (e.cycle delta) := by
  have hexecute : (e.poised delta due word fetched).runner = .execute := by simp [hrunner]
  have hpoised : traced word { e.elapse delta due with machine := fetched } =
      e.poised delta due word fetched := rfl
  rcases hrun : fetched.runWord word e.random with ⟨outcome, random⟩
  have hword : (e.poised delta due word fetched).machine.runWord word
      (e.poised delta due word fetched).random = (outcome, random) := by simpa using hrun
  rw [cycle_of_timed htimed, finish_of_not_waiting (by rw [waiting_elapse, hwaiting]),
    step_of_fetch hfetch, hpoised]
  cases outcome with
  | done after =>
    rw [runWord_of_done hexecute hword, Report.andThen_of_ok (a := ()) rfl]
    simpa [close, sentPoised, Report.pure] using Cycled.completed htimed hwaiting hfetch hrun
  | stopped after f =>
    rw [runWord_of_stopped hexecute hword, Report.andThen_of_error (f := .machine f) rfl]
    simpa [sentPoised] using Cycled.refused htimed hwaiting hfetch hrun

/-- **Nothing else can come of a cycle** that executes what it fetches. -/
theorem cycle_cases (hrunner : e.runner = .execute) (delta : Number) :
    Cycled delta e (e.cycle delta) := by
  by_cases hloaded : e.loaded = true
  case neg =>
    rw [cycle, if_pos (by simpa using hloaded)]
    exact .unloaded (by simpa using hloaded)
  by_cases hforward : Number.le (.integer 0) delta = true
  case neg =>
    rw [cycle, if_neg (by simp [hloaded]), if_pos (by simpa using hforward)]
    exact .backwards hloaded (by simpa using hforward)
  cases hdue : e.ticksDue delta with
  | error f =>
    rw [cycle_of_untimed hloaded hforward hdue]
    exact .untimed hloaded hforward hdue
  | ok due =>
    have htimed : Timed delta due e := ⟨hloaded, hforward, hdue⟩
    cases hwaiting : e.machine.waiting with
    | true =>
      rw [cycle_of_timed htimed, finish_of_waiting (by rw [waiting_elapse, hwaiting])]
      exact .waited htimed hwaiting
    | false =>
      cases hfetch : (e.elapse delta due).machine.fetch with
      | error f =>
        have hstep : (e.elapse delta due).step = .fail (e.elapse delta due) (.machine f) := by
          simp only [step, hfetch]
        rw [cycle_of_timed htimed, finish_of_not_waiting (by rw [waiting_elapse, hwaiting]), hstep,
          Report.andThen_of_error (f := .machine f) rfl]
        simpa [Report.fail] using Cycled.unfetched htimed hwaiting hfetch
      | ok fetched => exact cycled_of_fetch hrunner htimed hwaiting hfetch

/-- A program stays loaded during a cycle. -/
theorem loaded_cycle (hrunner : e.runner = .execute) (delta : Number) :
    (e.cycle delta).emulator.loaded = e.loaded := by
  have hcycle := cycle_cases hrunner delta
  generalize e.cycle delta = r at hcycle ⊢
  cases hcycle with
  | unloaded | backwards | untimed | unfetched => rfl
  | waited =>
    rw [close_eq]
    rfl
  | @refused due word fetched => exact poised_loaded delta due word fetched e
  | @completed due word fetched =>
    rw [close_eq]
    exact poised_loaded delta due word fetched e

/-- A cycle leaves the emulator fitted out as it was. -/
theorem fittedAs_cycle (hrunner : e.runner = .execute) (delta : Number) :
    e.FittedAs (e.cycle delta).emulator := by
  have hcycle := cycle_cases hrunner delta
  generalize e.cycle delta = r at hcycle ⊢
  cases hcycle with
  | unloaded | backwards | untimed | unfetched => exact ⟨rfl, rfl, rfl, rfl⟩
  | waited =>
    rw [close_eq]
    exact ⟨rfl, rfl, rfl, rfl⟩
  | refused =>
    rw [poised_eq]
    exact ⟨rfl, rfl, rfl, rfl⟩
  | completed =>
    rw [close_eq, poised_eq]
    exact ⟨rfl, rfl, rfl, rfl⟩

/-- So does every other call that does not fit it out anew. -/
theorem fittedAs_next (hrunner : e.runner = .execute) {c : Call} (hfits : c.fits = false) :
    e.FittedAs (c.next e) := by
  cases c with
  | load program =>
    obtain hnext | ⟨-, _, -, hnext⟩ := Call.next_load program e <;> rw [hnext]
    · exact .refl e
    · exact ⟨rfl, rfl, rfl, rfl⟩
  | reset =>
    rw [Call.next_reset]
    exact ⟨rfl, rfl, rfl, rfl⟩
  | keyDown key =>
    rw [Call.next_keyDown]
    split <;> exact ⟨rfl, rfl, rfl, rfl⟩
  | keyUp key =>
    rw [Call.next_keyUp]
    split <;> exact ⟨rfl, rfl, rfl, rfl⟩
  | cycle delta => exact fittedAs_cycle hrunner delta
  | trace on => cases hfits
  | listen name => cases hfits

/-- Nothing that is asked of an emulator gives it a tone or takes it away, or changes what it does with
words. -/
theorem hasTone_after (hrunner : e.runner = .execute) (calls : List Call) :
    (e.after calls).hasTone = e.hasTone := by
  suffices h : (e.after calls).runner = .execute ∧ (e.after calls).hasTone = e.hasTone from h.2
  refine after_induction (P := fun f => f.runner = .execute ∧ f.hasTone = e.hasTone)
    (fun c f h => ?_) calls ⟨hrunner, rfl⟩
  cases hfits : c.fits with
  | false =>
    have hfitted := fittedAs_next h.1 hfits
    exact ⟨hfitted.runner.trans h.1, hfitted.hasTone.trans h.2⟩
  | true =>
    cases c with
    | trace on => exact h
    | listen name => exact h
    | load | reset | keyDown | keyUp | cycle => cases hfits

end Emulator

end ChipEight
