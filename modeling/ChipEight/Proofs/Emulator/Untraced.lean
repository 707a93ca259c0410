import ChipEight.Proofs.Emulator.Sent
import ChipEight.Proofs.Emulator.View

/-!
# Tracing does not interfere

To somebody who knows nothing of tracing, an emulator looks as if tracing were off and nothing had
ever been traced, and the calls of the listeners for trace lines are not there: `View.untraced`.
Whatever is asked of an emulator goes through this view (`through_untraced`), except for the switch of
tracing itself, after which the emulator looks as it did before.

`Call.seen?` is what is then left to see of a call.  It follows that two runs look the same, call by
call, if they differ in no more than the switching of tracing (`observed_seen?`).
-/

namespace ChipEight

/-- The emulator as if tracing were off and nothing had been traced. -/
def Emulator.untraced (e : Emulator) : Emulator :=
  { e with tracing := false, trace := {} }

/-- The view that leaves tracing out. -/
def View.untraced : View :=
  ⟨Emulator.untraced, fun event => !event.calls .traceLine⟩

namespace Call

/-- Whether a call switches tracing on or off. -/
def switchesTrace : Call → Bool
  | trace _ => true
  | load _ | reset | keyDown _ | keyUp _ | cycle _ | listen _ => false

/-- The report on a call as it is seen without tracing.  A switch of tracing is not seen at all. -/
def seen? (c : Call) (e : Emulator) : Option (Report Answer) :=
  if c.switchesTrace then none else some (View.untraced.report (c.report e))

end Call

/-- Nothing about the tone is hidden. -/
theorem tones_shown (events : List Event) :
    tones (events.filter View.untraced.shows) = tones events := by
  have hsame : (fun event => if View.untraced.shows event then event.tone? else none) =
      Event.tone? := by
    funext event
    cases event <;> simp [View.untraced, Event.calls, Event.tone?]
  unfold tones
  rw [List.filterMap_filter, hsame]

namespace View

variable {α : Type}

/-- What has been seen through the view looks the same when it is seen again. -/
theorem untraced_untraced (r : Report α) :
    untraced.report (untraced.report r) = untraced.report r := by
  simp only [report, List.filter_filter, Bool.and_self]
  rfl

/-- Of all that listeners are told, only the lines of the trace are hidden. -/
theorem shown_emit (signal : Signal) (argument : Argument) (e : Emulator) :
    (Emulator.emit signal argument e).events.filter untraced.shows =
      if signal = .traceLine then [] else (Emulator.emit signal argument e).events := by
  have hcalls {event : Event} (h : event ∈ (Emulator.emit signal argument e).events) :=
    Emulator.calls_of_mem_emit signal argument e h .traceLine
  split
  next h => exact List.filter_eq_nil_iff.mpr fun event hevent => by simp [untraced, hcalls hevent, h]
  next h => exact List.filter_eq_self.mpr fun event hevent => by simp [untraced, hcalls hevent, h]

theorem through_setTone (playing : Bool) (e : Emulator) :
    untraced.Through (Emulator.setTone playing) e := by
  unfold Through Emulator.setTone
  by_cases h : playing = e.tonePlaying
  · simp [h, report, untraced, Emulator.untraced, Report.pure]
  · cases hhas : e.hasTone <;> simp [h, hhas, report, untraced, Emulator.untraced, Event.calls]

theorem through_advanceClock (delta : Number) (e : Emulator) :
    untraced.Through (Emulator.advanceClock delta) e := by
  have hticks : e.untraced.ticksDue delta = e.ticksDue delta := rfl
  unfold Through
  show e.untraced.advanceClock delta = _
  rw [Emulator.advanceClock_eq, Emulator.advanceClock_eq, hticks]
  cases e.ticksDue delta <;> rfl

theorem plain_untraced : untraced.Plain where
  loaded _ := rfl
  waiting _ := rfl
  counter _ := rfl
  soundTimer _ := rfl
  emit h argument e := by
    unfold Through report
    rw [shown_emit, if_neg h]
    rfl
  advanceClock := through_advanceClock
  setTone := through_setTone

/-- Nothing is seen of the tracing of a word. -/
theorem through_traceWord (word : Int) (e : Emulator) :
    untraced.Through (Emulator.traceWord word) e := by
  unfold Through Emulator.traceWord
  cases htracing : e.tracing with
  | false => simp [untraced, Emulator.untraced, report, Report.pure]
  | true =>
    simp only [report, shown_emit, if_true]
    rfl

/-- The record of a refused word is shown. -/
theorem shown_notice (f : Fault) :
    (f.notice?.map Event.logged).toList.filter untraced.shows =
      (f.notice?.map Event.logged).toList := by
  cases f.notice? <;> rfl

/-- A word is executed in the same way. -/
theorem through_runWord (word : Int) (e : Emulator) :
    untraced.Through (Emulator.runWord word) e := by
  unfold Through
  show e.untraced.runWord word = _
  unfold Emulator.runWord
  cases hrunner : e.runner with
  | report => simp [Emulator.untraced, hrunner, report, untraced, Event.calls]
  | execute =>
    rcases hrun : e.machine.runWord word e.random with ⟨outcome, random⟩
    simp only [Emulator.untraced, hrunner, hrun]
    cases outcome.fault? with
    | none => rfl
    | some f =>
      simp only [report, shown_notice]
      rfl

/-- So a step goes through. -/
theorem through_step (e : Emulator) : untraced.Through Emulator.step e := by
  have hmachine : (untraced.emulator e).machine = e.machine := rfl
  unfold Through Emulator.step
  rw [hmachine]
  cases e.machine.fetch with
  | error f => rfl
  | ok fetched =>
    exact Through.andThen (through_traceWord fetched.1 { e with machine := fetched.2 })
      fun _ _ => through_runWord fetched.1 _

theorem through_load (program : List UInt8) (e : Emulator) :
    untraced.Through (Emulator.load program) e := by
  have hmachine : (untraced.emulator e).machine = e.machine := rfl
  simp only [Through, Emulator.load, apply_ite untraced.report]
  rw [hmachine]
  cases e.machine.load program <;> rfl

theorem through_reset (e : Emulator) : untraced.Through Emulator.reset e := by
  have hnote : untraced.Through (Emulator.note (.info "Resetting emulator...")) e := rfl
  refine Through.andThen hnote fun _ _ => ?_
  exact Through.andThen (through_setTone false e) fun _ _ => rfl

theorem through_keyDown (key : Int) (e : Emulator) :
    untraced.Through (Emulator.keyDown key) e := by
  simp only [Through, Emulator.keyDown, apply_ite untraced.report]
  rfl

theorem through_keyUp (key : Int) (e : Emulator) :
    untraced.Through (Emulator.keyUp key) e := by
  simp only [Through, Emulator.keyUp, apply_ite untraced.report]
  rfl

/-- **Every call goes through** but the switch of tracing. -/
theorem through_untraced {c : Call} (h : c.switchesTrace = false) (e : Emulator) :
    untraced.Through c.report e := by
  cases c with
  | load program => exact Through.map (through_load program e) _
  | reset => exact Through.map (through_reset e) _
  | keyDown key => exact Through.map (through_keyDown key e) _
  | keyUp key => exact Through.map (through_keyUp key e) _
  | cycle delta => exact Through.map (plain_untraced.cycle fun _ _ _ => through_step _) _
  | trace on => cases h
  | listen name => rfl

end View

namespace Call

variable {c : Call}

/-- After the switch an emulator looks as before, -/
theorem next_untraced_of_switch (h : c.switchesTrace = true) (e : Emulator) :
    (c.next e).untraced = e.untraced := by
  cases c with
  | trace on => rfl
  | load | reset | keyDown | keyUp | cycle | listen => cases h

/-- and after any other call as if it had always been without tracing. -/
theorem next_untraced (h : c.switchesTrace = false) (e : Emulator) :
    (c.next e).untraced = c.next e.untraced :=
  (congrArg Report.emulator (View.through_untraced h e)).symm

end Call

namespace Emulator

open Call View

/-- The calls of a run without those that switch tracing. -/
def unswitched (calls : List Call) : List Call :=
  calls.filter fun c => !c.switchesTrace

theorem unswitched_cons_of_switch {c : Call} (h : c.switchesTrace = true) (calls : List Call) :
    unswitched (c :: calls) = unswitched calls :=
  List.filter_cons_of_neg (by simp [h])

theorem unswitched_cons {c : Call} (h : c.switchesTrace = false) (calls : List Call) :
    unswitched (c :: calls) = c :: unswitched calls :=
  List.filter_cons_of_pos (by simp [h])

/-- What a run comes to does not depend on how tracing is switched in it, -/
theorem untraced_after (calls : List Call) (e : Emulator) :
    (e.after calls).untraced = e.untraced.after (unswitched calls) := by
  induction calls generalizing e with
  | nil => rfl
  | cons c calls ih =>
    rw [after_cons, ih]
    cases hswitch : c.switchesTrace with
    | true => rw [next_untraced_of_switch hswitch, unswitched_cons_of_switch hswitch]
    | false => rw [next_untraced hswitch, unswitched_cons hswitch, after_cons]

/-- nor does what is seen of it. -/
theorem observed_seen? (calls : List Call) (e : Emulator) :
    observed seen? calls e = observed seen? (unswitched calls) e.untraced := by
  induction calls generalizing e with
  | nil => rfl
  | cons c calls ih =>
    rw [observed, ih]
    cases hswitch : c.switchesTrace with
    | true =>
      rw [next_untraced_of_switch hswitch, unswitched_cons_of_switch hswitch, seen?, if_pos hswitch]
      rfl
    | false =>
      have hreport : c.report e.untraced = View.untraced.report (c.report e) :=
        through_untraced hswitch e
      have hseen : seen? c e.untraced = seen? c e := by
        simp only [seen?, hswitch, hreport, untraced_untraced]
      rw [next_untraced hswitch, unswitched_cons hswitch, observed, hseen]

/-- All that a run sends about the tone is seen. -/
theorem tones_sent_of_seen (calls : List Call) (e : Emulator) :
    tones (sent calls e) = (observed seen? calls e).flatMap fun r => tones r.events := by
  induction calls generalizing e with
  | nil => rfl
  | cons c calls ih =>
    have hcall : tones (c.report e).events =
        (seen? c e).toList.flatMap fun r => tones r.events := by
      cases hswitch : c.switchesTrace with
      | true =>
        cases c with
        | trace on => rfl
        | load | reset | keyDown | keyUp | cycle | listen => cases hswitch
      | false => simp [seen?, hswitch, View.report, tones_shown]
    rw [sent, tones_append, observed, List.flatMap_append, ih, hcall]

/-- **Tracing does not interfere.**  Two runs that differ only in how tracing is switched look the
same, call by call, and send the same about the tone. -/
theorem run_untraced {calls calls' : List Call} (h : unswitched calls = unswitched calls')
    (e : Emulator) :
    observed seen? calls e = observed seen? calls' e ∧
      tones (sent calls e) = tones (sent calls' e) ∧
      (e.after calls).untraced = (e.after calls').untraced := by
  have hseen : observed seen? calls e = observed seen? calls' e := by
    rw [observed_seen? calls, observed_seen? calls', h]
  refine ⟨hseen, ?_, ?_⟩
  · rw [tones_sent_of_seen, tones_sent_of_seen, hseen]
  · rw [untraced_after, untraced_after, h]

end Emulator

end ChipEight
