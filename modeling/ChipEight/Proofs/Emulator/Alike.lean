import ChipEight.Proofs.Emulator.Sent
import ChipEight.Keypad

/-!
# Emulators that cannot be told apart

Two sources agree if the same random bytes are still to come from them, wherever each of them stands.
Two emulators are alike if they are the same but for their sources, and these agree.  Nothing that an
emulator is asked to do can tell one from the other: the reports are alike, which means that they
send the same, have the same result, and leave emulators that are alike again.

Every operation is shown to respect this, from the smallest up to a call, and `Alike.run` carries it
along any list of calls.  A reset makes use of it: what it leaves is a new emulator, with no more
than the listeners and the tracing of the old one (`alike_reset`).
-/

namespace ChipEight

/-- The same random bytes are still to come. -/
def RandomSource.Agree (r s : RandomSource) : Prop :=
  ∀ k, r.bytes (r.drawn + k) = s.bytes (s.drawn + k)

namespace RandomSource.Agree

variable {r s : RandomSource}

/-- Sources that agree hand out the same byte, -/
theorem next (h : r.Agree s) : r.next = s.next := h 0

/-- and agree afterwards. -/
theorem advance (h : r.Agree s) : r.advance.Agree s.advance := by
  intro k
  simp only [RandomSource.advance, Nat.add_assoc]
  exact h (1 + k)

end RandomSource.Agree

/-- A source of its own with the bytes that are still to come. -/
def RandomSource.rest (r : RandomSource) : RandomSource :=
  ⟨fun k => r.bytes (r.drawn + k), 0⟩

theorem RandomSource.agree_rest (r : RandomSource) : r.Agree r.rest := by
  intro k
  simp only [rest, Nat.zero_add]

/-- The emulator with another source of random bytes. -/
def Emulator.withSource (source : RandomSource) (e : Emulator) : Emulator :=
  { e with random := source }

/-- A report that leaves its emulator with another source. -/
def Report.withSource {α : Type} (source : RandomSource) (r : Report α) : Report α :=
  { r with emulator := r.emulator.withSource source }

/-- Two emulators are the same but for their sources, from which the same bytes are still to come. -/
structure Emulator.Alike (e f : Emulator) : Prop where
  eq : f = e.withSource f.random
  random : e.random.Agree f.random

/-- Two reports send and give back the same, and leave emulators that are alike. -/
structure Report.Alike {α : Type} (r s : Report α) : Prop where
  emulator : r.emulator.Alike s.emulator
  events : s.events = r.events
  result : s.result = r.result

/-- An operation draws no random byte, and does not look at the source either. -/
def Blind {α : Type} (operation : Emulator → Report α) : Prop :=
  ∀ e source, operation (e.withSource source) = (operation e).withSource source

namespace Report.Alike

variable {α β : Type} {r s : Report α} {e f : Emulator}

theorem pure (h : e.Alike f) (a : α) : (Report.pure e a).Alike (.pure f a) :=
  ⟨h, rfl, rfl⟩

theorem fail (h : e.Alike f) (fault : EmulatorFault) :
    (Report.fail e fault : Report α).Alike (.fail f fault) :=
  ⟨h, rfl, rfl⟩

/-- What follows on alike reports is alike. -/
theorem andThen (h : r.Alike s) {next : Emulator → α → Report β}
    (hnext : ∀ {e f}, e.Alike f → ∀ a, (next e a).Alike (next f a)) :
    (r.andThen next).Alike (s.andThen next) := by
  cases hresult : r.result with
  | error fault =>
    rw [andThen_of_error hresult, andThen_of_error (h.result.trans hresult)]
    exact ⟨h.emulator, h.events, rfl⟩
  | ok a =>
    have hrest := hnext h.emulator a
    rw [andThen_of_ok hresult, andThen_of_ok (h.result.trans hresult)]
    exact ⟨hrest.emulator, by simp only [h.events, hrest.events], hrest.result⟩

theorem map (h : r.Alike s) (g : α → β) : (r.map g).Alike (s.map g) :=
  ⟨h.emulator, h.events, congrArg (·.map g) h.result⟩

/-- What does not look at the source does the same to emulators that are alike. -/
theorem of_blind {operation : Emulator → Report α} (hblind : Blind operation) (h : e.Alike f) :
    (operation e).Alike (operation f) := by
  have hsource : (operation e).emulator.random = e.random :=
    congrArg (·.emulator.random) (hblind e e.random)
  rw [h.eq, hblind e f.random]
  exact ⟨⟨rfl, hsource ▸ h.random⟩, rfl, rfl⟩

end Report.Alike

namespace Emulator

theorem blind_emit (signal : Signal) (argument : Argument) : Blind (emit signal argument) :=
  fun _ _ => rfl

theorem blind_setTone (playing : Bool) : Blind (setTone playing) := by
  intro e source
  simp only [setTone, apply_ite (Report.withSource source)]
  rfl

theorem blind_load (program : List UInt8) : Blind (load program) := by
  intro e source
  simp only [load, withSource, apply_ite (Report.withSource source)]
  cases e.machine.load program <;> rfl

theorem blind_keyDown (key : Int) : Blind (keyDown key) := by
  intro e source
  simp only [keyDown, apply_ite (Report.withSource source)]
  rfl

theorem blind_keyUp (key : Int) : Blind (keyUp key) := by
  intro e source
  simp only [keyUp, apply_ite (Report.withSource source)]
  rfl

theorem blind_advanceClock (delta : Number) : Blind (advanceClock delta) := by
  intro e source
  simp only [advanceClock, withSource]
  cases delta.toReal with
  | error f => rfl
  | ok seconds =>
    dsimp only
    cases ((e.accumulator.add seconds).divMod tickPeriod).1.toInt? <;> rfl

theorem blind_traceWord (word : Int) : Blind (traceWord word) := by
  intro e source
  simp only [traceWord, apply_ite (Report.withSource source)]
  rfl

end Emulator

namespace Emulator.Alike

variable {e f : Emulator}

/-- Sources that agree serve a word alike. -/
theorem runWord_of_agree {r s : RandomSource} (h : r.Agree s) (word : Int) (m : Machine) :
    (m.runWord word s).1 = (m.runWord word r).1 ∧
      (m.runWord word r).2.Agree (m.runWord word s).2 := by
  unfold Machine.runWord
  cases Instruction.ofWord? word with
  | none => exact ⟨rfl, h⟩
  | some i =>
    simp only [Instruction.run, h.next, true_and]
    split
    · exact h.advance
    · exact h

theorem machine_eq (h : e.Alike f) : f.machine = e.machine := by
  rw [h.eq]
  rfl

theorem loaded_eq (h : e.Alike f) : f.loaded = e.loaded := by
  rw [h.eq]
  rfl

/-- The same change of any other part leaves them alike. -/
theorem update (h : e.Alike f) (change : Emulator → Emulator)
    (hchange : ∀ e source, change (e.withSource source) = (change e).withSource source) :
    (change e).Alike (change f) := by
  have hblind : Blind fun e => Report.pure (change e) () :=
    fun e source => congrArg (Report.pure · ()) (hchange e source)
  exact (Report.Alike.of_blind hblind h).emulator

/-- Executing a word draws the same byte, if it draws any. -/
theorem runWord (h : e.Alike f) (word : Int) : (e.runWord word).Alike (f.runWord word) := by
  obtain ⟨houtcome, hagree⟩ := runWord_of_agree h.random word e.machine
  have hrunner : f.runner = e.runner := by
    rw [h.eq]
    rfl
  have hafter (m : Machine) (runner : Runner) :
      Alike { e with machine := m, runner, random := (e.machine.runWord word e.random).2 }
        { f with machine := m, runner, random := (e.machine.runWord word f.random).2 } := by
    refine ⟨?_, hagree⟩
    rw [h.eq]
    rfl
  unfold Emulator.runWord
  rw [hrunner, h.machine_eq]
  cases e.runner with
  | report => exact ⟨h, rfl, rfl⟩
  | execute =>
    simp only [houtcome]
    cases (e.machine.runWord word e.random).1.fault? with
    | none => exact .pure (hafter _ _) ()
    | some fault => exact ⟨hafter _ _, rfl, rfl⟩

theorem emit (h : e.Alike f) (signal : Signal) (argument : Argument) :
    (e.emit signal argument).Alike (f.emit signal argument) :=
  .of_blind (blind_emit signal argument) h

theorem step (h : e.Alike f) : e.step.Alike f.step := by
  unfold Emulator.step
  rw [h.machine_eq]
  cases e.machine.fetch with
  | error fault => exact .fail h _
  | ok fetched =>
    obtain ⟨word, m⟩ := fetched
    have hfetched : Alike { e with machine := m } { f with machine := m } :=
      h.update (fun e => { e with machine := m }) fun _ _ => rfl
    exact (Report.Alike.of_blind (blind_traceWord word) hfetched).andThen
      fun h _ => h.runWord word

/-- **Two cycles cannot be told apart.** -/
theorem cycle (h : e.Alike f) (delta : Number) : (e.cycle delta).Alike (f.cycle delta) := by
  unfold Emulator.cycle
  rw [h.loaded_eq]
  split
  · exact .fail h _
  split
  · exact .fail h _
  rw [h.machine_eq]
  refine (h.emit _ _).andThen fun h _ => ?_
  refine (Report.Alike.of_blind (blind_advanceClock delta) h).andThen fun h _ => ?_
  refine Report.Alike.andThen ?_ fun h _ => ?_
  · rw [h.machine_eq]
    split
    · exact .pure h ()
    · exact h.step
  · rw [h.machine_eq]
    refine (Report.Alike.of_blind (blind_setTone _) h).andThen fun h _ => ?_
    rw [h.machine_eq]
    exact h.emit _ _

theorem cycles (h : e.Alike f) (delta : Number) (n : Nat) :
    (e.cycles delta n).Alike (f.cycles delta n) := by
  induction n generalizing e f with
  | zero => exact .pure h ()
  | succ n ih => exact (h.cycle delta).andThen fun h _ => ih h

theorem reset (h : e.Alike f) : e.reset.Alike f.reset := by
  have hnote : Blind (note (.info "Resetting emulator...")) := fun _ _ => rfl
  refine (Report.Alike.of_blind hnote h).andThen fun h _ => ?_
  refine (Report.Alike.of_blind (blind_setTone false) h).andThen fun h _ => ?_
  exact .pure (h.update (fun e =>
    { e with machine := {}, trace := {}, loaded := false, accumulator := .zero }) fun _ _ => rfl) ()

/-- The keypad hands the events of its keys on. -/
theorem handle (h : e.Alike f) (keypad : Keypad) (event : InputEvent) :
    (keypad.handle event e).Alike (keypad.handle event f) := by
  cases event with
  | keyDown code =>
    simp only [Keypad.handle]
    cases keypad.key? code with
    | none => exact .pure h false
    | some key => exact (Report.Alike.of_blind (blind_keyDown key) h).andThen fun h _ => .pure h true
  | keyUp code =>
    simp only [Keypad.handle]
    cases keypad.key? code with
    | none => exact .pure h false
    | some key => exact (Report.Alike.of_blind (blind_keyUp key) h).andThen fun h _ => .pure h true
  | quit => exact .pure h false
  | other => exact .pure h false

/-- **No call can tell two emulators that are alike from each other.** -/
theorem report (h : e.Alike f) (c : Call) : (c.report e).Alike (c.report f) := by
  cases c with
  | load program => exact (Report.Alike.of_blind (blind_load program) h).map _
  | reset => exact h.reset.map _
  | keyDown key => exact (Report.Alike.of_blind (blind_keyDown key) h).map _
  | keyUp key => exact (Report.Alike.of_blind (blind_keyUp key) h).map _
  | cycle delta => exact (h.cycle delta).map _
  | trace on => exact .of_blind (fun _ _ => rfl) h
  | listen name => exact .of_blind (fun _ _ => rfl) h

/-- **Nor can a whole run**: it sends the same, is answered in the same way, and leaves emulators that
are alike again. -/
theorem run (h : e.Alike f) (calls : List Call) :
    sent calls f = sent calls e ∧ answers calls f = answers calls e ∧
      (e.after calls).Alike (f.after calls) := by
  induction calls generalizing e f with
  | nil => exact ⟨rfl, rfl, h⟩
  | cons c calls ih =>
    have hfirst := h.report c
    obtain ⟨hsent, hanswers, hafter⟩ := ih (e := c.next e) (f := c.next f) hfirst.emulator
    refine ⟨?_, ?_, hafter⟩
    · rw [sent, sent, hfirst.events, hsent]
    · rw [answers, answers, hfirst.result, hanswers]

end Emulator.Alike

/-- After a reset an emulator is alike to a new one that has been fitted out in the same way. -/
theorem Emulator.alike_reset {e : Emulator} (hrunner : e.runner = .execute) {random : RandomSource}
    (hagree : e.random.Agree random) :
    (Call.reset.next e).Alike
      { new random e.hasTone with tracing := e.tracing, listeners := e.listeners } := by
  rw [Call.next_reset]
  refine ⟨?_, hagree⟩
  rw [hrunner]
  rfl

end ChipEight
