import ChipEight.Emulator.Basic
import ChipEight.Proofs.Machine.Footprint

/-!
# Calls to an emulator

All that can be asked of an emulator is a `Call`, and every call is answered by a report.  A call
that fails does not end anything: whoever calls can go on with the emulator as it is left.  So a run
is any list of calls, and `Emulator.after` is the emulator that it leaves.

A run begins with `Emulator.new`.  `after_induction` says that what every single call keeps is kept
by every run.  What is observed of the calls of a run, one by one, is listed by `Emulator.observed`.

The lemmas `next_load` to `next_listen` say what each call leaves; a cycle has a module of its own.
A call other than a cycle or a reset has a footprint on the machine, as instructions have:
`next_same`.
-/

namespace ChipEight

/-- Results can be compared. -/
instance decidableEqExcept {ε α : Type} [DecidableEq ε] [DecidableEq α] :
    DecidableEq (Except ε α)
  | .ok a, .ok b => decidable_of_iff (a = b) ⟨congrArg Except.ok, Except.ok.inj⟩
  | .error f, .error g => decidable_of_iff (f = g) ⟨congrArg Except.error, Except.error.inj⟩
  | .ok _, .error _ => isFalse fun h => by cases h
  | .error _, .ok _ => isFalse fun h => by cases h

/-- What can be asked of an emulator. -/
inductive Call where
  | load (program : List UInt8)
  | reset
  | keyDown (key : Int)
  | keyUp (key : Int)
  | cycle (delta : Number)
  /-- Tracing is switched on or off. -/
  | trace (on : Bool)
  /-- A listener is registered for the signals of a name. -/
  | listen (name : String)

/-- What a call gives back. -/
inductive Answer where
  | nothing
  | loaded (length : Except LoadFault Nat)
  /-- The number of a new listener. -/
  | listener (number : Nat)

namespace Report

variable {α β : Type}

/-- A report with another form of its result. -/
def map (f : α → β) (r : Report α) : Report β :=
  ⟨r.emulator, r.events, r.result.map f⟩

/-- What follows a success goes on from the emulator as it was left. -/
theorem andThen_of_ok {r : Report α} {a : α} (h : r.result = .ok a)
    (next : Emulator → α → Report β) :
    r.andThen next =
      { next r.emulator a with events := r.events ++ (next r.emulator a).events } := by
  simp only [andThen, h]

/-- Nothing follows a failure. -/
theorem andThen_of_error {r : Report α} {f : EmulatorFault} (h : r.result = .error f)
    (next : Emulator → α → Report β) :
    r.andThen next = ⟨r.emulator, r.events, .error f⟩ := by
  simp only [andThen, h]

end Report

namespace Call

/-- The answer of an emulator to a call. -/
def report (c : Call) (e : Emulator) : Report Answer :=
  match c with
  | load program => (e.load program).map .loaded
  | reset => e.reset.map fun _ => .nothing
  | keyDown key => (e.keyDown key).map fun _ => .nothing
  | keyUp key => (e.keyUp key).map fun _ => .nothing
  | cycle delta => (e.cycle delta).map fun _ => .nothing
  | trace on => .pure { e with tracing := on } .nothing
  | listen name => .pure (e.listen name).1 (.listener (e.listen name).2)

/-- The emulator that a call leaves. -/
def next (c : Call) (e : Emulator) : Emulator :=
  (c.report e).emulator

end Call

namespace Emulator

/-- A new emulator, with or without anything that plays the tone. -/
def new (random : RandomSource) (hasTone : Bool) : Emulator :=
  { random, hasTone }

/-- The emulator that calls leave, one after the other. -/
def after : List Call → Emulator → Emulator
  | [], e => e
  | c :: rest, e => after rest (c.next e)

@[simp] theorem after_nil (e : Emulator) : e.after [] = e := rfl

@[simp] theorem after_cons (c : Call) (calls : List Call) (e : Emulator) :
    e.after (c :: calls) = (c.next e).after calls := rfl

@[simp] theorem after_append (calls more : List Call) (e : Emulator) :
    e.after (calls ++ more) = (e.after calls).after more := by
  induction calls generalizing e with
  | nil => rfl
  | cons c calls ih => exact ih (c.next e)

/-- What is observed of the calls of a run, in their order.  A call may show nothing. -/
def observed {α : Type} (f : Call → Emulator → Option α) : List Call → Emulator → List α
  | [], _ => []
  | c :: rest, e => (f c e).toList ++ observed f rest (c.next e)

theorem observed_append {α : Type} (f : Call → Emulator → Option α) (calls more : List Call)
    (e : Emulator) :
    observed f (calls ++ more) e = observed f calls e ++ observed f more (e.after calls) := by
  induction calls generalizing e with
  | nil => rfl
  | cons c calls ih => simp only [List.cons_append, observed, ih, after_cons, List.append_assoc]

/-- Whatever is observed in the middle of a run comes from one of its calls. -/
theorem observed_split {α : Type} {f : Call → Emulator → Option α} {calls : List Call}
    {e : Emulator} {earlier later : List α} {a : α}
    (h : observed f calls e = earlier ++ a :: later) :
    ∃ before c behind, calls = before ++ c :: behind ∧ observed f before e = earlier ∧
      f c (e.after before) = some a ∧ observed f behind (c.next (e.after before)) = later := by
  induction calls generalizing e earlier with
  | nil => simp [observed] at h
  | cons c calls ih =>
    rw [observed] at h
    cases hseen : f c e with
    | none =>
      rw [hseen] at h
      obtain ⟨before, c', behind, rfl, hearlier, ha, hlater⟩ := ih (e := c.next e) h
      exact ⟨c :: before, c', behind, rfl, by simpa [observed, hseen] using hearlier, ha, hlater⟩
    | some b =>
      rw [hseen] at h
      cases earlier with
      | nil =>
        obtain ⟨rfl, hlater⟩ := List.cons.inj h
        exact ⟨[], c, calls, rfl, rfl, hseen, hlater⟩
      | cons b' earlier =>
        obtain ⟨rfl, hrest⟩ := List.cons.inj h
        obtain ⟨before, c', behind, rfl, hearlier, ha, hlater⟩ := ih (e := c.next e) hrest
        exact ⟨c :: before, c', behind, rfl, by simpa [observed, hseen] using hearlier, ha, hlater⟩

/-- The tone is on afterwards if it was to be, whether that was a change or not. -/
theorem setTone_eq (playing : Bool) (e : Emulator) :
    setTone playing e =
      ⟨{ e with tonePlaying := playing }, (setTone playing e).events, .ok ()⟩ := by
  unfold setTone
  split
  next h => simp only [h, Report.pure]
  next => rfl

/-- An emulator is fitted out as another: it treats its words in the same way, has the same outlets
and is traced or not. -/
structure FittedAs (e f : Emulator) : Prop where
  runner : f.runner = e.runner
  hasTone : f.hasTone = e.hasTone
  tracing : f.tracing = e.tracing
  listeners : f.listeners = e.listeners

theorem FittedAs.refl (e : Emulator) : e.FittedAs e := ⟨rfl, rfl, rfl, rfl⟩

theorem FittedAs.trans {e f g : Emulator} (h : e.FittedAs f) (h' : f.FittedAs g) : e.FittedAs g :=
  ⟨h'.runner.trans h.runner, h'.hasTone.trans h.hasTone, h'.tracing.trans h.tracing,
    h'.listeners.trans h.listeners⟩

/-- **What every call keeps, every run keeps.** -/
theorem after_induction {P : Emulator → Prop} (step : ∀ c e, P e → P (Call.next c e))
    (calls : List Call) {e : Emulator} (h : P e) : P (e.after calls) := by
  induction calls generalizing e with
  | nil => exact h
  | cons c calls ih => exact ih (step c e h)

end Emulator

namespace Machine

/-- The machine with a key down, which is also captured if one is waited for. -/
def press (key : Int) (m : Machine) : Machine :=
  if m.waiting ∧ m.pendingKey = none then
    { m with
      keys := m.keys.setIfInBounds key.toNat true
      pendingKey := some key
      waiting := false }
  else { m with keys := m.keys.setIfInBounds key.toNat true }

/-- The machine with a key up. -/
def release (key : Int) (m : Machine) : Machine :=
  { m with keys := m.keys.setIfInBounds key.toNat false }

end Machine

namespace Call

variable {e : Emulator}

/-- A program is loaded into an emulator that has none, if it fits; otherwise nothing changes. -/
theorem next_load (program : List UInt8) (e : Emulator) :
    (load program).next e = e ∨
      e.loaded = false ∧ ∃ loaded, e.machine.load program = .ok loaded ∧
        (load program).next e = { e with machine := loaded, loaded := true } := by
  simp only [next, report, Emulator.load]
  split
  · exact .inl rfl
  next hloaded =>
    cases hload : e.machine.load program with
    | error f => exact .inl rfl
    | ok loaded => exact .inr ⟨by simpa using hloaded, loaded, rfl, rfl⟩

/-- A reset leaves a new machine, an empty trace and a silent tone. -/
theorem next_reset (e : Emulator) :
    reset.next e =
      { e with machine := {}, trace := {}, loaded := false, accumulator := .zero,
               tonePlaying := false } := by
  have hreset : reset.next e =
      ((Emulator.setTone false e).andThen fun e _ =>
        .pure { e with machine := {}, trace := {}, loaded := false, accumulator := .zero }
          ()).emulator := rfl
  rw [hreset, Emulator.setTone_eq]
  rfl

/-- A reset succeeds, and sends what switching the tone off sends. -/
theorem reset_eq (e : Emulator) :
    e.reset =
      ⟨reset.next e, .logged (.info "Resetting emulator...") :: (Emulator.setTone false e).events,
        .ok ()⟩ := by
  obtain ⟨hemulator, hresult⟩ : (Emulator.setTone false e).emulator = { e with tonePlaying := false }
      ∧ (Emulator.setTone false e).result = .ok () := by
    rw [Emulator.setTone_eq]
    exact ⟨rfl, rfl⟩
  simp only [Emulator.reset, Emulator.note, Report.andThen, hresult, hemulator, Report.pure,
    next_reset, List.append_nil, List.cons_append, List.nil_append]

/-- A key of the keypad is pressed; any other changes nothing. -/
theorem next_keyDown (key : Int) (e : Emulator) :
    (keyDown key).next e =
      if 0 ≤ key ∧ key < 16 then { e with machine := e.machine.press key } else e := by
  have hcount : (keyCount : Int) = 16 := rfl
  simp only [next, report, Emulator.keyDown, hcount, Machine.press]
  split
  · split <;> rfl
  · rfl

theorem next_keyUp (key : Int) (e : Emulator) :
    (keyUp key).next e =
      if 0 ≤ key ∧ key < 16 then { e with machine := e.machine.release key } else e := by
  have hcount : (keyCount : Int) = 16 := rfl
  simp only [next, report, Emulator.keyUp, hcount, Machine.release]
  split <;> rfl

theorem next_cycle (delta : Number) (e : Emulator) :
    (cycle delta).next e = (e.cycle delta).emulator := rfl

theorem next_listen (name : String) (e : Emulator) :
    (listen name).next e = { e with listeners := e.listeners ++ [name] } := rfl

/-- Whether a call fits the emulator out anew. -/
def fits : Call → Bool
  | trace _ | listen _ => true
  | load _ | reset | keyDown _ | keyUp _ | cycle _ => false

/-- The parts of the machine that a call may change: for a reset and a cycle, all of them. -/
def touched : Call → List Part
  | load _ => [.memory, .counter]
  | reset | cycle _ => [.memory, .registers, .index, .delayTimer, .soundTimer, .counter, .stack,
      .display, .keys, .keyWait]
  | keyDown _ => [.keys, .keyWait]
  | keyUp _ => [.keys]
  | trace _ | listen _ => []

/-- **The footprint of a call.**  What it does not list is the same afterwards. -/
theorem next_same {c : Call} {p : Part} (h : p ∉ c.touched) :
    p.Same e.machine (c.next e).machine := by
  cases c with
  | load program =>
    obtain hsame | ⟨-, loaded, hload, hnext⟩ := next_load program e
    · rw [hsame]
      exact .refl e.machine p
    · rw [hnext]
      exact Machine.same_load hload h
  | reset | cycle delta => cases p <;> simp [touched] at h
  | keyDown key =>
    rw [next_keyDown]
    split
    · unfold Machine.press
      split <;> cases p <;> simp_all [Part.Same, touched]
    · exact .refl e.machine p
  | keyUp key =>
    rw [next_keyUp]
    split
    · cases p <;> simp_all [Part.Same, touched, Machine.release]
    · exact .refl e.machine p
  | trace on => exact .refl e.machine p
  | listen name => exact .refl e.machine p

end Call

end ChipEight
