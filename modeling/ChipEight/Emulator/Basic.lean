import ChipEight.Emulator.Trace
import ChipEight.Log.Record
import ChipEight.Machine.Execution
import ChipEight.Number

/-!
# The emulator

The emulator drives a machine one instruction at a time. Whoever calls it owns the clock: every
cycle is given the time since the last one, and the timers count down sixty times a second of that
time, however often cycles come. Keys come in, the display is read back, and the tone is switched
on and off on the edges of the sound timer only.

An operation answers with a `Report`: the emulator afterwards, the events that came about, in
order, and the result. An operation that fails midway keeps what it had done before.

* `Emulator.load`, `Emulator.reset`, `Emulator.keyDown`, `Emulator.keyUp` and `Emulator.cycle` are
  the operations;
* `Report.andThen` puts two operations one after the other, and `Report.fail` ends one.
-/

namespace ChipEight

/-- What a listener can wait for. -/
inductive Signal where
  /-- A cycle is about to begin; the argument is the program counter. -/
  | beforeCycle
  /-- A cycle has ended; the argument is the program counter. -/
  | afterCycle
  /-- A line has been added to the trace; the argument is the line. -/
  | traceLine
  deriving DecidableEq, Repr

/-- The name under which listeners ask for a signal. -/
def Signal.name : Signal → String
  | beforeCycle => "before_cycle"
  | afterCycle => "after_cycle"
  | traceLine => "tracelogger"

/-- What a listener is told. -/
inductive Argument where
  | address (a : Int)
  | line (text : String)
  deriving DecidableEq, Repr

/-- What the emulator sends to the outside. -/
inductive Event where
  /-- The tone is to start, or to stop. -/
  | tone (playing : Bool)
  /-- A listener, by its number, is called. -/
  | heard (signal : Signal) (listener : Nat) (argument : Argument)
  /-- A word that is reported in place of being executed. -/
  | word (w : Int)
  | logged (record : Log.Record Unit)
  deriving DecidableEq, Repr

/-- Why an operation of the emulator fails. -/
inductive EmulatorFault where
  | alreadyLoaded
  | notLoaded
  | negativeStep
  | invalidKey (key : Int)
  /-- The time step has no whole number of ticks. -/
  | clock (cause : NumberFault)
  | machine (cause : Fault)
  deriving DecidableEq, Repr

/-- The text of an emulator fault. -/
def EmulatorFault.message : EmulatorFault → String
  | alreadyLoaded => "a program is already loaded, reset() first"
  | notLoaded => "load a program before executing cycles"
  | negativeStep => "delta_time must not be negative"
  | invalidKey k => s!"invalid key: {k}"
  | clock cause => cause.message
  | machine cause => cause.message

/-- What is done with a fetched word. -/
inductive Runner where
  /-- It is executed. -/
  | execute
  /-- It is only reported. -/
  | report
  deriving DecidableEq, Repr

/-- The emulator. -/
structure Emulator where
  machine : Machine := {}
  /-- Where random bytes come from. -/
  random : RandomSource
  runner : Runner := .execute
  /-- Whether there is anything that plays the tone. -/
  hasTone : Bool := true
  /-- Whether fetched instructions are traced. -/
  tracing : Bool := false
  /-- The signal names that listeners have asked for, in the order in which they came. -/
  listeners : List String := []
  trace : Trace := {}
  /-- Whether a program is loaded. -/
  loaded : Bool := false
  /-- The time, in seconds, that has passed since the last tick of the timers. -/
  accumulator : Binary64 := .zero
  /-- Whether the tone was switched on last. -/
  tonePlaying : Bool := false

/-- The answer to an operation: the emulator afterwards, what it sent, and the result. -/
structure Report (α : Type) where
  emulator : Emulator
  events : List Event
  result : Except EmulatorFault α

namespace Report

/-- Nothing happens but the result. -/
def pure {α : Type} (e : Emulator) (a : α) : Report α :=
  ⟨e, [], .ok a⟩

/-- Nothing happens but the failure. -/
def fail {α : Type} (e : Emulator) (f : EmulatorFault) : Report α :=
  ⟨e, [], .error f⟩

/-- Goes on with the emulator as it is left, unless the first operation failed. -/
def andThen {α β : Type} (r : Report α) (next : Emulator → α → Report β) : Report β :=
  match r.result with
  | .error f => ⟨r.emulator, r.events, .error f⟩
  | .ok a =>
    let s := next r.emulator a
    { s with events := r.events ++ s.events }

end Report

namespace Emulator

/-- The time between two ticks of the timers, in seconds. -/
def tickPeriod : Binary64 := .ofQuotient 1 60

/-- More ticks than this at once change nothing: a timer of eight bits is empty then. -/
def maxTicks : Nat := 255

/-- Sends one record to the log. -/
def note (record : Log.Record Unit) (e : Emulator) : Report Unit :=
  ⟨e, [.logged record], .ok ()⟩

/-- Registers a listener and gives its number. -/
def listen (name : String) (e : Emulator) : Emulator × Nat :=
  ({ e with listeners := e.listeners ++ [name] }, e.listeners.length + 1)

/-- Calls the listeners of a signal in the order in which they were registered. -/
def emit (signal : Signal) (argument : Argument) (e : Emulator) : Report Unit :=
  let called := e.listeners.zipIdx.filter fun l => l.1 = signal.name
  ⟨e, called.map fun l => .heard signal (l.2 + 1) argument, .ok ()⟩

/-- Switches the tone, if that is a change. -/
def setTone (playing : Bool) (e : Emulator) : Report Unit :=
  if playing = e.tonePlaying then .pure e ()
  else
    let record := Log.Record.debug (if playing then "Tone start" else "Tone stop")
    ⟨{ e with tonePlaying := playing },
      .logged record :: (if e.hasTone then [.tone playing] else []), .ok ()⟩

/-- Loads a program. It must not be called twice without a reset in between. -/
def load (program : List UInt8) (e : Emulator) : Report (Except LoadFault Nat) :=
  if e.loaded then .fail e .alreadyLoaded
  else match e.machine.load program with
    | .ok m =>
      (note (.info s!"Loaded program: {program.length} bytes")
        { e with machine := m, loaded := true }).andThen fun e _ => .pure e (.ok program.length)
    | .error f =>
      (note (.warning ("Failed to load program: " ++ f.message)) e).andThen fun e _ =>
        .pure e (.error f)

/-- Returns to the state of the beginning and silences the tone. -/
def reset (e : Emulator) : Report Unit :=
  (note (.info "Resetting emulator...") e).andThen fun e _ =>
  (setTone false e).andThen fun e _ =>
    .pure { e with machine := {}, trace := {}, loaded := false, accumulator := .zero } ()

/-- Presses a key. It is also captured if an instruction waits for one. -/
def keyDown (key : Int) (e : Emulator) : Report Unit :=
  if 0 ≤ key ∧ key < keyCount then
    let m := { e.machine with keys := e.machine.keys.setIfInBounds key.toNat true }
    if m.waiting ∧ m.pendingKey = none then
      note (.debug ("Captured key 0x" ++ Text.Hex.padded 1 key))
        { e with machine := { m with pendingKey := some key, waiting := false } }
    else .pure { e with machine := m } ()
  else .fail e (.invalidKey key)

/-- Releases a key. -/
def keyUp (key : Int) (e : Emulator) : Report Unit :=
  if 0 ≤ key ∧ key < keyCount then
    .pure { e with machine :=
      { e.machine with keys := e.machine.keys.setIfInBounds key.toNat false } } ()
  else .fail e (.invalidKey key)

/-- Lets time pass: the timers count down once for every whole period, and the rest is kept for
the next cycle. -/
def advanceClock (delta : Number) (e : Emulator) : Report Unit :=
  match delta.toReal with
  | .error f => .fail e (.clock f)
  | .ok seconds =>
    let (due, rest) := (e.accumulator.add seconds).divMod tickPeriod
    let e := { e with accumulator := rest }
    match due.toInt? with
    | .error f => .fail e (.clock (.conversion f))
    | .ok n => .pure { e with machine := e.machine.ticks (min n maxTicks).toNat } ()

/-- Adds the line about a fetched word to the trace, if tracing is on. -/
def traceWord (word : Int) (e : Emulator) : Report Unit :=
  if e.tracing then
    let line := traceLine word e.machine
    emit .traceLine (.line line) { e with trace := e.trace.push line }
  else .pure e ()

/-- Executes a fetched word, or reports it. -/
def runWord (word : Int) (e : Emulator) : Report Unit :=
  match e.runner with
  | .report => ⟨e, [.word word], .ok ()⟩
  | .execute =>
    let (outcome, random) := e.machine.runWord word e.random
    let e := { e with machine := outcome.machine, random }
    match outcome.fault? with
    | none => .pure e ()
    | some f => ⟨e, (f.notice?.map Event.logged).toList, .error (.machine f)⟩

/-- Fetches one word, traces it and runs it. -/
def step (e : Emulator) : Report Unit :=
  match e.machine.fetch with
  | .error f => .fail e (.machine f)
  | .ok (word, m) => (traceWord word { e with machine := m }).andThen fun e _ => runWord word e

/-- One cycle: time passes, one instruction runs unless a key is waited for, and the tone follows
the sound timer. -/
def cycle (delta : Number) (e : Emulator) : Report Unit :=
  if ¬e.loaded then .fail e .notLoaded
  else if ¬Number.le (.integer 0) delta then .fail e .negativeStep
  else
    (emit .beforeCycle (.address e.machine.counter) e).andThen fun e _ =>
    (advanceClock delta e).andThen fun e _ =>
    (if e.machine.waiting then .pure e () else step e).andThen fun e _ =>
    (setTone (0 < e.machine.soundTimer) e).andThen fun e _ =>
    emit .afterCycle (.address e.machine.counter) e

/-- Several cycles of the same length, up to the first that fails. -/
def cycles (delta : Number) : Nat → Emulator → Report Unit
  | 0, e => .pure e ()
  | n + 1, e => (cycle delta e).andThen fun e _ => cycles delta n e

end Emulator

end ChipEight
