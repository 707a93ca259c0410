import ChipEight.Session.Event

/-!
# The stage of a session

An emulator and, if the computer can make one, a tone: that is all that changes while a session
runs. What the emulator sends is passed on: to the tone, and to the log.

A piece of a session is a `Turn`, the stage afterwards with what was sent. It ends with a result, or
with the reason why the session goes on no longer.

* `Stage.perform` lets the emulator do something;
* `Turn.andThen` puts two pieces one after the other.
-/

namespace ChipEight

/-- What changes while a session runs. -/
structure Stage where
  emulator : Emulator
  tone : Option Tone

/-- A piece of a session: the stage afterwards, what was sent, and the result. -/
structure Turn (α : Type) where
  stage : Stage
  sent : List SessionEvent
  result : Except Halt α

namespace Turn

variable {α β : Type}

/-- Nothing happens but the result. -/
def pure (s : Stage) (a : α) : Turn α :=
  ⟨s, [], .ok a⟩

/-- The session goes on no longer. -/
def halt (s : Stage) (h : Halt) : Turn α :=
  ⟨s, [], .error h⟩

/-- Something is sent. -/
def send (s : Stage) (events : List SessionEvent) : Turn Unit :=
  ⟨s, events, .ok ()⟩

/-- A result is taken as it is; a fault ends the session. -/
def ofResult {ε : Type} (halt : ε → Halt) (s : Stage) (result : Except ε α) : Turn α :=
  ⟨s, [], result.mapError halt⟩

/-- Goes on with the stage as it is left, unless the session goes on no longer. -/
def andThen (t : Turn α) (next : Stage → α → Turn β) : Turn β :=
  match t.result with
  | .error h => ⟨t.stage, t.sent, .error h⟩
  | .ok a =>
    let u := next t.stage a
    { u with sent := t.sent ++ u.sent }

end Turn

namespace Stage

/-- Passes one event of the emulator on. -/
def relay (tone : Option Tone) : Event → Option Tone × List SessionEvent
  | .tone playing =>
    match tone with
    | none => (none, [])
    | some t =>
      let (t, asked) := t.set playing
      (some t, asked.map .mixer)
  | .heard _ _ (.line text) => (tone, [.logged (.debug text)])
  | .heard _ _ (.address _) => (tone, [])
  | .word _ => (tone, [])
  | .logged r => (tone, [.logged ⟨r.level, r.message, none⟩])

/-- Passes events of the emulator on, one after the other. -/
def relayAll (tone : Option Tone) : List Event → Option Tone × List SessionEvent
  | [] => (tone, [])
  | event :: rest =>
    let (tone, sent) := relay tone event
    let (tone, more) := relayAll tone rest
    (tone, sent ++ more)

/-- Why a fault of the emulator ends a session: a fault of an instruction is the program's own, and
the others are nobody's. -/
def haltOf : EmulatorFault → Halt
  | .machine (.cell cause) => .failed (.emulator (.machine (.cell cause)))
  | .machine cause => .stopped cause
  | cause => .failed (.emulator cause)

/-- Lets the emulator do something. -/
def perform {α : Type} (s : Stage) (operation : Emulator → Report α) : Turn α :=
  let report := operation s.emulator
  let (tone, sent) := relayAll s.tone report.events
  ⟨⟨report.emulator, tone⟩, sent, report.result.mapError haltOf⟩

/-- Closes the tone, and with it the mixer. -/
def close (s : Stage) : Stage × List SessionEvent :=
  match s.tone with
  | none => (s, [])
  | some tone =>
    let (tone, asked) := tone.close
    ({ s with tone := some tone }, asked.map .mixer)

end Stage

end ChipEight
