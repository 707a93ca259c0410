import ChipEight.Session.Stage

/-!
# The loop of a session

Round after round, the user's input is handled, the emulator runs the cycles that are due, and the
picture is shown. Two keys are kept from the machine: one leaves, and one starts the program over.

* `Session.round` is one round, and `Session.rounds` are several of them.
-/

namespace ChipEight

/-- What stays the same while a session runs. -/
structure Session where
  rom : Rom
  keypad : Keypad
  /-- How many cycles are run for one picture. -/
  cyclesPerFrame : Nat

namespace Session

/-- How many pictures are shown in a second. -/
def frameRate : Nat := 60

/-- How many cycles are run for one picture, at a speed in cycles a second: at least one. -/
def cyclesPerFrameAt (cyclesPerSecond : Int) : Nat :=
  (max 1 (cyclesPerSecond / frameRate)).toNat

/-- Loads the program. -/
def load (session : Session) (s : Stage) : Turn Unit :=
  (s.perform (·.load session.rom.bytes)).andThen fun s loaded =>
    match loaded with
    | .ok _ => .pure s ()
    | .error cause => .halt s (.failed (.load cause))

/-- Handles one event of the user's. -/
def handle (session : Session) (event : InputEvent) (s : Stage) : Turn Unit :=
  if event = .quit ∨ event = .keyDown KeyName.leave then .halt s .left
  else if event = .keyDown KeyName.restart then
    (s.perform Emulator.reset).andThen fun s _ => session.load s
  else
    (s.perform (session.keypad.handle event)).andThen fun s _ => .pure s ()

/-- Handles the events of one round; what comes after the user has left is dropped. -/
def handleAll (session : Session) : List InputEvent → Stage → Turn Unit
  | [], s => .pure s ()
  | event :: rest, s => (session.handle event s).andThen fun s _ => session.handleAll rest s

/-- The time of one cycle, in seconds, if so many milliseconds have passed since the last
picture. -/
def cycleTime (session : Session) (milliseconds : Int) : Except NumberFault Number := do
  let seconds ← Number.quotient (.integer milliseconds) (.real (.ofInt 1000))
  return .real (← Number.quotient (.real seconds) (.integer session.cyclesPerFrame))

/-- Runs the cycles that are due. -/
def runCycles (session : Session) (milliseconds : Int) (s : Stage) : Turn Unit :=
  (Turn.ofResult (.failed ∘ .time) s (session.cycleTime milliseconds)).andThen fun s time =>
    s.perform (·.cycles time session.cyclesPerFrame)

/-- One round. -/
def round (session : Session) (r : Round) (s : Stage) : Turn Unit :=
  (session.handleAll r.input s).andThen fun s _ =>
  (Turn.send s [.ticked frameRate]).andThen fun s _ =>
  (session.runCycles r.milliseconds s).andThen fun s _ =>
    .send s [.presented s.emulator.machine.display]

/-- All rounds, up to one that ends the session. -/
def rounds (session : Session) : List Round → Stage → Turn Unit
  | [], s => .pure s ()
  | r :: rest, s => (session.round r s).andThen fun s _ => session.rounds rest s

end Session

end ChipEight
