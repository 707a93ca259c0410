import ChipEight.CommandLine.Usage
import ChipEight.Computer.Usual
import ChipEight.Log.Backlog
import ChipEight.Log.Entry
import ChipEight.Session.Run
import ChipEight.Terminal

/-!
# The program

Runs a session in the terminal. All that decides anything is elsewhere: here files are read, lines
come in, and what the session sends is printed or written to the log file.
-/

namespace ChipEight.Program

/-- The name of the log file. -/
def logName : String := Session.logDirectory ++ "/pychip8.log"

/-- Where the records of a session go. -/
structure Output where
  least : Log.Level
  hasFile : Bool
  backlog : Log.Backlog String := {}

/-- The number that the operating system gives with an error, and its words. The number may come as a
negative one. -/
def systemError : IO.Error → Nat × String
  | .alreadyExists _ code words | .inappropriateType _ code words
  | .interrupted _ code words | .invalidArgument _ code words
  | .noFileOrDirectory _ code words | .noSuchThing _ code words
  | .permissionDenied _ code words | .resourceExhausted _ code words
  | .hardwareFault code words | .illegalOperation code words
  | .otherError code words | .protocolError code words
  | .resourceBusy code words | .resourceVanished code words
  | .timeExpired code words | .unsatisfiedConstraints code words
  | .unsupportedOperation code words =>
    ((if code < 0x80000000 then code else 0 - code).toNat, words)
  | .unexpectedEof => (5, "Input/output error")
  | .userError words => (5, words)

/-- Why a file cannot be used, in the usual words if the fault is one of the usual ones. -/
def fileFault (e : IO.Error) : FileFault :=
  let (number, words) := systemError e
  let usual : List FileFault := [.missing, .denied, .notDirectory, .isDirectory, .nameTooLong]
  (usual.find? (·.number = number)).getD ⟨number, words⟩

/-- Reads a file. -/
def readFile (name : String) : IO (Except FileFault (List UInt8)) := do
  try return .ok (← IO.FS.readBinFile name).toList
  catch e => return .error (fileFault e)

/-- Looks a file up. If it is not found, reading it has failed for the same reason. -/
def lookUp (name : String) (reading : Except FileFault (List UInt8)) :
    IO (Except FileFault Unit) := do
  try
    let _ ← IO.FS.realPath name
    return .ok ()
  catch _ => return reading.map fun _ => ()

/-- Appends a line to the log file, if that can be done now. -/
def append (entry : String) : IO Log.Attempt := do
  try
    let file ← IO.FS.Handle.mk logName .append
    file.putStrLn entry
    return .written
  catch _ => return .postponed

/-- Prints a record and writes it to the log file. -/
def log (record : Log.Record SessionCause) (out : Output) : IO Output := do
  if ¬record.IsEnabled out.least then return out
  let entry := record.ownEntry
  IO.eprintln entry
  if !out.hasFile then return out
  let outcomes ← (out.backlog.held ++ [entry]).mapM append
  return { out with backlog := (out.backlog.emit Log.Attempt.scripted entry outcomes).backlog }

/-- Shows one thing that a session sends. -/
def deliver (event : SessionEvent) (out : Output) : IO Output := do
  match event with
  | .logged record => log record out
  | .listed line => IO.println line.line; return out
  | .presented display => IO.println (Terminal.picture display ++ "\n"); return out
  | .opened window => IO.println window.title; return out
  | .mixer _ => return out
  | .ticked _ => return out

/-- Shows all that a session sends. -/
def deliverAll (events : List SessionEvent) (out : Output) : IO Output :=
  events.foldlM (fun out event => deliver event out) out

/-- The exit code of an ending. -/
def exitCode : Ending → IO UInt32
  | .exit code => return code.toUInt32
  | .failed cause => do
    IO.eprintln cause.message
    return 1

/-- Plays rounds, a line for each, until the user leaves or there are no more lines. -/
partial def play (session : Session) (s : Stage) (out : Output) : IO UInt32 := do
  let line ← (← IO.getStdin).getLine
  let turn := if line.isEmpty then .halt s .left else session.round (Terminal.round line) s
  let out ← deliverAll turn.sent out
  match turn.result with
  | .ok () => play session turn.stage out
  | .error halt =>
    let (sent, ending) := Session.finish halt turn.stage
    let _ ← deliverAll sent out
    exitCode ending

/-- Random bytes, from one number that the computer gives. -/
def randomBytes : IO RandomSource := do
  let seed ← IO.rand 0 0x3FFFFFFFFFFFFFFF
  return { bytes := fun k => (mixHash seed.toUInt64 (hash k)).toUInt8 }

/-- Runs a session. -/
def run (options : Options) : IO UInt32 := do
  if !options.noLogFile then
    IO.FS.createDirAll Session.logDirectory
  let settingsName := Session.settingsName options
  let reading ← readFile settingsName
  let answer ← lookUp settingsName reading
  let found : Surroundings :=
    { settingsName
      settings := SettingsFile.ofReading settingsName (.ofAnswer settingsName answer) reading
      program := ← readFile options.program.text
      computer := .usual { opening := fun _ => .error "there is no mixer in a terminal" }
      random := ← randomBytes }
  let (sent, prepared) := Session.begin options found
  let out ← deliverAll sent { least := Session.logLevel options, hasFile := !options.noLogFile }
  match prepared with
  | .error ending => exitCode ending
  | .ok (session, s) => play session s out

end ChipEight.Program

/-- Reads the command line and does what it says. -/
def main (args : List String) : IO UInt32 := do
  match ChipEight.Arguments.read args with
  | .ok (.options options) => ChipEight.Program.run options
  | .ok .help =>
    IO.println ChipEight.Usage.help
    return 0
  | .error fault =>
    IO.eprintln (ChipEight.Usage.summary ++ "\n" ++ fault.line)
    return 2
