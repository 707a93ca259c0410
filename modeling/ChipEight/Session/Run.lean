import ChipEight.CommandLine.Options
import ChipEight.Session.Loop

/-!
# Running a session

A session begins with the settings and the program. Unless only a listing is asked for, the tone,
the window and the keypad are set up, and the loop runs. However it ends, the tone is closed last.

* `Surroundings.ofTree` is what a session finds in a working directory, where the directory of its
  log file has been made;
* `Session.begin` is all that comes before the loop, and `Session.finish` what comes after it;
* `Session.run` is a whole session over given rounds.
-/

namespace ChipEight

/-- What a session finds when it begins. -/
structure Surroundings where
  /-- The name of the settings file, and what there is under it. -/
  settingsName : String
  settings : Except FileFault SettingsFile
  /-- What comes of reading the program's file. -/
  program : Except FileFault (List UInt8)
  computer : Computer
  random : RandomSource

namespace Session

/-- The name of the settings file if none is given. -/
def usualSettingsName : String := "config.toml"

/-- The name of the settings file. -/
def settingsName (options : Options) : String :=
  (options.config.map Path.text).getD usualSettingsName

/-- The directory of the log file. -/
def logDirectory : String := "log"

end Session

/-- What a session finds in a working directory. Unless there is to be no log file, its directory
has been made before anything is read. -/
def Surroundings.ofTree (options : Options) (tree : FileTree) (computer : Computer)
    (random : RandomSource) : Surroundings :=
  let tree :=
    if options.noLogFile then tree else tree.makeDirectory (.ofString Session.logDirectory)
  let settingsName := Session.settingsName options
  { settingsName
    settings := SettingsFile.ofTree tree settingsName
    program := tree.read options.program.text
    computer
    random }

namespace Session

/-- The records about the settings, and the settings with the options laid over them. -/
def settle (options : Options) (file : SettingsFile) :
    List SessionEvent × Except SessionFault Settings :=
  let (table, note) := Settings.load file
  (note.toList.map fun r => .logged ⟨r.level, r.message, r.attachment.map .settings⟩,
    (Settings.ofTable (options.applyTo table)).mapError .setting)

/-- The records about the program, and the program. A program that is no good ends the session with
a code of its own, but a name that no file can have is a fault. -/
def readRom (name : String) (reading : Except FileFault (List UInt8)) :
    List SessionEvent × Except Ending Rom :=
  match Rom.ofReading name reading with
  | .ok rom =>
    (rom.notice?.toList.map .logged ++ [.logged (.info ("Loaded " ++ rom.summary))], .ok rom)
  | .error .zeroInName => ([], .error (.failed (.rom .zeroInName)))
  | .error cause => ([.logged (.error cause.message)], .error (.exit 1))

/-- Makes the tone, if it is wanted. If the mixer cannot be opened the session goes on without. -/
def openTone (settings : Settings) (computer : Computer) :
    List SessionEvent × Except SessionFault (Option Tone) :=
  if !settings.hasAudio then ([], .ok none)
  else
    let (asked, made) := Tone.make computer.room computer.mixer settings.frequency settings.volume
    let sent := asked.map SessionEvent.mixer
    match made with
    | .ok (tone, record) => (sent ++ [.logged record], .ok (some tone))
    | .error (.mixer message) =>
      (sent ++ [.logged (.warning ("Audio disabled: " ++ message))], .ok none)
    | .error (.wave cause) => (sent, .error (.wave cause))
    | .error (.frequency cause) => (sent, .error (.frequency cause))

/-- Opens the window. -/
def openWindow (settings : Settings) (rom : Rom) (computer : Computer) (s : Stage) : Turn Unit :=
  let title := programTitle ++ " - " ++ rom.name
  match Window.make computer.window settings.scale settings.foreground settings.background title with
  | .error cause => .halt s (.failed (.window cause))
  | .ok window => .send s [.opened window]

/-- Lays out the keypad. -/
def layKeypad (settings : Settings) (computer : Computer) (s : Stage) : Turn Keypad :=
  let (warnings, laid) := Keypad.ofBindings computer.keyCode? settings.keyboard
  ⟨s, warnings.map .logged, laid.mapError fun text => .failed (.machineKey text)⟩

/-- Sets up the window and the keypad and loads the program. -/
def setUp (settings : Settings) (rom : Rom) (computer : Computer) (s : Stage) : Turn Session :=
  (openWindow settings rom computer s).andThen fun s _ =>
  (layKeypad settings computer s).andThen fun s keypad =>
    let session : Session :=
      { rom, keypad, cyclesPerFrame := cyclesPerFrameAt settings.cyclesPerSecond }
    (session.load s).andThen fun s _ => .pure s session

/-- The stage at the beginning. -/
def firstStage (settings : Settings) (random : RandomSource) (tone : Option Tone) : Stage where
  emulator := { random, hasTone := tone.isSome, tracing := settings.tracing,
                listeners := [Signal.traceLine.name] }
  tone := tone

/-- The records about the end of the loop, and the ending. -/
def farewell : Halt → List SessionEvent × Ending
  | .left => ([.logged (.info "Exiting")], .exit 0)
  | .stopped cause =>
    ([.logged ⟨.error, "Emulation stopped: " ++ cause.message, some (.stopped cause)⟩], .exit 1)
  | .failed cause => ([], .failed cause)

/-- What comes after the loop: the tone is closed, however the loop has ended. -/
def finish (halt : Halt) (s : Stage) : List SessionEvent × Ending :=
  let (sent, ending) := farewell halt
  (sent ++ s.close.2, ending)

/-- Sets up what is needed to run a program. -/
def prepare (settings : Settings) (rom : Rom) (computer : Computer) (random : RandomSource) :
    List SessionEvent × Except Ending (Session × Stage) :=
  match openTone settings computer with
  | (sent, .error cause) => (sent, .error (.failed cause))
  | (sent, .ok tone) =>
    let turn := setUp settings rom computer (firstStage settings random tone)
    match turn.result with
    | .ok session => (sent ++ turn.sent, .ok (session, turn.stage))
    | .error halt =>
      let (rest, ending) := finish halt turn.stage
      (sent ++ turn.sent ++ rest, .error ending)

/-- All that comes before the loop, with the ending if there is no loop. -/
def begin (options : Options) (found : Surroundings) :
    List SessionEvent × Except Ending (Session × Stage) :=
  match found.settings with
  | .error cause => ([], .error (.failed (.settingsName found.settingsName cause)))
  | .ok file =>
    match settle options file with
    | (sent, .error cause) => (sent, .error (.failed cause))
    | (sent, .ok settings) =>
      match readRom options.program.text found.program with
      | (more, .error ending) => (sent ++ more, .error ending)
      | (more, .ok rom) =>
        if options.disassemble then
          let lines := Listing.ofProgram programStart rom.bytes
          (sent ++ more ++ lines.map .listed, .error (.exit 0))
        else
          let (rest, prepared) := prepare settings rom found.computer found.random
          (sent ++ more ++ rest, prepared)

/-- The loop over given rounds, with what comes after it. When there are no more rounds the user
leaves. -/
def loop (rounds : List Round) (session : Session) (s : Stage) : List SessionEvent × Ending :=
  let turn := session.rounds rounds s
  let halt : Halt :=
    match turn.result with
    | .ok () => .left
    | .error halt => halt
  let (rest, ending) := finish halt turn.stage
  (turn.sent ++ rest, ending)

/-- A whole session. -/
def run (options : Options) (found : Surroundings) (rounds : List Round) :
    List SessionEvent × Ending :=
  match begin options found with
  | (sent, .error ending) => (sent, ending)
  | (sent, .ok (session, s)) =>
    let (rest, ending) := loop rounds session s
    (sent ++ rest, ending)

/-- The least level of the records that a session keeps. -/
def logLevel (options : Options) : Log.Level :=
  if options.debug ∨ options.trace then .debug else .info

end Session

end ChipEight
