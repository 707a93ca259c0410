import ChipEight.Keypad
import ChipEight.Listing
import ChipEight.Rom
import ChipEight.Settings.Load
import ChipEight.Tone.Basic
import ChipEight.Window

/-!
# What a session sends, and how it ends

A session is one run of the program. All that it does to the outside is a list of events: records
for the log, what is asked of the mixer, the window, the pictures in it, and the lines of a listing.
It ends with an exit code, or with a fault that nobody in the program looks after.
-/

namespace ChipEight

/-- What a log record of a session reports. -/
inductive SessionCause where
  | settings (cause : LoadSettingsFault)
  | stopped (cause : Fault)
  deriving DecidableEq, Repr

/-- What a session sends to the outside. -/
inductive SessionEvent where
  | logged (record : Log.Record SessionCause)
  | mixer (event : MixerEvent)
  /-- The window is opened. -/
  | opened (window : Window)
  /-- The session waits for the next picture; the argument is how many there are in a second. -/
  | ticked (rate : Nat)
  /-- A picture is shown. -/
  | presented (display : Display)
  /-- A line of the listing is printed. -/
  | listed (line : Listing)
  deriving DecidableEq

/-- A fault that ends a session and that nobody looks after. -/
inductive SessionFault where
  /-- The name of the settings file cannot be looked up. -/
  | settingsName (name : String) (cause : FileFault)
  | setting (cause : SettingFault)
  | rom (cause : RomFault)
  | wave (cause : WaveFault)
  /-- The frequency of the tone cannot be written. -/
  | frequency (cause : NumberFault)
  | window (cause : WindowFault)
  /-- A text that is no hexadecimal integer stands where a key of the machine should. -/
  | machineKey (text : String)
  | load (cause : LoadFault)
  /-- The time since the last picture cannot be divided among the cycles. -/
  | time (cause : NumberFault)
  | emulator (cause : EmulatorFault)
  deriving DecidableEq, Repr

/-- The text of a fault. -/
def SessionFault.message : SessionFault → String
  | settingsName name cause => cause.message name
  | setting cause => cause.message
  | rom cause => cause.message
  | wave cause => cause.message
  | frequency cause => cause.message
  | window cause => cause.message
  | machineKey text => Text.IntegerLiteral.faultMessage 16 text
  | load cause => cause.message
  | time cause => cause.message
  | emulator cause => cause.message

/-- Why a session goes on no longer. -/
inductive Halt where
  /-- The user leaves. -/
  | left
  /-- An instruction of the program failed. -/
  | stopped (cause : Fault)
  | failed (cause : SessionFault)
  deriving DecidableEq, Repr

/-- How a session ends. -/
inductive Ending where
  | exit (code : Nat)
  | failed (cause : SessionFault)
  deriving DecidableEq, Repr

/-- What comes of one round: what the user did since the last one, and how long that was. -/
structure Round where
  input : List InputEvent := []
  milliseconds : Int
  deriving DecidableEq, Repr

end ChipEight
