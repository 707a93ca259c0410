import ChipEight.Settings.Basic
import ChipEight.Storage.Path

/-!
# Options

What the command line can say: the file of the program, and options in any order. Some options take
a value. What is given there wins over the settings.

* `Flag` are the options with their names;
* `Options.applyTo` lays the options over a table of settings.
-/

namespace ChipEight

open Toml (Table)

/-- An option of the command line. -/
inductive Flag where
  | help
  | config
  | debug
  | trace
  | cyclesPerSecond
  | scale
  | mute
  | noLogFile
  | disassemble
  deriving DecidableEq, Repr

namespace Flag

/-- Every option, in the order in which they are named. -/
def all : List Flag :=
  [help, config, debug, trace, cyclesPerSecond, scale, mute, noLogFile, disassemble]

/-- The short name of the option that has one. -/
def shortName : String := "-h"

/-- The long name of an option. -/
def longName : Flag → String
  | help => "--help"
  | config => "--config"
  | debug => "--debug"
  | trace => "--trace"
  | cyclesPerSecond => "--cycles-per-second"
  | scale => "--scale"
  | mute => "--mute"
  | noLogFile => "--no-log-file"
  | disassemble => "--disassemble"

/-- An option with all its names, as it is called in messages. -/
def title (f : Flag) : String :=
  if f = help then shortName ++ "/" ++ f.longName else f.longName

/-- Whether an option takes a value. -/
def takesValue : Flag → Bool
  | config => true
  | cyclesPerSecond => true
  | scale => true
  | _ => false

/-- The option of a name. -/
def ofName? (name : String) : Option Flag :=
  if name = shortName then some help else all.find? (·.longName = name)

/-- The options whose long names begin in a certain way. -/
def withPrefix (start : String) : List Flag :=
  all.filter fun f => start.toList.isPrefixOf f.longName.toList

end Flag

/-- What the command line says. -/
structure Options where
  program : Path
  config : Option Path := none
  debug : Bool := false
  trace : Bool := false
  cyclesPerSecond : Option Int := none
  scale : Option Int := none
  mute : Bool := false
  noLogFile : Bool := false
  disassemble : Bool := false
  deriving DecidableEq, Repr

namespace Options

/-- The least that can be asked for. -/
def atLeastOne (n : Int) : Toml.Value :=
  .number (.integer (max 1 n))

/-- Sets a value if there is one. -/
def assignGiven (table name : String) (v : Option Toml.Value) (t : Table) : Table :=
  match v with
  | some v => Settings.assign table name v t
  | none => t

/-- A table of settings with the options laid over it. -/
def applyTo (o : Options) (t : Table) : Table :=
  let t := assignGiven "general" "cycles_per_second" (o.cyclesPerSecond.map atLeastOne) t
  let t := assignGiven "general" "scale" (o.scale.map atLeastOne) t
  let t := if o.mute then Settings.assign "audio" "enable" (.number (.truth false)) t else t
  if o.trace then Settings.assign "debug" "trace" (.number (.truth true)) t else t

end Options

end ChipEight
