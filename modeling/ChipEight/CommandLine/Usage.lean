import ChipEight.CommandLine.Arguments

/-!
# How the program is called

The texts about the command line: a summary of all that can be said there, and the line about one
that cannot be read.

* `Usage.summary` is one line, and `Usage.help` is the whole text;
* `ArgumentFault.line` is the line about a fault.
-/

namespace ChipEight

namespace Usage

/-- The name under which the program is called. -/
def commandName : String := "pychip8"

/-- An option with its value, as it is written on the command line. -/
def form (f : Flag) : String :=
  let capital (c : Char) : Char := if c = '-' then '_' else c.toUpper
  let value := String.ofList ((f.longName.toList.drop 2).map capital)
  if f.takesValue then f.longName ++ " " ++ value else f.longName

/-- What an option is for. -/
def purpose : Flag → String
  | .help => "show this help message and exit"
  | .config => "TOML config file"
  | .debug => "debug logging"
  | .trace => "log every executed instruction"
  | .cyclesPerSecond => "instructions in a second"
  | .scale => "size of a pixel in the window"
  | .mute => "disable the tone"
  | .noLogFile => "log to the console only"
  | .disassemble => "print the ROM as assembly and exit"

/-- All that can be said on the command line, in one line. -/
def summary : String :=
  let flags := Flag.all.map fun f => "[" ++ form f ++ "]"
  " ".intercalate (["usage:", commandName] ++ flags ++ ["rom"])

/-- The whole text about the command line. -/
def help : String :=
  let row (name text : String) := "  " ++ name ++ "\n      " ++ text
  "\n".intercalate ([summary, "", "CHIP-8 virtual machine", "", row "rom" "path to a CHIP-8 ROM"]
    ++ Flag.all.map fun f => row (form f) (purpose f))

end Usage

/-- The line about a command line that cannot be read. -/
def ArgumentFault.line (f : ArgumentFault) : String :=
  Usage.commandName ++ ": error: " ++ f.message

end ChipEight
