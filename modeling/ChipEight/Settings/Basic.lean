import ChipEight.Text.IntegerLiteral
import ChipEight.Toml.Value

/-!
# Settings

What can be set: the speed and the scale, the tone, the colors, the keys and tracing. Settings come
from a table that lays what the user wrote over the defaults. The first thing that is wrong with
such a table, in a fixed order, is its fault.

* `Settings.defaults` are the defaults, as a table;
* `Settings.ofTable` reads the settings from a table, or says what is wrong with it;
* `SettingFault.message` is the text of that.
-/

namespace ChipEight

open Toml (Value Table)

/-- The settings. -/
structure Settings where
  cyclesPerSecond : Int
  scale : Int
  hasAudio : Bool
  frequency : Number
  volume : Number
  foreground : String
  background : String
  /-- The keys of the machine, each with the name of the key that stands for it. -/
  keyboard : List (String × String)
  tracing : Bool

/-- What is wrong with a table of settings. -/
inductive SettingFault where
  | notTable (name : String)
  | missing (name : String)
  | notPositiveInteger (name : String)
  | notTruth (name : String)
  | notPositive (name : String)
  | notFraction (name : String)
  | notColor (name : String)
  /-- The digits of a color are none. -/
  | notHexadecimal (digits : String)
  | notMachineKey (name : String)
  | notKeyName (machineKey : String)
  deriving DecidableEq, Repr

/-- The text of a fault. -/
def SettingFault.message : SettingFault → String
  | notTable name => "[" ++ name ++ "] must be a table"
  | missing name => Text.quote name
  | notPositiveInteger name => name ++ " must be a positive integer"
  | notTruth name => name ++ " must be a boolean"
  | notPositive name => name ++ " must be a positive number"
  | notFraction name => name ++ " must be between 0.0 and 1.0"
  | notColor name => name ++ " must be a '#RRGGBB' string"
  | notHexadecimal digits => Text.IntegerLiteral.faultMessage 16 digits
  | notMachineKey name => "keyboard." ++ name ++ " is not a CHIP-8 key (0-F)"
  | notKeyName machineKey => "keyboard." ++ machineKey ++ " must be a key name"

namespace Settings

/-- The keys of the machine lie over the left side of a keyboard. -/
def defaultKeyboard : List (String × String) :=
  [("1", "1"), ("2", "2"), ("3", "3"), ("C", "4"),
   ("4", "q"), ("5", "w"), ("6", "e"), ("D", "r"),
   ("7", "a"), ("8", "s"), ("9", "d"), ("E", "f"),
   ("A", "z"), ("0", "x"), ("B", "c"), ("F", "v")]

/-- The defaults. -/
def defaults : Table :=
  [("general", .table
      [("cycles_per_second", .number (.integer 700)), ("scale", .number (.integer 10))]),
   ("audio", .table
      [("enable", .number (.truth true)), ("frequency", .number (.real (.ofInt 440))),
       ("volume", .number (.real (.ofQuotient 1 4)))]),
   ("colors", .table [("foreground", .text "#E0E0E0"), ("background", .text "#101010")]),
   ("keyboard", .table (defaultKeyboard.map fun k => (k.1, .text k.2))),
   ("debug", .table [("trace", .number (.truth false))])]

/-- The table of a name. -/
def nest (t : Table) (name : String) : Except SettingFault Table :=
  match t.get? name with
  | some (.table inner) => .ok inner
  | _ => .error (.notTable name)

/-- The value of a name in a table. -/
def entry (t : Table) (name : String) : Except SettingFault Value :=
  match t.get? name with
  | some v => .ok v
  | none => .error (.missing name)

/-- A positive integer. -/
def positiveInteger (name : String) : Value → Except SettingFault Int
  | .number (.integer n) => if 0 < n then .ok n else .error (.notPositiveInteger name)
  | _ => .error (.notPositiveInteger name)

/-- A truth value. -/
def truth (name : String) : Value → Except SettingFault Bool
  | .number (.truth b) => .ok b
  | _ => .error (.notTruth name)

/-- A number that is not zero or less. -/
def positive (name : String) : Value → Except SettingFault Number
  | .number n => if n.le (.integer 0) then .error (.notPositive name) else .ok n
  | _ => .error (.notPositive name)

/-- A number from zero to one. -/
def fraction (name : String) : Value → Except SettingFault Number
  | .number n =>
    if Number.le (.integer 0) n && n.le (.integer 1) then .ok n else .error (.notFraction name)
  | _ => .error (.notFraction name)

/-- A color: a mark, and six characters that are a hexadecimal integer together. -/
def color (name : String) : Value → Except SettingFault String
  | .text s =>
    match s.toList with
    | '#' :: digits =>
      if digits.length ≠ 6 then .error (.notColor name)
      else match Text.IntegerLiteral.parse? 16 (String.ofList digits) with
        | some _ => .ok s
        | none => .error (.notHexadecimal (String.ofList digits))
    | _ => .error (.notColor name)
  | _ => .error (.notColor name)

/-- Whether a text names a key of the machine: one hexadecimal digit. -/
def isMachineKey (name : String) : Bool :=
  match name.toList with
  | [c] => c.toNat < 128 && (Text.digitValue? c).any (· < 16)
  | _ => false

/-- A key of the machine with the name of the key that stands for it. -/
def binding : String × Value → Except SettingFault (String × String)
  | (machineKey, v) =>
    if !isMachineKey machineKey then .error (.notMachineKey machineKey)
    else match v with
      | .text s => if s.isEmpty then .error (.notKeyName machineKey) else .ok (machineKey, s)
      | _ => .error (.notKeyName machineKey)

/-- Reads the settings from a table. -/
def ofTable (t : Table) : Except SettingFault Settings := do
  let general ← nest t "general"
  let audio ← nest t "audio"
  let colors ← nest t "colors"
  let keyboard ← nest t "keyboard"
  let debug ← nest t "debug"
  let cyclesPerSecond ←
    positiveInteger "general.cycles_per_second" (← entry general "cycles_per_second")
  let scale ← positiveInteger "general.scale" (← entry general "scale")
  let hasAudio ← truth "audio.enable" (← entry audio "enable")
  let frequency ← positive "audio.frequency" (← entry audio "frequency")
  let volume ← fraction "audio.volume" (← entry audio "volume")
  let foreground ← color "colors.foreground" (← entry colors "foreground")
  let background ← color "colors.background" (← entry colors "background")
  let keyboard ← keyboard.mapM binding
  let tracing ← truth "debug.trace" (← entry debug "trace")
  return { cyclesPerSecond, scale, hasAudio, frequency, volume, foreground, background, keyboard,
           tracing }

/-- Sets a value in one of the tables. -/
def assign (table name : String) (v : Value) (t : Table) : Table :=
  match t.get? table with
  | some (.table inner) => t.put table (.table (Table.put name v inner))
  | _ => t

end Settings

end ChipEight
