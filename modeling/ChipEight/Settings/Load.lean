import ChipEight.Log.Record
import ChipEight.Settings.Basic
import ChipEight.Storage.FileTree
import ChipEight.Text.Utf8
import ChipEight.Toml.Document

/-!
# Loading settings

What the user wrote is laid over the defaults. If there is no file, the defaults hold; if there is
one with which something is wrong, that is noted in the log, and again the defaults hold, all of
them.

Whether there is a file is looked up first, and a fault in that is passed on. Only what goes wrong
from then on, when the file is opened and read, leads to the defaults.

* `Lookup.ofAnswer` is what the lookup comes to, and `SettingsFile.ofReading` what is there to load;
* `Settings.load` is the table that results, with the note if there is one.
-/

namespace ChipEight

open Toml (Table)

/-- What comes of looking a file up before it is opened. -/
inductive Lookup where
  | found
  | absent
  /-- The lookup itself goes wrong, and it is not known whether there is a file. -/
  | fails (cause : FileFault)
  deriving DecidableEq, Repr

namespace Lookup

/-- The numbers of the faults which say that there is no file: there is nothing, there is no handle,
something on the way is no directory, and too many links are on the way. -/
def absences : List Nat := [2, 9, 20, 40]

/-- A lookup, by the answer of the operating system. It is not asked about a name with a zero
character, which no file can have. -/
def ofAnswer (name : String) (answer : Except FileFault Unit) : Lookup :=
  if name.contains (Char.ofNat 0) then .absent
  else match answer with
    | .ok () => .found
    | .error cause => if cause.number ∈ absences then .absent else .fails cause

end Lookup

/-- What there is under the name of a settings file. -/
inductive SettingsFile where
  | missing
  | unreadable (name : String) (cause : FileFault)
  | bytes (content : List UInt8)

/-- Why a settings file is of no use. -/
inductive LoadSettingsFault where
  | unreadable (name : String) (cause : FileFault)
  | notText (cause : Text.Utf8.Fault)
  | notDocument (source : List Char) (cause : Toml.Fault)
  | setting (cause : SettingFault)
  deriving DecidableEq, Repr

/-- The text of a fault. -/
def LoadSettingsFault.message : LoadSettingsFault → String
  | unreadable name cause => cause.message name
  | notText cause => cause.message
  | notDocument source cause => cause.message source
  | setting cause => cause.message

namespace SettingsFile

/-- What there is under a name, by what comes of looking it up and of reading the file. -/
def ofReading (name : String) (lookup : Lookup) (reading : Except FileFault (List UInt8)) :
    Except FileFault SettingsFile :=
  match lookup, reading with
  | .fails cause, _ => .error cause
  | .absent, _ => .ok .missing
  | .found, .ok content => .ok (.bytes content)
  | .found, .error cause => .ok (.unreadable name cause)

/-- What there is under a name in a tree of files. -/
def ofTree (tree : FileTree) (name : String) : Except FileFault SettingsFile :=
  ofReading name (.ofAnswer name (tree.lookUp name)) (tree.read name)

/-- The table that a file holds. -/
def table (content : List UInt8) : Except LoadSettingsFault Table :=
  match Text.Utf8.decode content with
  | .error cause => .error (.notText cause)
  | .ok text =>
    let source := Toml.Document.simpleLineEnds text
    (Toml.Document.read source).mapError (.notDocument source)

end SettingsFile

namespace Settings

/-- A table laid over the defaults, if that gives settings. -/
def overDefaults (t : Table) : Except LoadSettingsFault Table :=
  let merged := defaults.merge t
  match ofTable merged with
  | .ok _ => .ok merged
  | .error cause => .error (.setting cause)

/-- The table of settings, and what is noted about the file. -/
def load (file : SettingsFile) : Table × Option (Log.Record LoadSettingsFault) :=
  let outcome : Except LoadSettingsFault Table :=
    match file with
    | .missing => .ok defaults
    | .unreadable name cause => .error (.unreadable name cause)
    | .bytes content => (SettingsFile.table content).bind overDefaults
  match outcome with
  | .ok t => (t, none)
  | .error cause =>
    (defaults, some ⟨.error, "Failed to load config: " ++ cause.message, some cause⟩)

end Settings

end ChipEight
