import ChipEight.Log.Backlog
import ChipEight.Log.Entry
import ChipEight.Storage.FileTree

/-!
# Log files

A log file has a name, a form for its entries and a backlog. A message becomes an entry before
anything is written, so one that does not fit the form changes nothing.

An attempt to write opens the file first. That makes a file, if there was none, even if the entry
cannot be written to it because it is no text of characters. If the file cannot be opened, nobody
looks at the entry. So an entry that can never be written may be held back all the same.

* `LogFile.emit` writes a message to the file, after those that are held back;
* `emit_of_misfit` says what becomes of a message that does not fit the form: nothing; with one that
  fits, `emit_of_entry`, it is up to the backlog.
-/

namespace ChipEight.Log

open Text (CodePoint)

/-- A log file, apart from what is in it. -/
structure LogFile where
  name : String
  format : Format
  /-- The entries that are held back. -/
  backlog : Backlog (List CodePoint) := {}
  deriving DecidableEq, Repr

/-- Why a message is not written, and not held back either. -/
inductive LogFault where
  | entry (cause : EntryFault)
  /-- No file can have the name. -/
  | zeroInName
  /-- No bytes stand for an entry. -/
  | encoding (cause : CodePoint.EncodeFault)
  deriving DecidableEq, Repr

/-- The text of a fault. -/
def LogFault.message : LogFault → String
  | entry cause => cause.message
  | zeroInName => "embedded null byte"
  | encoding cause => cause.message

/-- What attempts to write leave: the files, and the reason if one has been refused. -/
structure Written where
  tree : FileTree
  fault : Option LogFault := none

namespace LogFile

/-- Appends an entry to a file with a name that files can have, with the end of its line. -/
def write (name : String) (entry : List CodePoint) (w : Written) : Written × Attempt :=
  match CodePoint.encode (entry ++ [.char '\n']) with
  | .ok bytes =>
    match w.tree.append name bytes with
    | .ok tree => ({ w with tree }, .written)
    | .error _ => (w, .postponed)
  | .error cause =>
    match w.tree.append name [] with
    | .ok tree => (⟨tree, some (.encoding cause)⟩, .refused)
    | .error _ => (w, .postponed)

/-- Appends an entry to a file, if it can have its name. -/
def append (name : String) (entry : List CodePoint) (w : Written) : Written × Attempt :=
  if name.contains (Char.ofNat 0) then ({ w with fault := some .zeroInName }, .refused)
  else write name entry w

-- Whether there is memory for so many characters.
variable (hasRoom : Nat → Bool)

/-- Writes a message to the file, and says what went wrong for whoever emits it. -/
def emit (m : Message) (f : LogFile) (tree : FileTree) : LogFile × FileTree × Option LogFault :=
  match f.format.entry hasRoom m with
  | .error cause => (f, tree, some (.entry cause))
  | .ok entry =>
    let left := f.backlog.emit (append f.name) entry { tree }
    ({ f with backlog := left.backlog }, left.store.tree, left.store.fault)

variable {hasRoom}

/-- A message that does not fit the form changes neither the file nor what is held back. -/
theorem emit_of_misfit {m : Message} {f : LogFile} {cause : EntryFault}
    (h : f.format.entry hasRoom m = .error cause) (tree : FileTree) :
    emit hasRoom m f tree = (f, tree, some (.entry cause)) := by
  rw [emit, h]

/-- The entry of a message that fits the form is written after those that are held back. -/
theorem emit_of_entry {m : Message} {f : LogFile} {entry : List CodePoint}
    (h : f.format.entry hasRoom m = .ok entry) (tree : FileTree) :
    emit hasRoom m f tree =
      ({ f with backlog := (f.backlog.emit (append f.name) entry { tree }).backlog },
        (f.backlog.emit (append f.name) entry { tree }).store.tree,
        (f.backlog.emit (append f.name) entry { tree }).store.fault) := by
  rw [emit, h]

end LogFile

end ChipEight.Log
