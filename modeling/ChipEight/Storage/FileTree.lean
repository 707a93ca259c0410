import ChipEight.Storage.Path
import ChipEight.Text.Quoted

/-!
# File trees

The files and directories below a working directory. A name is followed step by step, and each
step but the last needs a directory; the ways in which that can fail are `FileFault`.

Of what lies outside the working directory only that is known which every system has: directories at
the root, and the file that is always empty. How far below the root the working directory is, is not
known.

* `FileTree.find` follows a name, as it was given;
* `FileTree.lookUp`, `FileTree.read`, `FileTree.append`, `FileTree.makeDirectory`,
  `FileTree.removeTree` and `FileTree.unlink` are the operations.
-/

namespace ChipEight

/-- Why a file cannot be used: a fault of the operating system, by its number, and what it means. -/
structure FileFault where
  number : Nat
  meaning : String
  deriving DecidableEq, Repr

namespace FileFault

def missing : FileFault := ⟨2, "No such file or directory"⟩

/-- The user may not use the file, or not search a directory on the way to it. No file of a tree has
this fault. -/
def denied : FileFault := ⟨13, "Permission denied"⟩

def notDirectory : FileFault := ⟨20, "Not a directory"⟩

def isDirectory : FileFault := ⟨21, "Is a directory"⟩

def nameTooLong : FileFault := ⟨36, "File name too long"⟩

/-- The text of a fault about a named file. -/
def message (name : String) (f : FileFault) : String :=
  s!"[Errno {f.number}] " ++ f.meaning ++ ": " ++ Text.quote name

end FileFault

/-- What stands at a place. -/
inductive Entry where
  | file (bytes : List UInt8)
  /-- A file that is empty, whatever is written to it. -/
  | sink
  | directory
  deriving DecidableEq, Repr

/-- A place. -/
inductive Place where
  /-- The steps from the working directory. -/
  | inside (steps : List String)
  /-- The steps from the root. -/
  | rooted (steps : List String)
  /-- A directory above the working directory. -/
  | above
  deriving DecidableEq, Repr

/-- The files and directories below a working directory, by their steps from it. -/
structure FileTree where
  entries : List (List String × Entry) := []
  deriving DecidableEq, Repr

namespace FileTree

/-- The longest name of one step, in bytes. -/
def maxStepSize : Nat := 255

/-- The longest name of a file, in bytes. -/
def maxNameSize : Nat := 4095

/-- The directories that every system has at its root. -/
def rootDirectories : List String :=
  ["bin", "boot", "dev", "etc", "lib", "media", "mnt", "opt", "run", "sbin", "srv", "tmp", "usr",
    "var"]

/-- What every system has at a place, given by the steps from the root. -/
def systemEntry? : List String → Option Entry
  | [] => some .directory
  | [step] => if step ∈ rootDirectories then some .directory else none
  | ["dev", "null"] => some .sink
  | _ => none

/-- What stands at a place. The working directory is always there, and so are the directories above
it. -/
def entry? (t : FileTree) : Place → Option Entry
  | .above => some .directory
  | .rooted steps => systemEntry? steps
  | .inside [] => some .directory
  | .inside steps => (t.entries.find? (·.1 = steps)).map (·.2)

/-- The place one step further. The root is above itself. -/
def Place.step (p : Place) (step : String) : Place :=
  match p, step with
  | p, "" => p
  | p, "." => p
  | .above, _ => .above
  | .inside [], ".." => .above
  | .inside steps, ".." => .inside steps.dropLast
  | .inside steps, step => .inside (steps ++ [step])
  | .rooted steps, ".." => .rooted steps.dropLast
  | .rooted steps, step => .rooted (steps ++ [step])

/-- Whether a step stays with the directories that are known. -/
def isOwnStep (step : String) : Bool :=
  step = "" || step = "." || step = ".."

/-- Follows steps from a place that is there. The last step may lead to nothing: then the result
is the place where something could be made. -/
def follow (t : FileTree) (here : Place) : List String → Except FileFault (Place × Option Entry)
  | [] => .ok (here, t.entry? here)
  | step :: rest =>
    match t.entry? here with
    | none => .error .missing
    | some (.file _) | some .sink => .error .notDirectory
    | some .directory =>
      if maxStepSize < step.utf8ByteSize then .error .nameTooLong
      else if here = .above ∧ !isOwnStep step then .error .missing
      else follow t (Place.step here step) rest

/-- Follows a name as it was given. -/
def find (t : FileTree) (name : String) : Except FileFault (Place × Option Entry) :=
  if name.isEmpty then .error .missing
  else if maxNameSize < name.utf8ByteSize then .error .nameTooLong
  else
    let start := if name.startsWith "/" then Place.rooted [] else .inside []
    follow t start ((Path.split name.toList).map String.ofList)

/-- Looks up whether there is anything under a name. -/
def lookUp (t : FileTree) (name : String) : Except FileFault Unit :=
  match t.find name with
  | .error f => .error f
  | .ok (_, none) => .error .missing
  | .ok (_, some _) => .ok ()

/-- The content of a file. -/
def read (t : FileTree) (name : String) : Except FileFault (List UInt8) :=
  match t.find name with
  | .error f => .error f
  | .ok (_, none) => .error .missing
  | .ok (_, some .directory) => .error .isDirectory
  | .ok (_, some .sink) => .ok []
  | .ok (_, some (.file bytes)) => .ok bytes

/-- The tree with something at a place, in the place of what was there. -/
def put (t : FileTree) (place : List String) (e : Entry) : FileTree :=
  ⟨(t.entries.filter (·.1 ≠ place)) ++ [(place, e)]⟩

/-- Adds bytes to the end of a file, which is made if it is not there. Nothing is made outside the
working directory. -/
def append (t : FileTree) (name : String) (bytes : List UInt8) : Except FileFault FileTree :=
  match t.find name with
  | .error f => .error f
  | .ok (_, some .directory) => .error .isDirectory
  | .ok (_, some .sink) => .ok t
  | .ok (.inside place, some (.file old)) => .ok (t.put place (.file (old ++ bytes)))
  | .ok (.inside place, none) => .ok (t.put place (.file bytes))
  | .ok (_, _) => .error .missing

/-- Makes a directory with all directories above it, as far as they are missing. -/
def makeDirectory (t : FileTree) (p : Path) : FileTree :=
  (List.range p.steps.length).foldl (fun t k =>
    let place := p.steps.take (k + 1)
    if (t.entry? (.inside place)).isSome then t else t.put place .directory) t

/-- Puts a file into the tree, with the directories above it. -/
def addFile (t : FileTree) (p : Path) (bytes : List UInt8) : FileTree :=
  (t.makeDirectory { p with steps := p.steps.dropLast }).put p.steps (.file bytes)

/-- Removes what stands at a place and all that is below it. -/
def removeTree (t : FileTree) (p : Path) : FileTree :=
  ⟨t.entries.filter fun e => !p.steps.isPrefixOf e.1⟩

/-- Removes a file. -/
def unlink (t : FileTree) (p : Path) : FileTree :=
  ⟨t.entries.filter fun e => e.1 ≠ p.steps⟩

end FileTree

end ChipEight
