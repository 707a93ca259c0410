/-!
# Paths

The name of a file as a list of steps from a root, or from the working directory. Empty steps and
steps to the same directory mean nothing and are dropped; steps to the directory above are kept,
since a link may stand in between.

* `Path.ofString` reads a path and `Path.text` writes it;
* `Path.stem` is the name of the file without its last suffix.
-/

namespace ChipEight

/-- A path: where it starts, and the steps from there. -/
structure Path where
  /-- One slash, two slashes, which some systems treat specially, or nothing. -/
  root : String
  steps : List String
  deriving DecidableEq, Repr

namespace Path

/-- The texts between the slashes. -/
def split (s : List Char) : List (List Char) :=
  match s with
  | [] => [[]]
  | c :: rest =>
    match split rest with
    | first :: others => if c = '/' then [] :: first :: others else (c :: first) :: others
    | [] => [[c]]

/-- Reads a path. -/
def ofString (s : String) : Path :=
  let slashes := (s.toList.takeWhile (· == '/')).length
  let steps := (split s.toList).map String.ofList
  ⟨if slashes = 0 then "" else if slashes = 2 then "//" else "/",
    steps.filter fun step => step ≠ "" ∧ step ≠ "."⟩

/-- A path as text; the working directory itself is a point. -/
def text (p : Path) : String :=
  let t := p.root ++ "/".intercalate p.steps
  if t.isEmpty then "." else t

/-- The last step; empty for a root. -/
def name (p : Path) : String :=
  p.steps.getLast?.getD ""

/-- A file name without its last suffix. A point at the beginning or at the end begins no
suffix. -/
def stemOf (name : List Char) : List Char :=
  let suffix := (name.reverse.takeWhile (· != '.')).length
  if name.contains '.' ∧ 0 < suffix ∧ suffix + 1 < name.length then
    name.take (name.length - (suffix + 1))
  else name

/-- The name of the file without its last suffix. -/
def stem (p : Path) : String :=
  String.ofList (stemOf p.name.toList)

end Path

end ChipEight
