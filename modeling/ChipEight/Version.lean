/-!
# Name and version

The name under which the program presents itself and the version it belongs to. A version that is
not stable says at which stage it is.
-/

namespace ChipEight

/-- The name of the program: the title of its window and the source of its log records. -/
def programTitle : String := "PyChip8"

/-- A version: three numbers, a stage and the number within that stage. -/
structure Version where
  major : Nat
  minor : Nat
  patch : Nat
  stage : String
  serial : Nat
  deriving DecidableEq, Repr

namespace Version

/-- The version of this program. -/
def current : Version := ⟨0, 1, 0, "dev", 0⟩

/-- Whether the version is still in development. -/
def isDevelopment (v : Version) : Bool :=
  v.stage != "stable"

/-- The version as text; the stage is named only in development. -/
def text (v : Version) : String :=
  let numbers := s!"{v.major}.{v.minor}.{v.patch}"
  if v.isDevelopment then numbers ++ s!"-{v.stage}.{v.serial}" else numbers

end Version

end ChipEight
