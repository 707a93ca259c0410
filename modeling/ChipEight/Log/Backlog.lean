/-!
# The backlog of a log file

Records are appended to a file. A record that cannot be written now is held back, and tried again,
before the new one, when the next record comes. What can become of an attempt is an `Attempt`: some
failures go to whoever emits the record, and then nothing more is tried.

* `Backlog.emit` writes a record after the ones that are held back, for any way to write;
* `Attempt.scripted` is a way to write whose outcomes are known beforehand.
-/

namespace ChipEight.Log

/-- What became of an attempt to write. -/
inductive Attempt where
  | written
  /-- The file cannot be written now. -/
  | postponed
  /-- The attempt failed in a way that is not for the backlog to mend. -/
  | refused
  deriving DecidableEq, Repr

/-- The records that are held back, in the order in which they came. -/
structure Backlog (α : Type) where
  held : List α := []
  deriving DecidableEq, Repr

/-- What emitting a record leaves: where the records are written to, the backlog, and whether an
attempt was refused. -/
structure Emission (σ α : Type) where
  store : σ
  backlog : Backlog α
  refused : Bool

namespace Backlog

variable {σ α : Type}

/-- Tries every record once, and gives those that are to be held back again, unless an attempt was
refused: then the ones after it are not tried. -/
def retry (write : α → σ → σ × Attempt) : List α → σ → σ × Option (List α)
  | [], s => (s, some [])
  | r :: rest, s =>
    match write r s with
    | (s, .written) => retry write rest s
    | (s, .postponed) =>
      let (s, kept) := retry write rest s
      (s, kept.map (r :: ·))
    | (s, .refused) => (s, none)

/-- Writes a record, after all that are held back. -/
def emit (write : α → σ → σ × Attempt) (r : α) (b : Backlog α) (s : σ) : Emission σ α :=
  match retry write b.held s with
  | (s, none) => ⟨s, b, true⟩
  | (s, some kept) =>
    match write r s with
    | (s, .written) => ⟨s, ⟨kept⟩, false⟩
    | (s, .postponed) => ⟨s, ⟨kept ++ [r]⟩, false⟩
    | (s, .refused) => ⟨s, ⟨kept⟩, true⟩

/-- How many records are held back. -/
def pending (b : Backlog α) : Nat :=
  b.held.length

end Backlog

/-- Attempts whose outcomes are known beforehand. What comes after them is written. -/
def Attempt.scripted {α : Type} (_ : α) : List Attempt → List Attempt × Attempt
  | [] => ([], .written)
  | outcome :: rest => (rest, outcome)

end ChipEight.Log
