import ChipEight.Machine.State
import ChipEight.Mnemonic

/-!
# Traces

While tracing is on, every fetched instruction leaves one line: where it stands, the word and its
assembly text, and the registers as they are before it is executed. Only the newest lines are kept.

* `traceLine` writes the line;
* `Trace.push` adds one, and `Trace.length_push_le` says that the trace never outgrows its limit.
-/

namespace ChipEight

/-- A text followed by blanks until it is `width` characters long. -/
def padRight (width : Nat) (text : String) : String :=
  text ++ String.ofList (List.replicate (width - text.length) ' ')

/-- The line about a fetched word; the program counter stands behind the word already. -/
def traceLine (word : Int) (m : Machine) : String :=
  let hex := Text.Hex.padded
  hex 4 (m.counter - 2) ++ ": opcode: " ++ hex 4 word ++ " " ++ padRight 16 (mnemonic word)
    ++ " | I: " ++ hex 4 m.index
    ++ " | SP: " ++ hex 2 m.stackPointer
    ++ " | DT: " ++ hex 2 m.delayTimer
    ++ " | ST: " ++ hex 2 m.soundTimer
    ++ " | V: " ++ " ".intercalate (m.registerValues.map (hex 2))

/-- The lines that are kept, the newest first. -/
structure Trace where
  newestFirst : List String := []
  deriving DecidableEq

namespace Trace

/-- How many lines are kept. -/
def limit : Nat := 2024

/-- The trace with one more line, without the oldest one if there are too many. -/
def push (line : String) (t : Trace) : Trace :=
  ⟨(line :: t.newestFirst).take limit⟩

/-- The lines, the oldest first. -/
def lines (t : Trace) : List String :=
  t.newestFirst.reverse

/-- The trace never outgrows its limit. -/
theorem length_push_le (line : String) (t : Trace) : (t.push line).lines.length ≤ limit := by
  simp only [push, lines, List.length_reverse, List.length_take]
  exact Nat.min_le_left _ _

end Trace

end ChipEight
