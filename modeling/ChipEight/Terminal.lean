import ChipEight.Computer.Usual
import ChipEight.Session.Event

/-!
# The terminal

Where there is no window, a session is played in a terminal. A picture is one line of characters for
every row. The user writes one line for every round: a key with a plus sign in front is pressed, one
with a minus sign is released, and a number is the time in milliseconds.

* `Terminal.picture` is a picture as text;
* `Terminal.round` reads the line of a round.
-/

namespace ChipEight.Terminal

/-- The time of a round if the user says nothing about it, in milliseconds. -/
def usualTime : Int := 17

/-- A row of a picture. -/
def row (pixels : BitVec 64) : String :=
  String.ofList ((List.range 64).map fun column => if pixels.getMsbD column then '#' else '.')

/-- A picture. -/
def picture (d : Display) : String :=
  "\n".intercalate (d.toList.map row)

/-- What a word of a line does. -/
def event? (word : String) : Option InputEvent :=
  match word.toList with
  | '+' :: name => (KeyName.code? (String.ofList name)).map .keyDown
  | '-' :: name => (KeyName.code? (String.ofList name)).map .keyUp
  | _ => if word = "quit" then some .quit else none

/-- Reads the line of a round. Words that mean nothing are left out. -/
def round (line : String) : Round :=
  let words := ((line.splitOn "\n").flatMap (·.splitOn " ")).filter fun w => w ≠ ""
  { input := words.filterMap event?
    milliseconds := ((words.filterMap String.toNat?).head?.map Int.ofNat).getD usualTime }

end ChipEight.Terminal
