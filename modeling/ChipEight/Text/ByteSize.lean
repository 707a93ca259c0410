import ChipEight.Text.Notation

/-!
# Sizes of memory

A number of bytes as text, in the largest unit of which there is at least one, with three digits, or
four where the next unit is near. Each unit is 1024 of the one before.

* `ByteSize.text` writes a number of bytes.
-/

namespace ChipEight.Text.ByteSize

/-- The units. -/
def units : List String :=
  ["bytes", "KiB", "MiB", "GiB", "TiB", "PiB", "EiB"]

/-- The place of the unit in which a number of bytes is written. -/
def unitOf (bytes : Nat) : Nat :=
  let place := bytes.log2 / 10
  min (if nearestEven bytes (Nat.pow 1024 place) = 1024 then place + 1 else place) 6

/-- A number of bytes as text. -/
def text (bytes : Nat) : String :=
  let place := unitOf bytes
  let unit := Nat.pow 1024 place
  let amount :=
    if place = 0 then Notation.fixed 0 false bytes 1
    else if nearestEven bytes unit < 1000 then Notation.general 3 true bytes unit
    else Notation.fixed 0 true bytes unit
  String.ofList amount ++ " " ++ units.getD place ""

end ChipEight.Text.ByteSize
