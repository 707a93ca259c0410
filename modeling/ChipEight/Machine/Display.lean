/-!
# The display

Thirty-two rows of sixty-four pixels. A row is a word of sixty-four bits with the leftmost pixel
in the most significant one, so a row of a sprite is a byte at the left edge, rotated to its
column: what leaves the row on the right comes in on the left. Drawing flips the pixels that the
sprite sets, and reports whether one of them had been lit.

* `Display.pixel` is the view of the display as a picture;
* `Display.draw` draws a sprite, one byte for each row, downwards and round the lower edge.
-/

namespace ChipEight

/-- The pixels of a row. -/
def displayWidth : Nat := 64

/-- The rows of the display. -/
def displayHeight : Nat := 32

/-- The picture: its rows from the top. -/
abbrev Display := Vector (BitVec 64) 32

namespace Display

/-- No pixel is lit. -/
def blank : Display := Vector.replicate 32 0

/-- A row by its number, counted round the lower edge. -/
def rowAt (k : Nat) : Fin 32 := Fin.ofNat 32 k

/-- A column by its number, counted round the right edge. -/
def columnAt (k : Nat) : Fin 64 := Fin.ofNat 64 k

/-- Whether the pixel in a row and column is lit. -/
def pixel (d : Display) (row : Fin 32) (column : Fin 64) : Bool :=
  d[row].getMsbD column

/-- The pixels of its row that a byte of a sprite sets, from a column on. -/
def pattern (byte : UInt8) (column : Nat) : BitVec 64 :=
  (BitVec.ofNat 64 byte.toNat <<< 56).rotateRight column

/-- Draws a sprite with its upper left corner in the given column and row, and tells whether it
met a lit pixel. -/
def draw (column : Nat) : List UInt8 → Nat → Display → Display × Bool
  | [], _, d => (d, false)
  | byte :: rest, row, d =>
    let here := rowAt row
    let flipped := pattern byte column
    let drawn := draw column rest (row + 1) (d.set here (d[here] ^^^ flipped))
    (drawn.1, d[here] &&& flipped != 0 || drawn.2)

end Display

end ChipEight
