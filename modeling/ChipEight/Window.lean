import ChipEight.Color
import ChipEight.Computer
import ChipEight.Machine.Display
import ChipEight.Signed
import ChipEight.Version

/-!
# The window

The window shows the display in two colors, with every pixel blown up to a rectangle. How large it
is, the screen has a say in. The coordinates of a point are kept in thirty-two bits: one that does
not fit is a fault, before it is asked whether the window has such a point.

* `Window.make` checks the colors, asks the screen for the size and checks the title;
* `Window.colorAt` is the color of a pixel of the display, and `Window.screenColor` that of a point
  of the window.
-/

namespace ChipEight

/-- A window. -/
structure Window where
  /-- How many points there are in a row of the window. -/
  width : Nat
  /-- How many rows of points there are. -/
  height : Nat
  foreground : Color
  background : Color
  title : String
  deriving DecidableEq, Repr

/-- Why there can be no window. -/
inductive WindowFault where
  | color (cause : ColorFault)
  /-- The screen has no window of the size. -/
  | size (cause : Refusal)
  | zeroInTitle
  deriving DecidableEq, Repr

/-- The text of a fault. -/
def WindowFault.message : WindowFault → String
  | color cause => cause.message
  | size cause => cause.message
  | zeroInTitle => "embedded null character"

/-- Why a point has no color. -/
inductive PointFault where
  /-- A coordinate is above all that a coordinate can be. -/
  | tooFar
  /-- A coordinate is below all that a coordinate can be. -/
  | tooLow
  /-- A coordinate is too large for any word. -/
  | tooLarge
  /-- The window does not have the point. -/
  | outside
  deriving DecidableEq, Repr

/-- The text of a fault. -/
def PointFault.message : PointFault → String
  | tooFar => "signed integer is greater than maximum"
  | tooLow => "signed integer is less than minimum"
  | tooLarge => "Python int too large to convert to C long"
  | outside => "pixel index out of range"

namespace Window

/-- Opens a window, in which a pixel is `scale` points wide and high, on a screen that answers with
the size it is given. -/
def make (screen : Int → Int → Except Refusal (Nat × Nat)) (scale : Int)
    (foreground background : String) (title : String := programTitle) :
    Except WindowFault Window := do
  let foreground ← (Color.ofText foreground).mapError .color
  let background ← (Color.ofText background).mapError .color
  let (width, height) ← (screen (displayWidth * scale) (displayHeight * scale)).mapError .size
  if title.contains (Char.ofNat 0) then throw .zeroInTitle
  return { width, height, foreground, background, title }

/-- The color of a pixel. -/
def colorAt (w : Window) (d : Display) (row : Fin 32) (column : Fin 64) : Color :=
  if d.pixel row column then w.foreground else w.background

/-- The colors of all pixels, row by row. -/
def picture (w : Window) (d : Display) : List Color :=
  (List.finRange 32).flatMap fun row => (List.finRange 64).map fun column => w.colorAt d row column

/-- How many bits a coordinate is kept in. -/
def coordinateBits : Nat := 32

/-- A number as a coordinate. -/
def coordinate (v : Int) : Except PointFault Int :=
  if Signed.Fits coordinateBits v then .ok v
  else if ¬Signed.Fits 64 v then .error .tooLarge
  else .error (if 0 ≤ v then .tooFar else .tooLow)

/-- The color of a point of the window. Both coordinates are looked at before the point is. -/
def screenColor (w : Window) (d : Display) (x y : Int) : Except PointFault Color := do
  let x ← coordinate x
  let y ← coordinate y
  if 0 ≤ x ∧ x < w.width ∧ 0 ≤ y ∧ y < w.height then
    return w.colorAt d (Display.rowAt (y.toNat * displayHeight / w.height))
      (Display.columnAt (x.toNat * displayWidth / w.width))
  else throw .outside

end Window

end ChipEight
