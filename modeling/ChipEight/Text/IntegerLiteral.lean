import ChipEight.Text.Digit
import ChipEight.Text.Quoted

/-!
# Integers as text

An integer in some base: blanks around it are ignored, a sign may stand in front, and single
underscores may stand between digits. In base sixteen the digits may follow `0x`, with one
underscore between. The decimal digits of every script are as good as those of ASCII, also for the
zero of `0x`. Decimal integers beyond a certain length are neither read nor written, since their
conversion takes long.

* `IntegerLiteral.parse?` reads an integer, and `IntegerLiteral.decimal?` writes one;
* `IntegerLiteral.faultMessage` is the text about one that cannot be read, and
  `IntegerLiteral.limitMessage` that about one that is too long.
-/

namespace ChipEight.Text.IntegerLiteral

/-- The longest decimal integer, in digits, that is read or written. -/
def maxDecimalDigits : Nat := 4300

/-- Reads digits with single underscores between them. -/
def digits? (base : Nat) : (afterDigit : Bool) → (value : Nat) → List Char → Option Nat
  | afterDigit, value, [] => if afterDigit then some value else none
  | afterDigit, value, '_' :: rest => if afterDigit then digits? base false value rest else none
  | _, value, c :: rest =>
    match digitValue? c with
    | some d => if d < base then digits? base true (value * base + d) rest else none
    | none => none

/-- Reads an integer without sign. -/
def magnitude? (base : Nat) (s : List Char) : Option Nat :=
  match base, s with
  | 16, '0' :: 'x' :: '_' :: rest => digits? 16 false 0 rest
  | 16, '0' :: 'X' :: '_' :: rest => digits? 16 false 0 rest
  | 16, '0' :: 'x' :: rest => digits? 16 false 0 rest
  | 16, '0' :: 'X' :: rest => digits? 16 false 0 rest
  | 10, s => if maxDecimalDigits < s.countP (· ≠ '_') then none else digits? 10 false 0 s
  | base, s => digits? base false 0 s

/-- Reads an integer. -/
def parse? (base : Nat) (s : String) : Option Int :=
  match trimBlanks (s.toList.map asciiDigit) with
  | '-' :: rest => (magnitude? base rest).map fun n => -(n : Int)
  | '+' :: rest => (magnitude? base rest).map (↑·)
  | s => (magnitude? base s).map (↑·)

/-- An integer in decimal digits, unless there are too many of them. -/
def decimal? (n : Int) : Option String :=
  if n.natAbs < Nat.pow 10 maxDecimalDigits then some (toString n) else none

/-- The text about an integer with too many decimal digits, with what else is known about it. -/
def limitMessage (detail : String) : String :=
  s!"Exceeds the limit ({maxDecimalDigits} digits) for integer string conversion" ++ detail
    ++ "; use sys.set_int_max_str_digits() to increase the limit"

/-- The text about a text that is no integer; a long one is cut off. -/
def faultMessage (base : Nat) (s : String) : String :=
  s!"invalid literal for int() with base {base}: " ++ String.ofList ((quote s).toList.take 200)

end ChipEight.Text.IntegerLiteral
