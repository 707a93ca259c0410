import ChipEight.Text.Printable

/-!
# Quoted text

A text between quotes, so that its ends and its characters can be seen. Single quotes are used
unless the text holds some and no double ones. The quote and the backslash are escaped by a
backslash, as are tab, line feed and carriage return by a letter; a character that is not printable
is written by its code point in two, four or eight hexadecimal digits.

* `quote` is the quoted text, and `quoteAscii` is one in which all beyond ASCII counts as not
  printable;
* `escape` is what stands for one character.
-/

namespace ChipEight.Text

/-- The lowest hexadecimal digits of a number, in lower case, as many as asked for. -/
def lowerHex : Nat → Nat → List Char
  | 0, _ => []
  | count + 1, n => lowerHex count (n / 16) ++ [Nat.digitChar (n % 16)]

/-- A character by its code point. -/
def escapeCode (c : Char) : List Char :=
  if c.toNat < 0x100 then '\\' :: 'x' :: lowerHex 2 c.toNat
  else if c.toNat < 0x10000 then '\\' :: 'u' :: lowerHex 4 c.toNat
  else '\\' :: 'U' :: lowerHex 8 c.toNat

/-- What stands for a character between the given quotes. -/
def escape (mark c : Char) : List Char :=
  if c = mark ∨ c = '\\' then ['\\', c]
  else if c = '\t' then ['\\', 't']
  else if c = '\n' then ['\\', 'n']
  else if c = '\r' then ['\\', 'r']
  else if isPrintable c then [c]
  else escapeCode c

/-- The quotes that a text is put between. -/
def quoteMark (s : List Char) : Char :=
  if s.contains '\'' && !s.contains '"' then '"' else '\''

/-- A text between quotes. -/
def quote (s : String) : String :=
  let mark := quoteMark s.toList
  String.ofList (mark :: s.toList.flatMap (escape mark) ++ [mark])

/-- A text between quotes, in ASCII alone. -/
def quoteAscii (s : String) : String :=
  let mark := quoteMark s.toList
  let written (c : Char) := if c.toNat < 128 then escape mark c else escapeCode c
  String.ofList (mark :: s.toList.flatMap written ++ [mark])

end ChipEight.Text
