import ChipEight.Text.IntegerLiteral
import ChipEight.Toml.Value

/-!
# Faults of a document

Why a text is no configuration document. Most faults are found at a place, which is kept as the
number of characters that are left there; `Fault.message` turns it into a line and a column.
-/

namespace ChipEight.Toml

/-- What is wrong at a place. -/
inductive Cause where
  | invalidStatement
  | expectedLineEnd
  | invalidKey
  | expectedEquals
  | invalidValue
  | noSuchDay
  | expectedMark (mark : String)
  | forbiddenCharacter (c : Char)
  | forbiddenInText (c : Char)
  | unterminatedText
  | strayBackslash
  | invalidHex
  | noCharacter
  | unclosedArray
  | unclosedInlineTable
  | unclosedHeader
  | unclosedArrayHeader
  | declaredTwice (key : Key)
  | redefined (key : Key)
  | closed (key : Key)
  | occupied
  | repeatedKey (key : String)
  deriving DecidableEq, Repr

/-- Why a text is no document. -/
inductive Fault where
  /-- Something is wrong where so many characters are left. -/
  | misread (cause : Cause) (left : Nat)
  /-- A decimal integer has too many digits. -/
  | tooLong (digits : Nat)
  deriving DecidableEq, Repr

/-- A path of keys as text: its parts between parentheses, with a comma after a single one. -/
def keyText (key : Key) : String :=
  match key with
  | [part] => "(" ++ Text.quote part ++ ",)"
  | parts => "(" ++ ", ".intercalate (parts.map Text.quote) ++ ")"

/-- The text of a cause. -/
def Cause.message : Cause → String
  | invalidStatement => "Invalid statement"
  | expectedLineEnd => "Expected newline or end of document after a statement"
  | invalidKey => "Invalid initial character for a key part"
  | expectedEquals => "Expected '=' after a key in a key/value pair"
  | invalidValue => "Invalid value"
  | noSuchDay => "Invalid date or datetime"
  | expectedMark mark => "Expected " ++ Text.quote mark
  | forbiddenCharacter c => "Found invalid character " ++ Text.quote (String.singleton c)
  | forbiddenInText c => "Illegal character " ++ Text.quote (String.singleton c)
  | unterminatedText => "Unterminated string"
  | strayBackslash => "Unescaped '\\' in a string"
  | invalidHex => "Invalid hex value"
  | noCharacter => "Escaped character is not a Unicode scalar value"
  | unclosedArray => "Unclosed array"
  | unclosedInlineTable => "Unclosed inline table"
  | unclosedHeader => "Expected ']' at the end of a table declaration"
  | unclosedArrayHeader => "Expected ']]' at the end of an array declaration"
  | declaredTwice key => "Cannot declare " ++ keyText key ++ " twice"
  | redefined key => "Cannot redefine namespace " ++ keyText key
  | closed key => "Cannot mutate immutable namespace " ++ keyText key
  | occupied => "Cannot overwrite a value"
  | repeatedKey key => "Duplicate inline table key " ++ Text.quote key

/-- The place behind the given text, unless nothing follows. -/
def placeText (before : List Char) (left : Nat) : String :=
  if left = 0 then "end of document"
  else
    let line := before.count '\n' + 1
    let column := (before.reverse.takeWhile (· ≠ '\n')).length + 1
    s!"line {line}, column {column}"

/-- The text of a fault in a document. -/
def Fault.message (source : List Char) : Fault → String
  | misread cause left =>
    cause.message ++ " (at " ++ placeText (source.take (source.length - left)) left ++ ")"
  | tooLong digits =>
    Text.IntegerLiteral.limitMessage s!": value has {digits} digits"

end ChipEight.Toml
