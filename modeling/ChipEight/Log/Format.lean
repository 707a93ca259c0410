import ChipEight.Text.Digit
import ChipEight.Text.WordCharacter

/-!
# The form of log entries

A form is a text with fields, such as `%(message)s`: the name of a value between parentheses, then
perhaps flags, a least width, a number of digits behind a point, and a letter that says how the
value is written. A star instead of a number takes it from the values. Two percent signs stand for
one.

A text is a form if there is a field somewhere that looks right. Whatever else it holds is a part of
the form all the same, and what is wrong there comes to light when an entry is written: only then is
the value of each part known.

* `Format.ofText?` reads a form; `Part.ofText` reads any text as parts.
-/

namespace ChipEight.Log

/-- The name of the value that a field writes. -/
inductive Label where
  | none
  | name (s : String)
  /-- The parenthesis is not closed. -/
  | unclosed
  deriving DecidableEq, Repr

/-- A number in a field. -/
inductive Amount where
  | none
  | given (n : Nat)
  /-- A star stands for it. -/
  | asked
  deriving DecidableEq, Repr

/-- A field of a form. -/
structure Field where
  label : Label
  flags : List Char
  width : Amount
  digits : Amount
  /-- The letter that says how the value is written, and its place in the form. There is none if the
  form ends before it. -/
  letter : Option (Char × Nat)
  deriving DecidableEq, Repr

/-- A part of a form. -/
inductive Part where
  | text (s : List Char)
  | field (f : Field)
  deriving DecidableEq, Repr

/-- A form. -/
structure Format where
  parts : List Part
  deriving DecidableEq, Repr

namespace Field

/-- A field without flags, width and digits. -/
def plain (name : String) (letter : Char) (place : Nat) : Field :=
  ⟨.name name, [], .none, .none, some (letter, place)⟩

/-- The name before the parenthesis that closes it, and what is left. Parentheses inside are in
pairs. -/
def splitLabel : (depth : Nat) → List Char → Option (List Char × List Char)
  | _, [] => none
  | depth, c :: rest =>
    if c = ')' ∧ depth = 0 then some ([], rest)
    else
      let depth := if c = '(' then depth + 1 else if c = ')' then depth - 1 else depth
      (splitLabel depth rest).map fun split => (c :: split.1, split.2)

/-- Reads the name of a value, and gives what is left. -/
def readLabel (s : List Char) : Label × List Char :=
  match s with
  | '(' :: rest =>
    match splitLabel 0 rest with
    | some (name, rest) => (.name (String.ofList name), rest)
    | none => (.unclosed, [])
  | s => (.none, s)

/-- Whether a character is a flag. -/
def isFlag (c : Char) : Bool :=
  c = '#' || c = '0' || c = '+' || c = ' ' || c = '-'

/-- The value of digits. -/
def number (digits : List Char) : Nat :=
  digits.foldl (fun n c => n * 10 + (c.toNat - 48)) 0

/-- Reads a number, and gives what is left. -/
def readAmount (s : List Char) : Amount × List Char :=
  match s with
  | '*' :: rest => (.asked, rest)
  | s =>
    let digits := s.takeWhile Char.isDigit
    (if digits.isEmpty then .none else .given (number digits), s.dropWhile Char.isDigit)

/-- Reads the number of digits, and gives what is left. A point alone asks for none. -/
def readDigits (s : List Char) : Amount × List Char :=
  match s with
  | '.' :: rest =>
    match readAmount rest with
    | (.none, rest) => (.given 0, rest)
    | read => read
  | s => (.none, s)

/-- What is left behind a mark for the size of a number, which means nothing. -/
def dropSizeMark (s : List Char) : List Char :=
  match s with
  | c :: rest => if c = 'h' ∨ c = 'l' ∨ c = 'L' then rest else s
  | [] => []

/-- Reads a field behind its percent sign, in a form of so many characters, and gives what is
left. -/
def ofText (length : Nat) (s : List Char) : Field × List Char :=
  let (label, s) := readLabel s
  let flags := s.takeWhile isFlag
  let (width, s) := readAmount (s.dropWhile isFlag)
  let (digits, s) := readDigits s
  match dropSizeMark s with
  | c :: rest => (⟨label, flags, width, digits, some (c, length - (rest.length + 1))⟩, rest)
  | [] => (⟨label, flags, width, digits, none⟩, [])

/-- Whether a letter says how a value is written, in either case. The letters that the cases of some
scripts pair with `i` and `s` count as these. -/
def isLetter (c : Char) : Bool :=
  "diouxefgcrsa%İıſ".toList.contains c.toLower

/-- What is left behind a number or a star, if there is one. -/
def dropAmount? (s : List Char) : Option (List Char) :=
  match s with
  | '*' :: rest => some rest
  | c :: rest =>
    if (Text.decimalValue? c).isSome then
      some (rest.dropWhile fun c => (Text.decimalValue? c).isSome)
    else none
  | [] => none

/-- Whether a field that looks right stands behind a percent sign: with a name that is a word,
digits behind its point, and a letter. -/
def looksRight (s : List Char) : Bool :=
  match s with
  | '(' :: s =>
    let name := s.takeWhile Text.isWordCharacter
    match s.dropWhile Text.isWordCharacter with
    | ')' :: s =>
      let s := s.dropWhile isFlag
      let s := (dropAmount? s).getD s
      let s := match s with
        | '.' :: rest => (dropAmount? rest).getD s
        | _ => s
      !name.isEmpty && s.head?.any isLetter
    | _ => false
  | _ => false

end Field

namespace Part

/-- Reads the rest of a form of so many characters, in at most so many steps. -/
def read (length : Nat) : (steps : Nat) → List Char → List Part
  | 0, _ => []
  | _, [] => []
  | steps + 1, '%' :: '%' :: rest => .text ['%'] :: read length steps rest
  | steps + 1, '%' :: rest =>
    let (f, rest) := Field.ofText length rest
    .field f :: read length steps rest
  | steps + 1, c :: rest => .text [c] :: read length steps rest

/-- The parts of a text. -/
def ofText (s : List Char) : List Part :=
  read s.length s.length s

end Part

namespace Format

/-- Whether there is a field somewhere that looks right. -/
def hasField : List Char → Bool
  | [] => false
  | c :: rest => (c = '%' && Field.looksRight rest) || hasField rest

/-- The form of a message alone. -/
def bare : Format :=
  ⟨[.field (.plain "message" 's' 10)]⟩

/-- The form of the entries of the program's own log, without the time. -/
def own : Format :=
  ⟨Part.ofText "[%(levelname)s] %(name)s: %(message)s".toList⟩

/-- What the parts of the program's own form are. -/
theorem parts_own : own.parts =
    [.text ['['], .field (.plain "levelname" 's' 13), .text [']'], .text [' '],
      .field (.plain "name" 's' 23), .text [':'], .text [' '],
      .field (.plain "message" 's' 36)] := by
  decide

/-- Reads a form. An empty one is that of a message alone. -/
def ofText? (s : String) : Option Format :=
  if s.isEmpty then some bare
  else if hasField s.toList then some ⟨Part.ofText s.toList⟩
  else none

/-- The text about a text that is no form. -/
def faultMessage (s : String) : String :=
  "Invalid format '" ++ s ++ "' for '%' style"

end Format

end ChipEight.Log
