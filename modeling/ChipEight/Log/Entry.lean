import ChipEight.Log.Format
import ChipEight.Log.Record
import ChipEight.Text.CodePoint
import ChipEight.Text.Notation
import ChipEight.Version

/-!
# Log entries

What a form makes of a record. The fields are written one after the other. A field with a name gets
the value of that name, and one without gets what has not been used: before the first name, all that
is known about the record. Each star uses a value too. The first field that cannot be written
decides what is wrong.

What is written of a record is its level and its text, together a `Message`. The text need not be
made of characters alone, so neither is the entry.

* `Format.entry` is the entry of a message, and `EntryFault.message` the text about one that cannot
  be written;
* `Record.ownEntry` is the entry of a record in the program's own log, which can always be written
  (`entry_own`).
-/

namespace ChipEight.Log

open Text (CodePoint)

/-- What a log file is given of a record. -/
structure Message where
  level : Level
  text : List CodePoint
  deriving DecidableEq, Repr

/-- What a log file is given of a record of the program's own. -/
def Record.toMessage {α : Type} (r : Record α) : Message :=
  ⟨r.level, CodePoint.ofString r.message⟩

/-- What is known about a record under a name. -/
inductive Known where
  | text (s : List CodePoint)
  | number (n : Nat)
  | nothing
  /-- All that is known. -/
  | everything
  deriving DecidableEq, Repr

/-- Why an entry cannot be written. -/
inductive EntryFault where
  | unclosedName
  | unknownName (name : String)
  /-- A star stands for something that is no number. -/
  | starWithoutNumber
  /-- Every value has been used. -/
  | noValueLeft
  | widthTooLarge
  | digitsTooLarge
  /-- The form ends in the middle of a field. -/
  | unfinished
  | unknownLetter (letter : Char) (place : Nat)
  | needsInteger (letter : Char) (value : Known)
  | needsNumber (letter : Char) (value : Known)
  | needsReal (value : Known)
  | needsCharacter
  /-- There is no memory for so many characters. -/
  | noMemory
  deriving DecidableEq, Repr

namespace Known

/-- What a value is called in messages. -/
def kind : Known → String
  | text _ => "str"
  | number _ => "int"
  | nothing => "NoneType"
  | everything => "dict"

/-- What is known about a record under a name. Every record is taken to stand in the first line. -/
def ofName? (m : Message) (name : String) : Option Known :=
  match name with
  | "name" => some (text (CodePoint.ofString programTitle))
  | "message" => some (text m.text)
  | "msg" => some (text m.text)
  | "levelname" => some (text (CodePoint.ofString m.level.name))
  | "levelno" => some (number m.level.rank)
  | "lineno" => some (number 1)
  | "threadName" => some (text (CodePoint.ofString "MainThread"))
  | "processName" => some (text (CodePoint.ofString "MainProcess"))
  | "funcName" => some nothing
  | "exc_info" => some nothing
  | "exc_text" => some nothing
  | "stack_info" => some nothing
  | _ => none

/-- A value as text. Of all that is known, the name and the message stand in front. -/
def plain (m : Message) : Known → List CodePoint
  | text s => s
  | number n => CodePoint.ofString (toString n)
  | nothing => CodePoint.ofString "None"
  | everything =>
    CodePoint.ofString ("\x7b'name': " ++ Text.quote programTitle ++ ", 'msg': ")
      ++ (CodePoint.quote m.text).map .char

end Known

namespace EntryFault

/-- How a letter is shown in a message: one that is no printable character of ASCII is hidden. -/
def shown (c : Char) : Char :=
  if 31 ≤ c.toNat ∧ c.toNat ≤ 126 then c else '?'

/-- The text of a fault. -/
def message : EntryFault → String
  | unclosedName => "incomplete format key"
  | unknownName name => "Formatting field not found in record: " ++ Text.quote name
  | starWithoutNumber => "* wants int"
  | noValueLeft => "not enough arguments for format string"
  | widthTooLarge => "width too big"
  | digitsTooLarge => "precision too big"
  | unfinished => "incomplete format"
  | unknownLetter letter place =>
    "unsupported format character '" ++ (shown letter).toString ++ "' (0x"
      ++ String.ofList (Nat.toDigits 16 letter.toNat) ++ s!") at index {place}"
  | needsInteger letter value =>
    "%" ++ letter.toString ++ " format: an integer is required, not " ++ value.kind
  | needsNumber letter value =>
    "%" ++ letter.toString ++ " format: a real number is required, not " ++ value.kind
  | needsReal value => "must be real number, not " ++ value.kind
  | needsCharacter => "%c requires int or char"
  | noMemory => ""

end EntryFault

/-- The value that the next star or field gets. -/
structure Supply where
  value : Known := .everything
  isUsed : Bool := false
  deriving DecidableEq, Repr

namespace Supply

/-- The value, and what is left of the supply then: nothing. -/
def take (s : Supply) : Except EntryFault (Known × Supply) :=
  if s.isUsed then .error .noValueLeft else .ok (s.value, { s with isUsed := true })

/-- The number that a star stands for. -/
def takeNumber (s : Supply) : Except EntryFault (Nat × Supply) :=
  match s.take with
  | .ok (.number n, s) => .ok (n, s)
  | .ok _ => .error .starWithoutNumber
  | .error fault => .error fault

/-- The supply of a field with a label. -/
def relabel (m : Message) (l : Label) (s : Supply) : Except EntryFault Supply :=
  match l with
  | .none => .ok s
  | .unclosed => .error .unclosedName
  | .name name =>
    match Known.ofName? m name with
    | some value => .ok { value }
    | none => .error (.unknownName name)

end Supply

namespace Field

/-- The greatest width that can be read. -/
def maxWidth : Nat := 0x7FFFFFFFFFFFFFFF

/-- The greatest number of digits that can be read. -/
def maxDigits : Nat := 0x7FFFFFFF

/-- The number that an amount means. -/
def amountOf (limit : Nat) (beyond : EntryFault) (a : Amount) (s : Supply) :
    Except EntryFault (Option Nat × Supply) :=
  match a with
  | .none => .ok (none, s)
  | .given n => if limit < n then .error beyond else .ok (some n, s)
  | .asked => s.takeNumber.map fun taken => (some taken.1, taken.2)

section

-- Whether there is memory for so many characters, which the computer knows.
variable (hasRoom : Nat → Bool)

/-- Asks for memory for characters, if there are any. -/
def reserve (count : Nat) : Except EntryFault Unit :=
  if 0 < count ∧ !hasRoom count then .error .noMemory else .ok ()

/-- A value on the right or the left of a width, with zeros behind its sign if they are to fill the
width. -/
def layOut (f : Field) (width : Nat) (zeros : Bool) (sign body : List CodePoint) :
    Except EntryFault (List CodePoint) := do
  let missing := width - (sign.length + body.length)
  reserve hasRoom missing
  if f.flags.contains '-' then return sign ++ body ++ List.replicate missing (.char ' ')
  else if zeros then return sign ++ List.replicate missing (.char '0') ++ body
  else return List.replicate missing (.char ' ') ++ sign ++ body

/-- A text in a field, cut off after so many characters. -/
def writeText (f : Field) (width : Nat) (limit : Option Nat) (s : List CodePoint) :
    Except EntryFault (List CodePoint) :=
  f.layOut hasRoom width false [] (s.take (limit.getD s.length))

/-- What stands before a number that is not negative. -/
def sign (f : Field) : List Char :=
  if f.flags.contains '+' then ['+'] else if f.flags.contains ' ' then [' '] else []

/-- A number in a field. -/
def writeNumber (f : Field) (width : Nat) (mark digits : List Char) :
    Except EntryFault (List CodePoint) :=
  f.layOut hasRoom width (f.flags.contains '0') ((f.sign ++ mark).map .char) (digits.map .char)

/-- Digits with zeros in front, up to so many. -/
def withZeros (least : Option Nat) (digits : List Char) : List Char :=
  List.replicate (least.getD 0 - digits.length) '0' ++ digits

/-- The mark before a number in some base, if the field asks for it. -/
def baseMark (f : Field) (letter : Char) : List Char :=
  if f.flags.contains '#' then ['0', letter] else []

/-- A number in one of the notations with a point. -/
def realText (f : Field) (letter : Char) (digits : Option Nat) (n : Nat) : List Char :=
  let digits := digits.getD 6
  let keepPoint := f.flags.contains '#'
  match letter with
  | 'f' => Text.Notation.fixed digits keepPoint n 1
  | 'F' => Text.Notation.fixed digits keepPoint n 1
  | 'e' => Text.Notation.scientific digits keepPoint n 1
  | 'E' => (Text.Notation.scientific digits keepPoint n 1).map Char.toUpper
  | 'G' => (Text.Notation.general digits keepPoint n 1).map Char.toUpper
  | _ => Text.Notation.general digits keepPoint n 1

/-- A value as a number, of which so many digits are to be written. -/
def numberOr (fault : Known → EntryFault) (digits : Option Nat) (value : Known) :
    Except EntryFault Nat :=
  match value with
  | .number n => (reserve hasRoom (digits.getD 0)).map fun _ => n
  | value => .error (fault value)

/-- A value as a character. -/
def character (value : Known) : Except EntryFault CodePoint :=
  match value with
  | .number n => .ok (.char (Char.ofNat n))
  | .text [c] => .ok c
  | _ => .error .needsCharacter

/-- A value, quoted if it is a text. -/
def quoted (quote : List CodePoint → List Char) (m : Message) (value : Known) : List CodePoint :=
  match value with
  | .text s => (quote s).map .char
  | value => value.plain m

/-- Writes a value as a letter says. -/
def writeValue (f : Field) (m : Message) (letter : Char) (place width : Nat) (digits : Option Nat)
    (value : Known) : Except EntryFault (List CodePoint) := do
  match letter with
  | 's' => f.writeText hasRoom width digits (value.plain m)
  | 'r' => f.writeText hasRoom width digits (quoted CodePoint.quote m value)
  | 'a' => f.writeText hasRoom width digits (quoted CodePoint.quoteAscii m value)
  | 'c' => f.layOut hasRoom width false [] [← character value]
  | 'x' =>
    let n ← numberOr hasRoom (.needsInteger letter) digits value
    f.writeNumber hasRoom width (f.baseMark letter) (withZeros digits (Nat.toDigits 16 n))
  | 'X' =>
    let n ← numberOr hasRoom (.needsInteger letter) digits value
    f.writeNumber hasRoom width (f.baseMark letter)
      (withZeros digits ((Nat.toDigits 16 n).map Char.toUpper))
  | 'o' =>
    let n ← numberOr hasRoom (.needsInteger letter) digits value
    f.writeNumber hasRoom width (f.baseMark letter) (withZeros digits (Nat.toDigits 8 n))
  | _ =>
    if letter = 'd' ∨ letter = 'i' ∨ letter = 'u' then
      let n ← numberOr hasRoom (.needsNumber letter) digits value
      f.writeNumber hasRoom width [] (withZeros digits (Nat.toDigits 10 n))
    else if "eEfFgG".toList.contains letter then
      let n ← numberOr hasRoom .needsReal digits value
      f.writeNumber hasRoom width [] (f.realText letter digits n)
    else throw (.unknownLetter letter place)

/-- Writes a field. -/
def write (f : Field) (m : Message) (s : Supply) : Except EntryFault (List CodePoint × Supply) := do
  let s ← s.relabel m f.label
  let (width, s) ← amountOf maxWidth .widthTooLarge f.width s
  let (digits, s) ← amountOf maxDigits .digitsTooLarge f.digits s
  match f.letter with
  | none => throw .unfinished
  | some (letter, place) =>
    let (value, s) ← s.take
    return (← f.writeValue hasRoom m letter place (width.getD 0) digits value, s)

/-- A plain field of a text writes it, and needs no room besides. -/
theorem write_plain (m : Message) {name : String} {s : List CodePoint} (place : Nat) (supply : Supply)
    (h : Known.ofName? m name = some (.text s)) :
    (Field.plain name 's' place).write hasRoom m supply = .ok (s, ⟨.text s, true⟩) := by
  have layout : (Field.plain name 's' place).writeText hasRoom 0 none s = .ok s := by
    simp [writeText, layOut, reserve, plain, bind, Except.bind, pure, Except.pure]
  simp [write, plain, Supply.relabel, h, amountOf, Supply.take, writeValue, Known.plain, bind,
    Except.bind, pure, Except.pure]
  simp [plain] at layout
  rw [layout]

end

end Field

namespace Format

variable (hasRoom : Nat → Bool)

/-- Writes parts, one after the other. -/
def writeParts (m : Message) : List Part → Supply → Except EntryFault (List CodePoint)
  | [], _ => .ok []
  | .text s :: rest, supply => (writeParts m rest supply).map (s.map .char ++ ·)
  | .field f :: rest, supply =>
    match f.write hasRoom m supply with
    | .error fault => .error fault
    | .ok (written, supply) => (writeParts m rest supply).map (written ++ ·)

/-- The entry of a message, if there is memory for so many characters as it takes. -/
def entry (format : Format) (m : Message) : Except EntryFault (List CodePoint) :=
  writeParts hasRoom m format.parts {}

/-- The form of a message alone writes its text. -/
theorem entry_bare (m : Message) : bare.entry hasRoom m = .ok m.text := by
  have text : Known.ofName? m "message" = some (.text m.text) := rfl
  simp [entry, bare, writeParts, Field.write_plain _ _ _ _ text, Except.map]

end Format

/-- The entry of a record in the program's own log, without the time. -/
def Record.ownEntry {α : Type} (r : Record α) : String :=
  "[" ++ r.level.name ++ "] " ++ programTitle ++ ": " ++ r.message

/-- The program's own form fits every record. -/
theorem entry_own {α : Type} (hasRoom : Nat → Bool) (r : Record α) :
    Format.own.entry hasRoom r.toMessage = .ok (CodePoint.ofString r.ownEntry) := by
  have level : Known.ofName? r.toMessage "levelname" =
    some (.text (CodePoint.ofString r.level.name)) := rfl
  have name : Known.ofName? r.toMessage "name" = some (.text (CodePoint.ofString programTitle)) := rfl
  have text : Known.ofName? r.toMessage "message" =
    some (.text (CodePoint.ofString r.message)) := rfl
  have mark : CodePoint.ofString "[" = [.char '['] := rfl
  have blank : CodePoint.ofString "] " = [.char ']', .char ' '] := rfl
  have colon : CodePoint.ofString ": " = [.char ':', .char ' '] := rfl
  simp [Format.entry, Format.parts_own, Format.writeParts, Field.write_plain _ _ _ _ level,
    Field.write_plain _ _ _ _ name, Field.write_plain _ _ _ _ text, Except.map, Record.ownEntry,
    CodePoint.ofString_append, mark, blank, colon]

end ChipEight.Log
