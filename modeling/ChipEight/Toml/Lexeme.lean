import ChipEight.Toml.Fault
import ChipEight.Toml.Numeral

/-!
# Lexemes

The smallest parts of a document: blanks, comments, texts and keys. Each reader takes its part from
the front of what is left, and what it leaves is shorter (`Taken`), or at least no longer (`Kept`),
so that readers can be repeated until the document ends.

* `comment` and `filler` pass over what has no meaning;
* `text?` reads a text in any of its four forms;
* `key` reads a path of keys.
-/

namespace ChipEight.Toml

/-- The fault that something is wrong where a text is left. -/
def misread {α : Type} (cause : Cause) (left : List Char) : Except Fault α :=
  .error (.misread cause left.length)

/-- Whether a character is a blank within a line. -/
def isBlank (c : Char) : Bool :=
  c = ' ' || c = '\t'

/-- Whether a character is a blank or ends a line. -/
def isSpace (c : Char) : Bool :=
  isBlank c || c = '\n'

/-- Whether a character is a control character other than the tab. -/
def isForbidden (c : Char) : Bool :=
  (c.toNat < 32 && c ≠ '\t') || c.toNat = 127

/-- Whether a character is a control character other than the tab and the line feed. -/
def isForbiddenInLines (c : Char) : Bool :=
  isForbidden c && c ≠ '\n'

/-- Whether a character may stand in a key without quotes. -/
def isBare (c : Char) : Bool :=
  c.isAlphanum || c = '-' || c = '_'

/-- Passes over blanks. -/
def skipBlanks (s : List Char) : Kept s :=
  ⟨s.dropWhile isBlank, length_dropWhile_le _ s⟩

/-- Passes over blanks and ends of lines. -/
def skipSpace (s : List Char) : Kept s :=
  ⟨s.dropWhile isSpace, length_dropWhile_le _ s⟩

/-- Passes over the rest of a line. -/
def skipLine (s : List Char) : Except Fault (Kept s) :=
  let left : Kept s := ⟨s.dropWhile fun c => !isForbidden c, length_dropWhile_le _ s⟩
  match left.rest with
  | [] => .ok left
  | c :: rest =>
    if c = '\n' then .ok left else misread (.forbiddenCharacter c) (c :: rest)

/-- Passes over a comment, if there is one. -/
def comment (s : List Char) : Except Fault (Kept s) :=
  match s with
  | '#' :: rest => (skipLine rest).map Kept.behind
  | s => .ok (.all s)

/-- Passes over blanks, ends of lines and comments. -/
def filler (s : List Char) : Except Fault (Kept s) :=
  let space := skipSpace s
  match h : space.rest with
  | '#' :: rest =>
    have := space.lt_of_rest h
    match skipLine rest with
    | .error f => .error f
    | .ok k =>
      have := k.notLonger
      match filler k.rest with
      | .error f => .error f
      | .ok last => .ok ((Taken.firstOf space h ()).kept.andThen (k.andThen last))
  | _ => .ok space
termination_by s.length

/-- The characters of a text so far, and what is left. -/
abbrev TakenText (s : List Char) := Taken s String

/-- Reads a text in single quotes, behind the first of them. -/
def literal (s : List Char) : Except Fault (TakenText s) :=
  if !s.contains '\'' then misread (.expectedMark "'") []
  else
    let isInside (c : Char) : Bool := !isForbidden c && c ≠ '\''
    let left : Kept s := ⟨s.dropWhile isInside, length_dropWhile_le _ s⟩
    match h : left.rest with
    | c :: rest =>
      if c = '\'' then .ok (.firstOf left h (String.ofList (s.takeWhile isInside)))
      else misread (.forbiddenCharacter c) (c :: rest)
    | [] => misread (.expectedMark "'") []

/-- Where three single quotes stand: the characters before them, and what is left behind them. -/
def splitAtMark (s : List Char) : Option (Taken s (List Char)) :=
  match s with
  | '\'' :: '\'' :: '\'' :: _ => some (Taken.first []).behind.behind
  | c :: rest => (splitAtMark rest).map fun t => (t.map (c :: ·)).behind
  | [] => none

/-- One or two quotes more, which belong to a text that ends in three. -/
def moreQuotes (quote : Char) (s : List Char) : List Char × Kept s :=
  match s with
  | a :: b :: rest =>
    if a = quote ∧ b = quote then ([quote, quote], (Kept.all rest).behind.behind)
    else if a = quote then ([quote], (Kept.all (b :: rest)).behind)
    else ([], .all _)
  | [a] => if a = quote then ([quote], .nothing _) else ([], .all _)
  | [] => ([], .all _)

/-- The text with the quotes that belong to its end. -/
def withMoreQuotes {s : List Char} (quote : Char) (t : Taken s (List Char)) : TakenText s :=
  let (quotes, kept) := moreQuotes quote t.rest
  (t.leaving kept).map fun text => String.ofList (text ++ quotes)

/-- Passes over one end of line. -/
def skipLineEnd (s : List Char) : Kept s :=
  match s with
  | '\n' :: rest => (Kept.all rest).behind
  | s => .all s

/-- Reads a text of several lines in single quotes, behind the first three of them. -/
def literalLines (s : List Char) : Except Fault (TakenText s) :=
  let start := skipLineEnd s
  match splitAtMark start.rest with
  | none => misread (.expectedMark "'''") []
  | some t =>
    match start.rest.dropWhile fun c => !isForbiddenInLines c with
    | c :: left =>
      if t.value.any isForbiddenInLines then misread (.forbiddenCharacter c) (c :: left)
      else .ok (withMoreQuotes '\'' (t.after start))
    | [] => .ok (withMoreQuotes '\'' (t.after start))

/-- The character that a letter behind a backslash stands for. -/
def escaped? : Char → Option Char
  | 'b' => some (Char.ofNat 8)
  | 't' => some '\t'
  | 'n' => some '\n'
  | 'f' => some (Char.ofNat 12)
  | 'r' => some '\r'
  | '"' => some '"'
  | '\\' => some '\\'
  | _ => none

/-- Reads a character by its code point in so many hexadecimal digits. -/
def hexCharacter (count : Nat) (s : List Char) : Except Fault (List Char × Kept s) :=
  let digits := s.take count
  let rest : Kept s := ⟨s.drop count, length_drop_le count s⟩
  if digits.length ≠ count ∨ !digits.all (isDigitIn 16) then misread .invalidHex s
  else
    let n := digitsValue 16 digits
    if n.isValidChar then .ok ([Char.ofNat n], rest) else misread .noCharacter rest.rest

/-- Passes over a line that ends in a backslash, and over the blanks after it. -/
def joinLines (s : List Char) : Except Fault (List Char × Kept s) :=
  let blanks := skipBlanks s
  match h : blanks.rest with
  | [] => .ok ([], blanks)
  | '\n' :: rest => .ok ([], (Taken.firstOf blanks h ()).kept.andThen (skipSpace rest))
  | c :: rest => misread .strayBackslash (c :: rest)

/-- Reads what stands behind a backslash: the characters that it means. -/
def escape (lines : Bool) (s : List Char) : Except Fault (List Char × Kept s) :=
  match s with
  | [] => misread .strayBackslash []
  | c :: rest =>
    if lines ∧ isSpace c then joinLines (c :: rest)
    else if c = 'u' ∨ c = 'U' then
      (hexCharacter (if c = 'u' then 4 else 8) rest).map fun (text, kept) => (text, kept.behind)
    else match escaped? c with
      | some e => .ok ([e], (Kept.all rest).behind)
      | none => misread .strayBackslash rest

/-- Reads a text in double quotes, behind the first of them: one line up to a quote, or several up
to three. -/
def basic (lines : Bool) (read : List Char) (s : List Char) :
    Except Fault (Taken s (List Char)) :=
  match s with
  | [] => misread .unterminatedText []
  | '"' :: rest =>
    if !lines then .ok (.first read.reverse)
    else match rest with
      | '"' :: '"' :: _ => .ok (Taken.first read.reverse).behind.behind
      | rest => (basic lines ('"' :: read) rest).map Taken.behind
  | '\\' :: rest =>
    match escape lines rest with
    | .error f => .error f
    | .ok (text, kept) =>
      have := kept.notLonger
      (basic lines (text.reverse ++ read) kept.rest).map fun t => (t.after kept).behind
  | c :: rest =>
    if if lines then isForbiddenInLines c else isForbidden c then
      misread (.forbiddenInText c) (c :: rest)
    else (basic lines (c :: read) rest).map Taken.behind
termination_by s.length

/-- Reads a text in double quotes, behind the first of them. -/
def basicLine (s : List Char) : Except Fault (TakenText s) :=
  (basic false [] s).map (Taken.map String.ofList)

/-- Reads a text of several lines in double quotes, behind the first three of them. -/
def basicLines (s : List Char) : Except Fault (TakenText s) :=
  let start := skipLineEnd s
  (basic true [] start.rest).map fun t => withMoreQuotes '"' (t.after start)

/-- Reads a text, if one begins. -/
def text? (s : List Char) : Option (Except Fault (TakenText s)) :=
  match s with
  | '"' :: '"' :: '"' :: rest => some ((basicLines rest).map fun t => t.behind.behind.behind)
  | '"' :: rest => some ((basicLine rest).map Taken.behind)
  | '\'' :: '\'' :: '\'' :: rest => some ((literalLines rest).map fun t => t.behind.behind.behind)
  | '\'' :: rest => some ((literal rest).map Taken.behind)
  | _ => none

/-- Reads one part of a key. -/
def keyPart (s : List Char) : Except Fault (TakenText s) :=
  match s with
  | '"' :: rest => (basicLine rest).map Taken.behind
  | '\'' :: rest => (literal rest).map Taken.behind
  | c :: rest =>
    if isBare c then
      let left : Kept rest := ⟨rest.dropWhile isBare, length_dropWhile_le _ rest⟩
      .ok ((Taken.first (String.ofList (c :: rest.takeWhile isBare))).leaving left)
    else misread .invalidKey (c :: rest)
  | [] => misread .invalidKey []

/-- Reads the parts of a key with points between them, and the blanks behind. -/
def key (s : List Char) : Except Fault (Taken s Key) :=
  match keyPart s with
  | .error f => .error f
  | .ok first =>
    let blanks := skipBlanks first.rest
    match h : blanks.rest with
    | '.' :: rest =>
      have := first.shorter
      have := blanks.lt_of_rest h
      have := (skipBlanks rest).notLonger
      match key (skipBlanks rest).rest with
      | .error f => .error f
      | .ok more =>
        let before := first.kept.andThen (Taken.firstOf blanks h ()).kept
        .ok ((more.map (first.value :: ·)).after (before.andThen (skipBlanks rest)))
    | _ => .ok ((first.leaving blanks).map ([·]))
termination_by s.length

end ChipEight.Toml
