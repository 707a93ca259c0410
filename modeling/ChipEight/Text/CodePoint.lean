import ChipEight.Text.Quoted
import ChipEight.Text.Utf8

/-!
# Code points

A text that comes from outside need not be made of characters alone. It may hold surrogates, numbers
that stand for a character only in pairs and only in another encoding. Such a text can be measured
and quoted like any other, but no bytes of UTF-8 stand for it.

* `CodePoint.quote` and `CodePoint.quoteAscii` are the quoted text, which shows a surrogate by its
  number; on characters they are those of `Text` (`quote_ofString`, `quoteAscii_ofString`);
* `CodePoint.encode` writes a text, or says where it cannot be written. A text of characters always
  can (`encode_ofString`).
-/

namespace ChipEight.Text

/-- A character, or a surrogate, by its place among the surrogates. -/
inductive CodePoint where
  | char (c : Char)
  | surrogate (k : Fin 0x800)
  deriving DecidableEq, Repr

namespace CodePoint

/-- A text of characters. -/
def ofString (s : String) : List CodePoint :=
  s.toList.map .char

theorem ofString_append (s t : String) : ofString (s ++ t) = ofString s ++ ofString t := by
  rw [ofString, String.toList_append, List.map_append]
  rfl

/-- A surrogate by its number. -/
def escapeSurrogate (k : Fin 0x800) : List Char :=
  '\\' :: 'u' :: lowerHex 4 (0xD800 + k)

/-! ### Quoted text -/

/-- What stands for a code point between the given quotes. -/
def escape (mark : Char) : CodePoint → List Char
  | char c => Text.escape mark c
  | surrogate k => escapeSurrogate k

/-- What stands for a code point between the given quotes, in ASCII alone. -/
def escapeAscii (mark : Char) : CodePoint → List Char
  | char c => if c.toNat < 128 then Text.escape mark c else escapeCode c
  | surrogate k => escapeSurrogate k

/-- The quotes that a text is put between. -/
def quoteMark (s : List CodePoint) : Char :=
  if s.contains (.char '\'') && !s.contains (.char '"') then '"' else '\''

/-- A text between quotes. -/
def quote (s : List CodePoint) : List Char :=
  quoteMark s :: s.flatMap (escape (quoteMark s)) ++ [quoteMark s]

/-- A text between quotes, in ASCII alone. -/
def quoteAscii (s : List CodePoint) : List Char :=
  quoteMark s :: s.flatMap (escapeAscii (quoteMark s)) ++ [quoteMark s]

theorem quoteMark_ofString (s : String) : quoteMark (ofString s) = Text.quoteMark s.toList := by
  have hholds (c : Char) : (ofString s).contains (.char c) = s.toList.contains c := by
    simp [ofString]
  rw [quoteMark, hholds, hholds, Text.quoteMark]

/-- Characters are quoted as in `Text.quote`. -/
theorem quote_ofString (s : String) : quote (ofString s) = (Text.quote s).toList := by
  rw [quote, quoteMark_ofString, Text.quote, String.toList_ofList, ofString, List.flatMap_map]
  rfl

theorem quoteAscii_ofString (s : String) : quoteAscii (ofString s) = (Text.quoteAscii s).toList := by
  rw [quoteAscii, quoteMark_ofString, Text.quoteAscii, String.toList_ofList, ofString,
    List.flatMap_map]
  rfl

/-! ### UTF-8 -/

/-- Surrogates in a row, which cannot be written: the first of them, its position, and how many they
are. -/
structure EncodeFault where
  first : Fin 0x800
  position : Nat
  count : Nat
  deriving DecidableEq, Repr

/-- The text of a fault. -/
def EncodeFault.message (f : EncodeFault) : String :=
  let what :=
    if f.count = 1 then
      "character '" ++ String.ofList (escapeSurrogate f.first) ++ s!"' in position {f.position}"
    else s!"characters in position {f.position}-{f.position + f.count - 1}"
  "'utf-8' codec can't encode " ++ what ++ ": surrogates not allowed"

/-- Whether a code point is a surrogate. -/
def isSurrogate : CodePoint → Bool
  | char _ => false
  | surrogate _ => true

/-- The characters of a text whose first code point has a position. -/
def characters (position : Nat) : List CodePoint → Except EncodeFault (List Char)
  | [] => .ok []
  | .char c :: rest => (characters (position + 1) rest).map (c :: ·)
  | .surrogate k :: rest => .error ⟨k, position, 1 + (rest.takeWhile isSurrogate).length⟩

/-- Writes a text. -/
def encode (s : List CodePoint) : Except EncodeFault (List UInt8) :=
  (characters 0 s).map fun cs => Utf8.encode (String.ofList cs)

theorem characters_map_char (position : Nat) (cs : List Char) :
    characters position (cs.map .char) = .ok cs := by
  induction cs generalizing position with
  | nil => rfl
  | cons c cs ih =>
    rw [List.map_cons, characters, ih]
    rfl

/-- **A text of characters can always be written.** -/
theorem encode_ofString (s : String) : encode (ofString s) = .ok (Utf8.encode s) := by
  rw [encode, ofString, characters_map_char]
  exact congrArg (Except.ok ∘ Utf8.encode) String.ofList_toList

/-- A text with a surrogate never can. -/
theorem encode_of_surrogate {s : List CodePoint} {k : Fin 0x800} (h : .surrogate k ∈ s) :
    ∃ f, encode s = .error f := by
  suffices hall : ∀ position, ∃ f, characters position s = .error f by
    obtain ⟨f, hf⟩ := hall 0
    exact ⟨f, by rw [encode, hf]; rfl⟩
  induction s with
  | nil => exact absurd h List.not_mem_nil
  | cons p rest ih =>
    intro position
    cases p with
    | surrogate first => exact ⟨_, rfl⟩
    | char c =>
      have hrest : .surrogate k ∈ rest := by simpa using h
      obtain ⟨f, hf⟩ := ih hrest (position + 1)
      exact ⟨f, by rw [characters, hf]; rfl⟩

end CodePoint

end ChipEight.Text
