import ChipEight.Number
import ChipEight.Text.IntegerLiteral
import ChipEight.Toml.Rest

/-!
# Numerals

Numbers as they stand in a configuration file: integers in base ten, or in base sixteen, eight or
two behind a mark; decimals with a point or an exponent; infinity, and what is not a number. Single
underscores may stand between digits. The longest numeral is read where one begins, and what
follows is left.

* `Numeral.read?` reads a numeral, and `Numeral.read?_length` says that it takes something from the
  text;
* `digitRun` reads digits, and `digitRun_length` says that it takes and leaves no more than there
  was.
-/

namespace ChipEight.Toml

/-- Reads digits behind a digit, with single underscores between them; an underscore that no digit
follows is left. -/
def digitRun (isDigit : Char → Bool) : List Char → List Char × List Char
  | '_' :: c :: rest =>
    if isDigit c then
      let (digits, rest) := digitRun isDigit rest
      (c :: digits, rest)
    else ([], '_' :: c :: rest)
  | c :: rest =>
    if isDigit c then
      let (digits, rest) := digitRun isDigit rest
      (c :: digits, rest)
    else ([], c :: rest)
  | [] => ([], [])

/-- No more is left than there was. -/
theorem digitRun_length (isDigit : Char → Bool) (s : List Char) :
    (digitRun isDigit s).2.length ≤ s.length := by
  fun_induction digitRun isDigit s <;> simp_all <;> omega

/-- Reads digits, of which there must be one. -/
def digits? (isDigit : Char → Bool) : List Char → Option (List Char × List Char)
  | c :: rest =>
    if isDigit c then
      let (digits, rest) := digitRun isDigit rest
      some (c :: digits, rest)
    else none
  | [] => none

/-- Digits take something from the text. -/
theorem digits?_length {isDigit : Char → Bool} {digits s rest : List Char}
    (h : digits? isDigit s = some (digits, rest)) : rest.length < s.length := by
  unfold digits? at h
  split at h
  · split at h
    · cases h
      exact Nat.lt_succ_of_le (digitRun_length isDigit _)
    · cases h
  · cases h

/-- The value of digits. -/
def digitsValue (base : Nat) (digits : List Char) : Nat :=
  digits.foldl (fun n c => n * base + (Text.digitValue? c).getD 0) 0

/-- The base that a mark behind a zero stands for. -/
def markedBase? : Char → Option Nat
  | 'x' => some 16
  | 'o' => some 8
  | 'b' => some 2
  | _ => none

/-- Whether a character is a digit in some base. -/
def isDigitIn (base : Nat) (c : Char) : Bool :=
  c.toNat < 128 && (Text.digitValue? c).any (· < base)

/-- What a numeral stands for. -/
inductive Numeral where
  | number (n : Number)
  /-- A decimal integer with more digits than are read. -/
  | tooLong (digits : Nat)

namespace Numeral

/-- Reads an integer behind a mark. -/
def marked? (s : List Char) : Option (Nat × List Char) :=
  match s with
  | '0' :: mark :: rest => do
    let base ← markedBase? mark
    let (digits, rest) ← digits? (isDigitIn base) rest
    return (digitsValue base digits, rest)
  | _ => none

/-- Takes a sign, and says whether it is a minus. -/
def sign (s : List Char) : Bool × List Char :=
  match s with
  | '-' :: rest => (true, rest)
  | '+' :: rest => (false, rest)
  | _ => (false, s)

/-- Reads the digits of a decimal integer, which begin with a zero only if that is all. -/
def whole? (s : List Char) : Option (List Char × List Char) :=
  match s with
  | '0' :: rest => some (['0'], rest)
  | _ => digits? Char.isDigit s

/-- Reads the digits behind a point, if there are any. -/
def fraction? (s : List Char) : Option (List Char × List Char) :=
  match s with
  | '.' :: rest => digits? Char.isDigit rest
  | _ => none

/-- Reads an exponent, if there is one. -/
def exponent? (s : List Char) : Option (Int × List Char) :=
  match s with
  | c :: rest =>
    if c = 'e' ∨ c = 'E' then do
      let (negative, rest) := sign rest
      let (digits, rest) ← digits? Char.isDigit rest
      let value : Int := digitsValue 10 digits
      return (if negative then -value else value, rest)
    else none
  | [] => none

/-- The digits behind a point, if there is one, and what is left. -/
def fraction (s : List Char) : Option (List Char) × List Char :=
  match fraction? s with
  | some (places, rest) => (some places, rest)
  | none => (none, s)

/-- The exponent, if there is one, and what is left. -/
def exponent (s : List Char) : Option Int × List Char :=
  match exponent? s with
  | some (value, rest) => (some value, rest)
  | none => (none, s)

/-- The decimal number of digits, which is an integer if it has neither point nor exponent. -/
def ofDigits (negative : Bool) (whole : List Char) (places : Option (List Char))
    (exponent : Option Int) : Numeral :=
  if places.isNone ∧ exponent.isNone then
    if Text.IntegerLiteral.maxDecimalDigits < whole.length then .tooLong whole.length
    else
      let value : Int := digitsValue 10 whole
      .number (.integer (if negative then -value else value))
  else
    let places := places.getD []
    let d : Decimal := ⟨digitsValue 10 (whole ++ places), exponent.getD 0 - places.length⟩
    .number (.real (d.nearest negative))

/-- Reads a decimal number. -/
def decimal? (s : List Char) : Option (Numeral × List Char) := do
  let (negative, s) := sign s
  let (whole, s) ← whole? s
  let (places, s) := fraction s
  let (power, s) := exponent s
  return (ofDigits negative whole places power, s)

/-- Reads infinity, or what is not a number. -/
def special? (s : List Char) : Option (Numeral × List Char) :=
  let (negative, s) := sign s
  match s with
  | 'i' :: 'n' :: 'f' :: rest => some (.number (.real (.infinity negative)), rest)
  | 'n' :: 'a' :: 'n' :: rest => some (.number (.real .nan), rest)
  | _ => none

/-- Reads a numeral. -/
def read? (s : List Char) : Option (Numeral × List Char) :=
  match marked? s with
  | some (n, rest) => some (.number (.integer n), rest)
  | none =>
    match decimal? s with
    | some r => some r
    | none => special? s

/-- An integer with a mark takes something from the text. -/
theorem marked?_length {n : Nat} {s rest : List Char} (h : marked? s = some (n, rest)) :
    rest.length < s.length := by
  unfold marked? at h
  split at h
  · simp only [Option.bind_eq_bind, Option.bind_eq_some_iff, Prod.exists, pure,
      Option.some.injEq, Prod.mk.injEq] at h
    obtain ⟨_, _, _, _, hdigits, _, rfl⟩ := h
    have := digits?_length hdigits
    simp only [List.length_cons]
    omega
  · cases h

/-- No more is left than there was. -/
theorem sign_length (s : List Char) : (sign s).2.length ≤ s.length := by
  unfold sign
  split <;> simp

/-- Whole digits take something from the text. -/
theorem whole?_length {digits s rest : List Char} (h : whole? s = some (digits, rest)) :
    rest.length < s.length := by
  unfold whole? at h
  split at h
  · simp_all
  · exact digits?_length h

/-- A point with digits takes something from the text. -/
theorem fraction?_length {digits s rest : List Char} (h : fraction? s = some (digits, rest)) :
    rest.length < s.length := by
  unfold fraction? at h
  split at h
  · exact Nat.lt_succ_of_lt (digits?_length h)
  · cases h

/-- No more is left than there was. -/
theorem fraction_length (s : List Char) : (fraction s).2.length ≤ s.length := by
  unfold fraction
  split
  · exact Nat.le_of_lt (fraction?_length ‹_›)
  · exact Nat.le_refl _

/-- An exponent takes something from the text. -/
theorem exponent?_length {n : Int} {s rest : List Char} (h : exponent? s = some (n, rest)) :
    rest.length < s.length := by
  unfold exponent? at h
  split at h
  · split at h
    · simp only [Option.bind_eq_bind, Option.bind_eq_some_iff, Prod.exists, pure,
        Option.some.injEq, Prod.mk.injEq] at h
      obtain ⟨_, _, hdigits, _, rfl⟩ := h
      exact Nat.lt_of_lt_of_le (digits?_length hdigits) (Nat.le_succ_of_le (sign_length _))
    · cases h
  · cases h

/-- No more is left than there was. -/
theorem exponent_length (s : List Char) : (exponent s).2.length ≤ s.length := by
  unfold exponent
  split
  · exact Nat.le_of_lt (exponent?_length ‹_›)
  · exact Nat.le_refl _

/-- A decimal numeral takes something from the text. -/
theorem decimal?_length {n : Numeral} {s rest : List Char} (h : decimal? s = some (n, rest)) :
    rest.length < s.length := by
  simp only [decimal?, Option.bind_eq_bind, Option.bind_eq_some_iff, Prod.exists, pure,
    Option.some.injEq, Prod.mk.injEq] at h
  obtain ⟨_, afterWhole, hwhole, _, rfl⟩ := h
  have := whole?_length hwhole
  have := sign_length s
  have := fraction_length afterWhole
  have := exponent_length (fraction afterWhole).2
  omega

/-- A name of a number takes something from the text. -/
theorem special?_length {n : Numeral} {s rest : List Char} (h : special? s = some (n, rest)) :
    rest.length < s.length := by
  unfold special? at h
  have := sign_length s
  dsimp only at h
  split at h <;> simp_all <;> omega

/-- A numeral takes something from the text. -/
theorem read?_length {n : Numeral} {s rest : List Char} (h : read? s = some (n, rest)) :
    rest.length < s.length := by
  unfold read? at h
  split at h
  · rename_i hmarked
    cases h
    exact marked?_length hmarked
  · split at h
    · rename_i hdecimal
      cases h
      exact decimal?_length hdecimal
    · exact special?_length h

end Numeral

end ChipEight.Toml
