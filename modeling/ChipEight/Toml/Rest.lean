/-!
# What is left

A reader takes its part from the front of a text. What it leaves is shorter (`Taken`), or at least
no longer (`Kept`), so that readers can be repeated until the text ends.
-/

namespace ChipEight.Toml

/-- What has been read, and less than what there was. -/
structure Taken (s : List Char) (α : Type) where
  value : α
  rest : List Char
  shorter : rest.length < s.length

/-- No more than what there was. -/
structure Kept (s : List Char) where
  rest : List Char
  notLonger : rest.length ≤ s.length

namespace Kept

/-- All that there was. -/
def all (s : List Char) : Kept s :=
  ⟨s, Nat.le_refl _⟩

/-- Nothing of what there was. -/
def nothing (s : List Char) : Kept s :=
  ⟨[], Nat.zero_le _⟩

/-- What is kept behind a character. -/
def behind {c : Char} {rest : List Char} (k : Kept rest) : Kept (c :: rest) :=
  ⟨k.rest, Nat.le_succ_of_le k.notLonger⟩

/-- What is kept of what is kept. -/
def andThen {s : List Char} (k : Kept s) (l : Kept k.rest) : Kept s :=
  ⟨l.rest, Nat.le_trans l.notLonger k.notLonger⟩

/-- What stands behind the first character of what is kept is shorter than what there was. -/
theorem lt_of_rest {s rest : List Char} {c : Char} (k : Kept s) (h : k.rest = c :: rest) :
    rest.length < s.length := by
  have := k.notLonger
  rw [h] at this
  exact this

end Kept

namespace Taken

variable {α β : Type} {s rest : List Char} {c : Char}

/-- A value in place of a first character. -/
def first (a : α) : Taken (c :: rest) α :=
  ⟨a, rest, Nat.lt_succ_self _⟩

/-- A value in place of the first character of what is kept. -/
def firstOf (k : Kept s) (h : k.rest = c :: rest) (a : α) : Taken s α :=
  ⟨a, rest, k.lt_of_rest h⟩

/-- What is taken behind a character. -/
def behind (t : Taken rest α) : Taken (c :: rest) α :=
  ⟨t.value, t.rest, Nat.lt_succ_of_lt t.shorter⟩

/-- What is left, without the value. -/
def kept (t : Taken s α) : Kept s :=
  ⟨t.rest, Nat.le_of_lt t.shorter⟩

/-- What is taken of what is kept. -/
def after (k : Kept s) (t : Taken k.rest α) : Taken s α :=
  ⟨t.value, t.rest, Nat.lt_of_lt_of_le t.shorter k.notLonger⟩

/-- What is taken, with less left. -/
def leaving (t : Taken s α) (k : Kept t.rest) : Taken s α :=
  ⟨t.value, k.rest, Nat.lt_of_le_of_lt k.notLonger t.shorter⟩

/-- The same with another value. -/
def map (f : α → β) (t : Taken s α) : Taken s β :=
  ⟨f t.value, t.rest, t.shorter⟩

end Taken

/-- Dropping from the front makes no text longer. -/
theorem length_dropWhile_le (p : Char → Bool) (s : List Char) :
    (s.dropWhile p).length ≤ s.length := by
  induction s with
  | nil => simp
  | cons c s ih =>
    rw [List.dropWhile_cons]
    split
    · simp only [List.length_cons]
      omega
    · exact Nat.le_refl _

/-- Dropping so many characters makes no text longer. -/
theorem length_drop_le (count : Nat) (s : List Char) : (s.drop count).length ≤ s.length := by
  rw [List.length_drop]
  exact Nat.sub_le _ _

end ChipEight.Toml
