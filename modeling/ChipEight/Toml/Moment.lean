import ChipEight.Toml.Rest

/-!
# Dates and times

A moment is a date, a time of day, or both, then perhaps with the distance from universal time. It
is read where its form begins, and what follows is left.

* `Moment.read` reads a moment; a form that is right but names no day of the calendar is
  `Reading.noSuchDay`;
* `Moment.read_length` says that a moment takes something from the text;
* `Moment.text` writes a moment in the international standard form.
-/

namespace ChipEight.Toml

/-- A date. -/
structure Date where
  year : Nat
  month : Nat
  day : Nat
  deriving DecidableEq, Repr

/-- A time of day, in hours, minutes, seconds and microseconds. -/
structure TimeOfDay where
  hour : Nat
  minute : Nat
  second : Nat
  micro : Nat
  deriving DecidableEq, Repr

/-- A moment. The offset is the distance from universal time in minutes. -/
inductive Moment where
  | date (d : Date)
  | time (t : TimeOfDay)
  | dateTime (d : Date) (t : TimeOfDay) (offset : Option Int)
  deriving DecidableEq, Repr

/-- A number in so many digits. -/
def fixedDigits (width n : Nat) : String :=
  let digits := Nat.toDigits 10 n
  String.ofList (List.replicate (width - digits.length) '0' ++ digits)

/-- A date as text. -/
def Date.text (d : Date) : String :=
  fixedDigits 4 d.year ++ "-" ++ fixedDigits 2 d.month ++ "-" ++ fixedDigits 2 d.day

/-- A time of day as text. Microseconds are written if there are any. -/
def TimeOfDay.text (t : TimeOfDay) : String :=
  fixedDigits 2 t.hour ++ ":" ++ fixedDigits 2 t.minute ++ ":" ++ fixedDigits 2 t.second
    ++ (if t.micro = 0 then "" else "." ++ fixedDigits 6 t.micro)

/-- A distance from universal time as text. -/
def offsetText (minutes : Int) : String :=
  (if minutes < 0 then "-" else "+") ++ fixedDigits 2 (minutes.natAbs / 60) ++ ":"
    ++ fixedDigits 2 (minutes.natAbs % 60)

/-- A moment as text. -/
def Moment.text : Moment → String
  | date d => d.text
  | time t => t.text
  | dateTime d t offset => d.text ++ "T" ++ t.text ++ (offset.map offsetText).getD ""

/-- Whether a year has a leap day. -/
def isLeapYear (year : Nat) : Bool :=
  year % 4 = 0 && (year % 100 ≠ 0 || year % 400 = 0)

/-- How many days a month has. -/
def daysIn (year month : Nat) : Nat :=
  if month = 2 then (if isLeapYear year then 29 else 28)
  else if month = 4 ∨ month = 6 ∨ month = 9 ∨ month = 11 then 30
  else 31

/-- Whether a date is a day of the calendar, which has no year zero. -/
def Date.Exists (d : Date) : Prop :=
  1 ≤ d.year ∧ d.day ≤ daysIn d.year d.month

instance (d : Date) : Decidable d.Exists := inferInstanceAs (Decidable (_ ∧ _))

/-- Reads so many digits. -/
def readDigits? : (count value : Nat) → List Char → Option (Nat × List Char)
  | 0, value, s => some (value, s)
  | count + 1, value, c :: s =>
    if c.isDigit then readDigits? count (value * 10 + (c.toNat - 48)) s else none
  | _ + 1, _, [] => none

/-- Reads a number of two digits within bounds. -/
def readWithin? (least greatest : Nat) (s : List Char) : Option (Nat × List Char) :=
  (readDigits? 2 0 s).filter fun r => least ≤ r.1 && r.1 ≤ greatest

/-- Reads a certain character. -/
def readMark? (mark : Char) : List Char → Option (List Char)
  | c :: s => if c = mark then some s else none
  | [] => none

/-- Reads the form of a date. -/
def Date.read? (s : List Char) : Option (Date × List Char) := do
  let (year, s) ← readDigits? 4 0 s
  let s ← readMark? '-' s
  let (month, s) ← readWithin? 1 12 s
  let s ← readMark? '-' s
  let (day, s) ← readWithin? 1 31 s
  return (⟨year, month, day⟩, s)

/-- Reads the places of a second behind the point, if there are any. Places beyond the sixth are
dropped. -/
def readMicro (s : List Char) : Nat × List Char :=
  match s with
  | '.' :: rest =>
    let places := rest.takeWhile Char.isDigit
    if places.isEmpty then (0, s)
    else
      let value := (places.take 6).foldl (fun n c => n * 10 + (c.toNat - 48)) 0
      (value * Nat.pow 10 (6 - places.length), rest.dropWhile Char.isDigit)
  | _ => (0, s)

/-- Reads a time of day. -/
def TimeOfDay.read? (s : List Char) : Option (TimeOfDay × List Char) := do
  let (hour, s) ← readWithin? 0 23 s
  let s ← readMark? ':' s
  let (minute, s) ← readWithin? 0 59 s
  let s ← readMark? ':' s
  let (second, s) ← readWithin? 0 59 s
  let (micro, s) := readMicro s
  return (⟨hour, minute, second, micro⟩, s)

/-- Reads a distance from universal time with a sign. -/
def readSignedOffset? (s : List Char) : Option (Int × List Char) := do
  let (hour, s) ← readWithin? 0 23 s
  let s ← readMark? ':' s
  let (minute, s) ← readWithin? 0 59 s
  return (hour * 60 + minute, s)

/-- Reads a distance from universal time. -/
def readOffset? (s : List Char) : Option (Int × List Char) :=
  match s with
  | 'Z' :: rest => some (0, rest)
  | 'z' :: rest => some (0, rest)
  | '+' :: rest => readSignedOffset? rest
  | '-' :: rest => (readSignedOffset? rest).map fun r => (-r.1, r.2)
  | _ => none

/-- Reads the time behind a date. -/
def readTimeBehind? (s : List Char) : Option (TimeOfDay × List Char) :=
  match s with
  | c :: rest => if c = 'T' ∨ c = 't' ∨ c = ' ' then TimeOfDay.read? rest else none
  | [] => none

/-- What stands where a moment could. -/
inductive Reading where
  | moment (m : Moment) (rest : List Char)
  | noSuchDay
  | other

/-- Reads a moment. -/
def Moment.read (s : List Char) : Reading :=
  match Date.read? s with
  | none =>
    match TimeOfDay.read? s with
    | some (t, rest) => .moment (.time t) rest
    | none => .other
  | some (d, rest) =>
    if ¬d.Exists then .noSuchDay
    else match readTimeBehind? rest with
      | none => .moment (.date d) rest
      | some (t, rest) =>
        match readOffset? rest with
        | none => .moment (.dateTime d t none) rest
        | some (offset, rest) => .moment (.dateTime d t (some offset)) rest

/-- As many characters are taken as digits were asked for. -/
theorem readDigits?_length {count value n : Nat} {s rest : List Char}
    (h : readDigits? count value s = some (n, rest)) : s.length = count + rest.length := by
  fun_induction readDigits? count value s <;> grind

/-- Two digits are taken. -/
theorem readWithin?_length {least greatest n : Nat} {s rest : List Char}
    (h : readWithin? least greatest s = some (n, rest)) : s.length = 2 + rest.length := by
  simp only [readWithin?, Option.filter_eq_some_iff] at h
  exact readDigits?_length h.1

/-- One character is taken. -/
theorem readMark?_length {mark : Char} {s rest : List Char}
    (h : readMark? mark s = some rest) : s.length = 1 + rest.length := by
  unfold readMark? at h
  split at h <;> grind

/-- A date takes something from the text. -/
theorem Date.read?_length {d : Date} {s rest : List Char} (h : Date.read? s = some (d, rest)) :
    rest.length < s.length := by
  simp only [Date.read?, Option.bind_eq_bind, Option.bind_eq_some_iff, Prod.exists, pure,
    Option.some.injEq, Prod.mk.injEq] at h
  obtain ⟨_, _, hyear, _, hfirst, _, _, hmonth, _, hsecond, _, _, hday, _, rfl⟩ := h
  have := readDigits?_length hyear
  have := readMark?_length hfirst
  have := readWithin?_length hmonth
  have := readMark?_length hsecond
  have := readWithin?_length hday
  omega

/-- No more is left than there was. -/
theorem readMicro_length (s : List Char) : (readMicro s).2.length ≤ s.length := by
  unfold readMicro
  split
  · dsimp only
    split
    · simp
    · exact Nat.le_succ_of_le (length_dropWhile_le Char.isDigit _)
  · simp

/-- A time takes something from the text. -/
theorem TimeOfDay.read?_length {t : TimeOfDay} {s rest : List Char}
    (h : TimeOfDay.read? s = some (t, rest)) : rest.length < s.length := by
  simp only [TimeOfDay.read?, Option.bind_eq_bind, Option.bind_eq_some_iff, Prod.exists, pure,
    Option.some.injEq, Prod.mk.injEq] at h
  obtain ⟨_, _, hhour, _, hfirst, _, _, hminute, _, hsecond, _, afterSecond, hlast, _, rfl⟩ := h
  have := readWithin?_length hhour
  have := readMark?_length hfirst
  have := readWithin?_length hminute
  have := readMark?_length hsecond
  have := readWithin?_length hlast
  have := readMicro_length afterSecond
  omega

/-- A time behind a date takes something from the text. -/
theorem readTimeBehind?_length {t : TimeOfDay} {s rest : List Char}
    (h : readTimeBehind? s = some (t, rest)) : rest.length < s.length := by
  unfold readTimeBehind? at h
  split at h
  · split at h
    · exact Nat.lt_succ_of_lt (TimeOfDay.read?_length h)
    · cases h
  · cases h

/-- An offset takes something from the text. -/
theorem readSignedOffset?_length {n : Int} {s rest : List Char}
    (h : readSignedOffset? s = some (n, rest)) : rest.length < s.length := by
  simp only [readSignedOffset?, Option.bind_eq_bind, Option.bind_eq_some_iff, Prod.exists, pure,
    Option.some.injEq, Prod.mk.injEq] at h
  obtain ⟨_, _, hhour, _, hmark, _, _, hminute, _, rfl⟩ := h
  have := readWithin?_length hhour
  have := readMark?_length hmark
  have := readWithin?_length hminute
  omega

/-- An offset in either form takes something from the text. -/
theorem readOffset?_length {n : Int} {s rest : List Char}
    (h : readOffset? s = some (n, rest)) : rest.length < s.length := by
  unfold readOffset? at h
  split at h
  · simp_all
  · simp_all
  · exact Nat.lt_succ_of_lt (readSignedOffset?_length h)
  · simp only [Option.map_eq_some_iff, Prod.exists, Prod.mk.injEq] at h
    obtain ⟨_, _, h, _, rfl⟩ := h
    exact Nat.lt_succ_of_lt (readSignedOffset?_length h)
  · cases h

/-- A moment takes something from the text. -/
theorem Moment.read_length {m : Moment} {s rest : List Char} (h : read s = .moment m rest) :
    rest.length < s.length := by
  unfold read at h
  split at h
  · split at h
    · rename_i htime
      cases h
      exact TimeOfDay.read?_length htime
    · cases h
  · rename_i hdate
    have := Date.read?_length hdate
    split at h
    · cases h
    · split at h
      · cases h
        exact this
      · rename_i htime
        have := readTimeBehind?_length htime
        split at h
        · cases h
          omega
        · rename_i hoffset
          have := readOffset?_length hoffset
          cases h
          omega

end ChipEight.Toml
