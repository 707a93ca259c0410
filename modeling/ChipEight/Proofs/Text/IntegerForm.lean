import Mathlib.Data.List.Basic
import Mathlib.Data.List.TakeWhile
import ChipEight.Text.IntegerLiteral

/-!
# The form of an integer

An integer in base sixteen begins with blanks, a sign or a digit, and its other characters are digits and
what may stand between digits, up to the blanks at the end.  So within it there is neither a blank nor a
sign (`IntegerLiteral.inner_of_read?`), and the last character in front of the blanks is a digit
(`IntegerLiteral.digit_of_read?_last`).

Where digits follow the first character, this one alone decides whether an integer is read, and which: it
is a digit, it is a sign, or it counts for nothing (`IntegerLiteral.Lead`).
-/

namespace ChipEight.Text

/-! ### Characters -/

/-- A hexadecimal digit of any script, with its value. -/
def Hexadecimal (c : Char) (d : Nat) : Prop :=
  digitValue? c = some d ∧ d < 16

instance (c : Char) (d : Nat) : Decidable (Hexadecimal c d) :=
  inferInstanceAs (Decidable (_ ∧ _))

/-- The code points of the blanks. -/
def blankCodes : List Nat :=
  [9, 10, 11, 12, 13, 32, 0x85, 0xA0, 0x1680, 0x2000, 0x2001, 0x2002, 0x2003, 0x2004, 0x2005, 0x2006,
   0x2007, 0x2008, 0x2009, 0x200A, 0x2028, 0x2029, 0x202F, 0x205F, 0x3000]

theorem mem_blankCodes {c : Char} (h : isBlank c = true) : c.toNat ∈ blankCodes := by
  simp only [isBlank, isAsciiBlank, Bool.or_eq_true, Bool.and_eq_true, decide_eq_true_eq] at h
  simp only [blankCodes, List.mem_cons, List.not_mem_nil, or_false]
  omega

/-- A blank is no digit. -/
theorem digitValue?_of_blank {c : Char} (h : isBlank c = true) : digitValue? c = none := by
  have hall : ∀ n ∈ blankCodes, digitValue? (Char.ofNat n) = none := by decide +kernel
  simpa only [Char.ofNat_toNat] using hall c.toNat (mem_blankCodes h)

/-- A letter of ASCII is no decimal digit. -/
theorem decimalValue?_of_letter {c : Char} (h : 65 ≤ c.toNat ∧ c.toNat ≤ 122) :
    decimalValue? c = none := by
  have hall : ∀ n < 58, decimalValue? (Char.ofNat (65 + n)) = none := by decide +kernel
  have hcode : 65 + (c.toNat - 65) = c.toNat := by omega
  simpa only [hcode, Char.ofNat_toNat] using hall (c.toNat - 65) (by omega)

theorem decimalValue?_lt {c : Char} {d : Nat} (h : decimalValue? c = some d) : d < 10 := by
  obtain ⟨z, hzero, rfl⟩ := Option.map_eq_some_iff.mp h
  have hrange := List.find?_some hzero
  simp only [Bool.and_eq_true, decide_eq_true_eq] at hrange
  omega

/-- A decimal digit of any script is a digit, since it is no letter. -/
theorem digitValue?_of_decimal {c : Char} {d : Nat} (h : decimalValue? c = some d) :
    digitValue? c = some d := by
  have hletter : ¬(65 ≤ c.toNat ∧ c.toNat ≤ 122) := by
    intro hletter
    rw [decimalValue?_of_letter hletter] at h
    cases h
  have hlower : ¬('a' ≤ c ∧ c ≤ 'z') := fun ⟨hlow, hhigh⟩ =>
    hletter ⟨Nat.le_trans (by decide) (Char.le_def.mp hlow), Char.le_def.mp hhigh⟩
  have hupper : ¬('A' ≤ c ∧ c ≤ 'Z') := fun ⟨hlow, hhigh⟩ =>
    hletter ⟨Char.le_def.mp hlow, Nat.le_trans (Char.le_def.mp hhigh) (by decide)⟩
  rw [digitValue?, if_neg hlower, if_neg hupper, h]

/-- A decimal digit in ASCII has the value that it has in its own script. -/
theorem digitValue?_asciiDigit (c : Char) : digitValue? (asciiDigit c) = digitValue? c := by
  unfold asciiDigit
  cases h : decimalValue? c with
  | none => rfl
  | some d =>
    have hall : ∀ d < 10, digitValue? (Char.ofNat (48 + d)) = some d := by decide
    exact (hall d (decimalValue?_lt h)).trans (digitValue?_of_decimal h).symm

/-- Digits of other scripts are not blanks, nor are those of ASCII. -/
theorem isBlank_asciiDigit (c : Char) : isBlank (asciiDigit c) = isBlank c := by
  unfold asciiDigit
  cases h : decimalValue? c with
  | none => rfl
  | some d =>
    have hall : ∀ d < 10, isBlank (Char.ofNat (48 + d)) = false := by decide
    have hblank : isBlank c = false := by
      rw [Bool.eq_false_iff]
      intro hblank
      have hnone := digitValue?_of_blank hblank
      rw [digitValue?_of_decimal h] at hnone
      cases hnone
    exact (hall d (decimalValue?_lt h)).trans hblank.symm

namespace Hexadecimal

variable {c : Char} {d : Nat}

/-- A mark that is no hexadecimal digit is different from all that are. -/
theorem ne (h : Hexadecimal c d) {mark : Char} (hmark : ∀ d < 16, digitValue? mark ≠ some d) :
    c ≠ mark := by
  rintro rfl
  exact hmark d h.2 h.1

theorem notBlank (h : Hexadecimal c d) : isBlank c = false := by
  rw [Bool.eq_false_iff]
  intro hblank
  have hnone := digitValue?_of_blank hblank
  rw [h.1] at hnone
  cases hnone

theorem asciiDigit_iff : Hexadecimal (asciiDigit c) d ↔ Hexadecimal c d := by
  rw [Hexadecimal, Hexadecimal, digitValue?_asciiDigit]

end Hexadecimal

/-- A character that can stand inside an integer: a digit, or a mark. -/
def Inner (c : Char) : Prop :=
  c ∈ ['x', 'X', '_'] ∨ ∃ d, Hexadecimal c d

theorem Hexadecimal.inner {c : Char} {d : Nat} (h : Hexadecimal c d) : Inner c :=
  .inr ⟨d, h⟩

/-- No blank and no sign is among them, nor is any other mark. -/
theorem Inner.ne {c mark : Char} (h : Inner c) (hmark : mark ∉ ['x', 'X', '_'])
    (hdigit : ∀ d < 16, digitValue? mark ≠ some d) : c ≠ mark := by
  rcases h with h | ⟨d, hd⟩
  · exact fun heq => hmark (heq ▸ h)
  · exact hd.ne hdigit

theorem Inner.notBlank {c : Char} (h : Inner c) : isBlank c = false := by
  rcases h with h | ⟨d, hd⟩
  · simp only [List.mem_cons, List.not_mem_nil, or_false] at h
    rcases h with rfl | rfl | rfl <;> rfl
  · exact hd.notBlank

/-! ### Digits and marks -/

namespace IntegerLiteral

variable {s : List Char} {a b c : Char} {d e m value : Nat} {afterDigit : Bool} {n : Int}

/-- A hexadecimal digit is read behind what has been read. -/
theorem digits?_hexadecimal (h : Hexadecimal c d) (afterDigit : Bool) (value : Nat) (s : List Char) :
    digits? 16 afterDigit value (c :: s) = digits? 16 true (value * 16 + d) s := by
  rw [digits?.eq_3 _ _ _ _ _ (h.ne (by decide))]
  simp only [h.1, if_pos h.2]

/-- What comes next is a digit, or a mark behind one. -/
theorem digits?_cons (h : digits? 16 afterDigit value (c :: s) = some m) :
    (afterDigit = true ∧ c = '_' ∧ digits? 16 false value s = some m) ∨
      ∃ d, Hexadecimal c d ∧ digits? 16 true (value * 16 + d) s = some m := by
  by_cases hmark : c = '_'
  · subst hmark
    rw [digits?] at h
    split at h
    case isTrue hafter => exact .inl ⟨hafter, rfl, h⟩
    case isFalse hafter => cases h
  · rw [digits?.eq_3 _ _ _ _ _ hmark] at h
    split at h
    case h_1 d hd =>
      split at h
      case isTrue hlt => exact .inr ⟨d, ⟨hd, hlt⟩, h⟩
      case isFalse hlt => cases h
    case h_2 => cases h

theorem inner_of_digits? (h : digits? 16 afterDigit value s = some m) : ∀ c ∈ s, Inner c := by
  induction s generalizing afterDigit value with
  | nil => simp
  | cons a s ih =>
    intro c hc
    rcases digits?_cons h with ⟨-, rfl, hrest⟩ | ⟨d, hd, hrest⟩
    · rcases List.mem_cons.mp hc with rfl | hc
      · exact .inl (by decide)
      · exact ih hrest c hc
    · rcases List.mem_cons.mp hc with rfl | hc
      · exact hd.inner
      · exact ih hrest c hc

/-- The last character is a digit. -/
theorem digit_of_digits?_last (h : digits? 16 afterDigit value s = some m) (hb : s.getLast? = some b) :
    ∃ e, Hexadecimal b e := by
  induction s generalizing afterDigit value with
  | nil => cases hb
  | cons a s ih =>
    cases s with
    | nil =>
      obtain rfl : a = b := Option.some.inj hb
      rcases digits?_cons h with ⟨-, -, hrest⟩ | ⟨e, he, -⟩
      · cases hrest
      · exact ⟨e, he⟩
    | cons c s =>
      rw [List.getLast?_cons_cons] at hb
      rcases digits?_cons h with ⟨-, -, hrest⟩ | ⟨e, -, hrest⟩
      · exact ih hrest hb
      · exact ih hrest hb

/-- An integer without sign: its digits, which may stand behind a mark of the base. -/
theorem digits?_of_magnitude? (h : magnitude? 16 s = some m) :
    ∃ front rest, s = front ++ rest ∧ (∀ c ∈ front, Inner c) ∧ digits? 16 false 0 rest = some m := by
  have hmark : ∀ c ∈ ['0', 'x', 'X', '_'], Inner c := by
    intro c hc
    rcases List.mem_cons.mp hc with rfl | hc
    · exact .inr ⟨0, by decide⟩
    · exact .inl hc
  have hfront {front : List Char} (hfront : front ⊆ ['0', 'x', 'X', '_']) : ∀ c ∈ front, Inner c :=
    fun c hc => hmark c (hfront hc)
  unfold magnitude? at h
  split at h
  case h_1 rest _ => exact ⟨['0', 'x', '_'], rest, rfl, hfront (by decide), h⟩
  case h_2 rest _ => exact ⟨['0', 'X', '_'], rest, rfl, hfront (by decide), h⟩
  case h_3 rest _ _ => exact ⟨['0', 'x'], rest, rfl, hfront (by decide), h⟩
  case h_4 rest _ _ => exact ⟨['0', 'X'], rest, rfl, hfront (by decide), h⟩
  case h_5 hbase => exact absurd hbase (by decide)
  case h_6 => exact ⟨[], _, rfl, hfront (by decide), h⟩

theorem inner_of_magnitude? (h : magnitude? 16 s = some m) : ∀ c ∈ s, Inner c := by
  obtain ⟨front, rest, rfl, hfront, hrest⟩ := digits?_of_magnitude? h
  intro c hc
  rcases List.mem_append.mp hc with hc | hc
  · exact hfront c hc
  · exact inner_of_digits? hrest c hc

theorem digit_of_magnitude?_last (h : magnitude? 16 s = some m) (hb : s.getLast? = some b) :
    ∃ e, Hexadecimal b e := by
  obtain ⟨front, rest, rfl, -, hrest⟩ := digits?_of_magnitude? h
  have hne : rest ≠ [] := by
    rintro rfl
    cases hrest
  rw [List.getLast?_append_of_ne_nil _ hne] at hb
  exact digit_of_digits?_last hrest hb

/-- Without a mark of the base in front, only the digits are read. -/
theorem magnitude?_of_digits (h : ∀ c ∈ s.tail, ∃ d, Hexadecimal c d) :
    magnitude? 16 s = digits? 16 false 0 s := by
  have hmark {mark : Char} (hmark : ∀ d < 16, digitValue? mark ≠ some d) : mark ∉ s.tail := by
    intro hmem
    obtain ⟨d, hd⟩ := h mark hmem
    exact hd.ne hmark rfl
  have hsmall : 'x' ∉ s.tail := hmark (by decide)
  have hlarge : 'X' ∉ s.tail := hmark (by decide)
  unfold magnitude?
  split
  case h_5 hbase => exact absurd hbase (by decide)
  case h_6 => rfl
  all_goals simp at hsmall hlarge

/-! ### Signs and blanks -/

/-- An integer, with a sign or without. -/
def signed? : List Char → Option Int
  | '-' :: rest => (magnitude? 16 rest).map fun n => -(n : Int)
  | '+' :: rest => (magnitude? 16 rest).map (↑·)
  | s => (magnitude? 16 s).map (↑·)

/-- An integer with blanks around it. -/
def read? (s : List Char) : Option Int :=
  signed? (trimBlanks s)

theorem parse?_ofList (s : List Char) :
    parse? 16 (String.ofList s) = read? (s.map asciiDigit) := by
  rw [parse?, String.toList_ofList]
  rfl

theorem signed?_minus (s : List Char) :
    signed? ('-' :: s) = (magnitude? 16 s).map fun m : Nat => -(m : Int) := by
  rw [signed?]
  cases magnitude? 16 s <;> rfl

theorem signed?_plus (s : List Char) :
    signed? ('+' :: s) = (magnitude? 16 s).map fun m : Nat => (m : Int) := by
  rw [signed?]
  cases magnitude? 16 s <;> rfl

theorem signed?_unsigned (h : ∀ rest, s ≠ '-' :: rest ∧ s ≠ '+' :: rest) :
    signed? s = (magnitude? 16 s).map fun m : Nat => (m : Int) := by
  rw [signed?.eq_3 s (fun rest => (h rest).1) fun rest => (h rest).2]
  cases magnitude? 16 s <;> rfl

theorem sign_cases (s : List Char) :
    (∃ rest, s = '-' :: rest) ∨ (∃ rest, s = '+' :: rest) ∨
      ∀ rest, s ≠ '-' :: rest ∧ s ≠ '+' :: rest := by
  cases s with
  | nil => exact .inr (.inr fun rest => ⟨nofun, nofun⟩)
  | cons c s =>
    by_cases hminus : c = '-'
    · exact .inl ⟨s, by rw [hminus]⟩
    by_cases hplus : c = '+'
    · exact .inr (.inl ⟨s, by rw [hplus]⟩)
    · refine .inr (.inr fun rest => ⟨?_, ?_⟩)
      · exact fun h => hminus (List.cons.inj h).1
      · exact fun h => hplus (List.cons.inj h).1

/-- An integer is a sign or nothing, and an integer without sign. -/
theorem magnitude?_of_signed? (h : signed? s = some n) :
    ∃ sign ∈ [[], ['+'], ['-']], ∃ body m, s = sign ++ body ∧ magnitude? 16 body = some m := by
  rcases sign_cases s with ⟨rest, rfl⟩ | ⟨rest, rfl⟩ | hnone
  · rw [signed?_minus] at h
    obtain ⟨m, hm, -⟩ := Option.map_eq_some_iff.mp h
    exact ⟨['-'], by decide, rest, m, rfl, hm⟩
  · rw [signed?_plus] at h
    obtain ⟨m, hm, -⟩ := Option.map_eq_some_iff.mp h
    exact ⟨['+'], by decide, rest, m, rfl, hm⟩
  · rw [signed?_unsigned hnone] at h
    obtain ⟨m, hm, -⟩ := Option.map_eq_some_iff.mp h
    exact ⟨[], by decide, s, m, rfl, hm⟩

/-- The first character is a sign, or else one that can stand inside, as all others can. -/
theorem inner_of_signed? (h : signed? (a :: s) = some n) :
    (a ∈ ['+', '-'] ∨ Inner a) ∧ ∀ c ∈ s, Inner c := by
  obtain ⟨sign, hsign, body, m, hsplit, hm⟩ := magnitude?_of_signed? h
  have hbody := inner_of_magnitude? hm
  simp only [List.mem_cons, List.not_mem_nil, or_false] at hsign
  rcases hsign with rfl | rfl | rfl
  · obtain rfl : a :: s = body := hsplit
    obtain ⟨ha, hs⟩ := List.forall_mem_cons.mp hbody
    exact ⟨.inr ha, hs⟩
  · obtain ⟨rfl, rfl⟩ := List.cons.inj hsplit
    exact ⟨.inl (by decide), hbody⟩
  · obtain ⟨rfl, rfl⟩ := List.cons.inj hsplit
    exact ⟨.inl (by decide), hbody⟩

theorem digit_of_signed?_last (h : signed? s = some n) (hb : s.getLast? = some b) :
    ∃ e, Hexadecimal b e := by
  obtain ⟨sign, -, body, m, rfl, hm⟩ := magnitude?_of_signed? h
  have hne : body ≠ [] := by
    rintro rfl
    cases hm
  rw [List.getLast?_append_of_ne_nil _ hne] at hb
  exact digit_of_magnitude?_last hm hb

/-- The last character stays where blanks are taken away in front of something that is none. -/
theorem dropWhile_concat (h : ∃ a ∈ s ++ [b], isBlank a = false) :
    ∃ front, (s ++ [b]).dropWhile isBlank = front ++ [b] := by
  rw [List.dropWhile_append]
  split
  case isTrue hall =>
    rw [List.isEmpty_iff, List.dropWhile_eq_nil_iff] at hall
    have hb : isBlank b = false := by
      obtain ⟨a, ha, hblank⟩ := h
      rcases List.mem_append.mp ha with ha | ha
      · exact absurd (hblank.symm.trans (hall a ha)) Bool.false_ne_true
      · rwa [List.mem_singleton.mp ha] at hblank
    exact ⟨[], by simp [hb]⟩
  case isFalse => exact ⟨_, rfl⟩

/-- What is inside a text is kept when the blanks at its ends are taken away. -/
theorem trimBlanks_inside {front back : List Char} (hfront : ∃ a ∈ front, isBlank a = false)
    (hback : ∃ b ∈ c :: back, isBlank b = false) :
    ∃ a front' back', trimBlanks (front ++ c :: back) = a :: (front' ++ c :: back') := by
  have hfirst : front.dropWhile isBlank ≠ [] := by
    obtain ⟨a, ha, hblank⟩ := hfront
    intro hnil
    rw [List.dropWhile_eq_nil_iff] at hnil
    exact Bool.false_ne_true (hblank.symm.trans (hnil a ha))
  obtain ⟨a, front', hfront'⟩ := List.exists_cons_of_ne_nil hfirst
  obtain ⟨back', hback'⟩ : ∃ back', (back.reverse ++ [c]).dropWhile isBlank = back' ++ [c] := by
    obtain ⟨b, hb, hblank⟩ := hback
    exact dropWhile_concat ⟨b, by simpa [or_comm] using hb, hblank⟩
  have hkept : ¬((back.reverse ++ [c]).dropWhile isBlank).isEmpty = true := by simp [hback']
  refine ⟨a, front', back'.reverse, ?_⟩
  rw [trimBlanks, List.dropWhile_append, if_neg (by simp [hfirst]), List.reverse_append, List.reverse_cons,
    List.dropWhile_append, if_neg hkept, hback', hfront']
  simp

theorem trimBlanks_cons_of_blank (h : isBlank a = true) (s : List Char) :
    trimBlanks (a :: s) = trimBlanks s := by
  rw [trimBlanks, List.dropWhile_cons_of_pos h, trimBlanks]

theorem trimBlanks_concat_of_blank (h : isBlank b = true) (s : List Char) :
    trimBlanks (s ++ [b]) = trimBlanks s := by
  unfold trimBlanks
  rw [List.dropWhile_append]
  split
  case isTrue hall =>
    rw [List.isEmpty_iff] at hall
    simp [h, hall]
  case isFalse => simp [h]

theorem trimBlanks_concat (h : isBlank b = false) (s : List Char) :
    ∃ front, trimBlanks (s ++ [b]) = front ++ [b] := by
  obtain ⟨front, hfront⟩ := dropWhile_concat ⟨b, List.mem_append_right s List.mem_cons_self, h⟩
  refine ⟨front, ?_⟩
  rw [trimBlanks, hfront]
  simp [h]

theorem trimBlanks_of_notBlank (h : ∀ c ∈ s, isBlank c = false) : trimBlanks s = s := by
  have hkeep {s : List Char} (h : ∀ c ∈ s, isBlank c = false) : s.dropWhile isBlank = s := by
    cases s with
    | nil => rfl
    | cons a s => exact List.dropWhile_cons_of_neg (by simp [h a])
  rw [trimBlanks, hkeep h, hkeep (by simpa using h), List.reverse_reverse]

/-- The first character stays where nothing is taken away in front of it. -/
theorem trimBlanks_cons (h : isBlank a = false) (s : List Char) :
    ∃ back, trimBlanks (a :: s) = a :: back := by
  obtain ⟨back, hback⟩ := dropWhile_concat ⟨a, List.mem_append_right s.reverse List.mem_cons_self, h⟩
  refine ⟨back.reverse, ?_⟩
  rw [trimBlanks, List.dropWhile_cons_of_neg (by simp [h]), List.reverse_cons, hback]
  simp

theorem read?_cons_of_blank (h : isBlank a = true) (s : List Char) : read? (a :: s) = read? s :=
  congrArg signed? (trimBlanks_cons_of_blank h s)

theorem read?_concat_of_blank (h : isBlank b = true) (s : List Char) : read? (s ++ [b]) = read? s :=
  congrArg signed? (trimBlanks_concat_of_blank h s)

/-- An integer begins with a blank, a sign, or what can stand inside. -/
theorem first_of_read? (h : read? (a :: s) = some n) :
    isBlank a = true ∨ a ∈ ['+', '-'] ∨ Inner a := by
  by_cases ha : isBlank a = true
  · exact .inl ha
  · obtain ⟨back, htrim⟩ := trimBlanks_cons (Bool.eq_false_iff.mpr ha) s
    rw [read?, htrim] at h
    exact .inr (inner_of_signed? h).1

/-- **No blank and no sign stands inside an integer.** -/
theorem inner_of_read? (front back : List Char) (h : read? (front ++ c :: back) = some n)
    (hfront : ∃ a ∈ front, isBlank a = false) (hback : ∃ b ∈ c :: back, isBlank b = false) :
    Inner c := by
  obtain ⟨a, front', back', htrim⟩ := trimBlanks_inside hfront hback
  rw [read?, htrim] at h
  exact (inner_of_signed? h).2 c (by simp)

/-- **The last character of an integer is a digit**, unless it is a blank. -/
theorem digit_of_read?_last (h : read? (s ++ [b]) = some n) (hb : isBlank b = false) :
    ∃ e, Hexadecimal b e := by
  obtain ⟨front, htrim⟩ := trimBlanks_concat hb s
  rw [read?, htrim] at h
  exact digit_of_signed?_last h (by simp)

/-! ### Digits behind the first character -/

/-- What a character in front of digits does to them: they get a sign, and maybe one more digit. -/
inductive Lead : Char → Int → Nat → Prop
  | digit {c : Char} {d : Nat} (h : Hexadecimal c d) : Lead c 1 d
  | blank {c : Char} (h : isBlank c = true) : Lead c 1 0
  | plus : Lead '+' 1 0
  | minus : Lead '-' (-1) 0

variable {sign : Int}

theorem Lead.sign_cases (h : Lead a sign d) : (sign = 1 ∧ d < 16) ∨ (sign = -1 ∧ d = 0) := by
  cases h with
  | digit h => exact .inl ⟨rfl, h.2⟩
  | blank h => exact .inl ⟨rfl, by decide⟩
  | plus => exact .inl ⟨rfl, by decide⟩
  | minus => exact .inr ⟨rfl, rfl⟩

/-- Inside an integer it can only be a digit. -/
theorem Lead.digit_of_inner (h : Lead a sign d) (ha : Inner a) : Hexadecimal a d ∧ sign = 1 := by
  cases h with
  | digit h => exact ⟨h, rfl⟩
  | blank h => exact absurd (ha.notBlank.symm.trans h) Bool.false_ne_true
  | plus => exact absurd rfl (ha.ne (by decide) (by decide))
  | minus => exact absurd rfl (ha.ne (by decide) (by decide))

/-- Nothing but digits. -/
def AllHexadecimal (s : List Char) : Prop :=
  ∀ c ∈ s, ∃ d, Hexadecimal c d

theorem allHexadecimal_singleton (h : Hexadecimal c d) : AllHexadecimal [c] := by
  intro b hb
  rw [List.mem_singleton.mp hb]
  exact ⟨d, h⟩

theorem AllHexadecimal.notBlank (h : AllHexadecimal s) : ∀ c ∈ s, isBlank c = false := by
  intro c hc
  obtain ⟨d, hd⟩ := h c hc
  exact hd.notBlank

theorem AllHexadecimal.unsigned (h : AllHexadecimal s) (rest : List Char) :
    s ≠ '-' :: rest ∧ s ≠ '+' :: rest := by
  constructor
  · rintro rfl
    obtain ⟨d, hd⟩ := h '-' List.mem_cons_self
    exact hd.ne (by decide) rfl
  · rintro rfl
    obtain ⟨d, hd⟩ := h '+' List.mem_cons_self
    exact hd.ne (by decide) rfl

theorem AllHexadecimal.magnitude?_eq (h : AllHexadecimal s) : magnitude? 16 s = digits? 16 false 0 s :=
  magnitude?_of_digits fun c hc => h c (List.mem_of_mem_tail hc)

/-- As an integer they have no sign and no blanks. -/
theorem AllHexadecimal.read?_eq (h : AllHexadecimal s) :
    read? s = (digits? 16 false 0 s).map fun m : Nat => (m : Int) := by
  rw [read?, trimBlanks_of_notBlank h.notBlank, signed?_unsigned h.unsigned, h.magnitude?_eq]

/-- Digits can be read behind nothing as behind a digit. -/
theorem AllHexadecimal.digits?_eq (h : AllHexadecimal s) (hne : s ≠ []) :
    digits? 16 false 0 s = digits? 16 true 0 s := by
  cases s with
  | nil => exact absurd rfl hne
  | cons a s =>
    obtain ⟨d, hd⟩ := h a List.mem_cons_self
    rw [digits?_hexadecimal hd, digits?_hexadecimal hd]

/-- **A first character in front of digits** does to the integer what it does to them. -/
theorem read?_of_lead (h : Lead a sign d) (hs : AllHexadecimal s) (hne : s ≠ [])
    (hm : digits? 16 true d s = some m) : read? (a :: s) = some (sign * m) := by
  have hkept (ha : isBlank a = false) : read? (a :: s) = signed? (a :: s) :=
    congrArg signed? (trimBlanks_of_notBlank (List.forall_mem_cons.mpr ⟨ha, hs.notBlank⟩))
  cases h with
  | digit ha =>
    have hall : AllHexadecimal (a :: s) := List.forall_mem_cons.mpr ⟨⟨d, ha⟩, hs⟩
    rw [hall.read?_eq, digits?_hexadecimal ha, Nat.zero_mul, Nat.zero_add, hm, Int.one_mul]
    rfl
  | blank ha =>
    rw [read?_cons_of_blank ha, hs.read?_eq, hs.digits?_eq hne, hm, Int.one_mul]
    rfl
  | plus =>
    rw [hkept (by decide), signed?_plus, hs.magnitude?_eq, hs.digits?_eq hne, hm, Int.one_mul]
    rfl
  | minus =>
    rw [hkept (by decide), signed?_minus, hs.magnitude?_eq, hs.digits?_eq hne, hm, Int.neg_mul,
      Int.one_mul]
    rfl

theorem lead_of_read? (h : read? (a :: s) = some n) (hs : AllHexadecimal s) :
    ∃ sign d, Lead a sign d := by
  by_cases hblank : isBlank a = true
  · exact ⟨1, 0, .blank hblank⟩
  by_cases hminus : a = '-'
  · exact ⟨-1, 0, hminus ▸ .minus⟩
  by_cases hplus : a = '+'
  · exact ⟨1, 0, hplus ▸ .plus⟩
  -- Nothing is taken away, so the text is read as an integer without sign, and that begins with a digit.
  have hnotBlank : ∀ c ∈ a :: s, isBlank c = false :=
    List.forall_mem_cons.mpr ⟨Bool.eq_false_iff.mpr hblank, hs.notBlank⟩
  have hunsigned (rest : List Char) : a :: s ≠ '-' :: rest ∧ a :: s ≠ '+' :: rest :=
    ⟨fun h => hminus (List.cons.inj h).1, fun h => hplus (List.cons.inj h).1⟩
  have hmagnitude : magnitude? 16 (a :: s) = digits? 16 false 0 (a :: s) := magnitude?_of_digits hs
  rw [read?, trimBlanks_of_notBlank hnotBlank, signed?_unsigned hunsigned, hmagnitude] at h
  obtain ⟨m, hm, -⟩ := Option.map_eq_some_iff.mp h
  rcases digits?_cons hm with ⟨hafter, -⟩ | ⟨d, hd, -⟩
  · cases hafter
  · exact ⟨1, d, .digit hd⟩

/-- So it and the digits say which integer is read. -/
theorem eq_of_read? (h : read? (a :: s) = some n) (hs : AllHexadecimal s) (hne : s ≠ [])
    {magnitude : Nat → Nat} (hm : ∀ d, digits? 16 true d s = some (magnitude d)) :
    ∃ sign d, Lead a sign d ∧ n = sign * magnitude d := by
  obtain ⟨sign, d, hlead⟩ := lead_of_read? h hs
  exact ⟨sign, d, hlead, Option.some.inj (h.symm.trans (read?_of_lead hlead hs hne (hm d)))⟩

/-- A digit behind what may stand in front of one. -/
theorem read?_lead_digit (ha : Lead a sign d) (hb : Hexadecimal b e) :
    read? [a, b] = some (sign * (d * 16 + e : Nat)) :=
  read?_of_lead ha (allHexadecimal_singleton hb) (List.cons_ne_nil b []) (digits?_hexadecimal hb true d [])

/-- A digit in front of a blank. -/
theorem read?_digit_blank (ha : Hexadecimal a d) (hb : isBlank b = true) :
    read? [a, b] = some (d : Int) := by
  have hone : read? [a, b] = read? [a] := read?_concat_of_blank hb [a]
  rw [hone, (allHexadecimal_singleton ha).read?_eq, digits?_hexadecimal ha, Nat.zero_mul, Nat.zero_add]
  rfl

/-- **Two characters are read** only in these two ways. -/
theorem cases_of_read?_pair (h : read? [a, b] = some n) :
    (∃ sign d e, Lead a sign d ∧ Hexadecimal b e) ∨ ∃ d, Hexadecimal a d ∧ isBlank b = true := by
  by_cases hb : isBlank b = true
  · have hone : read? [a] = some n := (read?_concat_of_blank hb [a]).symm.trans h
    have ha : isBlank a = false := by
      rw [Bool.eq_false_iff]
      intro ha
      rw [read?_cons_of_blank ha] at hone
      cases hone
    obtain ⟨d, hd⟩ := digit_of_read?_last (s := []) hone ha
    exact .inr ⟨d, hd, hb⟩
  · obtain ⟨e, he⟩ := digit_of_read?_last (s := [a]) h (Bool.eq_false_iff.mpr hb)
    obtain ⟨sign, d, hd⟩ := lead_of_read? h (allHexadecimal_singleton he)
    exact .inl ⟨sign, d, e, hd, he⟩

end IntegerLiteral

end ChipEight.Text
