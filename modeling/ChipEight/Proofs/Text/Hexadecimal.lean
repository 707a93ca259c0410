import ChipEight.Proofs.Text.IntegerForm
import ChipEight.Text.Hex

/-!
# Hexadecimal text can be read

What `Hex.padded` writes of a natural number in any width, `IntegerLiteral.digits?` reads again
(`digits?_padded`).  The digits are written from the last to the first and read from the first to the
last, so the induction is on the number and leaves open what follows its digits and what has been read
in front of them (`digits?_digits`).
-/

namespace ChipEight.Text

namespace Hex

/-- Each digit has its value back, and is none of the marks that may stand between digits. -/
theorem digitValue?_digit {d : Nat} (h : d < 16) :
    digitValue? (digit d) = some d ∧ digit d ∉ ['_', ' ', ','] := by
  revert d
  decide

/-- A number is written in digits. -/
theorem mem_digits {n : Nat} {c : Char} (h : c ∈ digits n) : ∃ d < 16, c = digit d := by
  induction n using digits.induct with
  | case1 n hn =>
    rw [digits_of_lt hn] at h
    exact ⟨n, hn, List.mem_singleton.mp h⟩
  | case2 n hn ih =>
    rw [digits_of_ge (by omega)] at h
    rcases List.mem_append.mp h with hfront | hlast
    · exact ih hfront
    · exact ⟨n % 16, by omega, List.mem_singleton.mp hlast⟩

/-- A natural number in a width is its digits behind zeros. -/
theorem toList_padded (width n : Nat) : (padded width n).toList = zeroFill width (digits n) := by
  simp only [padded, Int.natAbs_natCast, String.toList_ofList]
  exact if_neg (by omega)

/-- So it is written in digits, too. -/
theorem mem_padded {width n : Nat} {c : Char} (h : c ∈ (padded width n).toList) :
    ∃ d < 16, c = digit d := by
  rw [toList_padded, zeroFill] at h
  rcases List.mem_append.mp h with hzero | hdigit
  · exact ⟨0, by decide, List.eq_of_mem_replicate hzero⟩
  · exact mem_digits hdigit

end Hex

namespace IntegerLiteral

open Hex

/-- A digit that has been written is read behind what has been read. -/
theorem digits?_digit (afterDigit : Bool) (value : Nat) {d : Nat} (h : d < 16) (rest : List Char) :
    digits? 16 afterDigit value (digit d :: rest) = digits? 16 true (value * 16 + d) rest :=
  digits?_hexadecimal ⟨(digitValue?_digit h).1, h⟩ afterDigit value rest

/-- Zeros in front are read as nothing. -/
theorem digits?_zeros (count : Nat) {n : Nat} {rest : List Char}
    (h : ∀ afterDigit, digits? 16 afterDigit 0 rest = some n) (afterDigit : Bool) :
    digits? 16 afterDigit 0 (List.replicate count '0' ++ rest) = some n := by
  induction count generalizing afterDigit with
  | zero => exact h afterDigit
  | succ count ih => exact (digits?_digit afterDigit 0 (show 0 < 16 by decide) _).trans (ih true)

/-- **The digits of a number are read** behind what has been read, whatever follows. -/
theorem digits?_digits (n : Nat) (afterDigit : Bool) (value : Nat) (rest : List Char) :
    digits? 16 afterDigit value (digits n ++ rest) =
      digits? 16 true (value * Nat.pow 16 (digits n).length + n) rest := by
  induction n using digits.induct generalizing rest with
  | case1 n hn =>
    rw [digits_of_lt hn]
    simpa using digits?_digit afterDigit value hn rest
  | case2 n hn ih =>
    rw [digits_of_ge (by omega), List.append_assoc, List.singleton_append, ih,
      digits?_digit _ _ (by omega)]
    have hpow : Nat.pow 16 ((digits (n / 16)).length + 1) =
        Nat.pow 16 (digits (n / 16)).length * 16 := rfl
    have hvalue : (value * Nat.pow 16 (digits (n / 16)).length + n / 16) * 16 + n % 16 =
        value * Nat.pow 16 (digits (n / 16) ++ [digit (n % 16)]).length + n := by
      rw [List.length_append, List.length_singleton, hpow, Nat.add_mul, Nat.mul_assoc]
      omega
    rw [hvalue]

/-- **What is written in hexadecimal is read again.** -/
theorem digits?_padded (width n : Nat) :
    digits? 16 false 0 (padded width n).toList = some n := by
  have hdigits (afterDigit : Bool) : digits? 16 afterDigit 0 (digits n) = some n := by
    have h := digits?_digits n afterDigit 0 []
    simpa [digits?] using h
  rw [toList_padded, zeroFill]
  exact digits?_zeros _ hdigits false

end IntegerLiteral

end ChipEight.Text
