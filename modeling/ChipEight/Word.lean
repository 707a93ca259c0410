/-!
# Instruction words

A CHIP-8 instruction is one sixteen-bit word, read as four hexadecimal digits. Any integer is
accepted as a word and read modulo 65536, so the digits of a negative number are those of its
two's complement.

* `Fields.ofInt` splits a word into its digits;
* `Fields.value` puts them together again, and `value_ofInt` says that this is the word modulo
  65536;
* `joinByte` and `joinAddress` read two or three digits as one operand, whatever the size and the
  sign of the numbers that hold them;
* `decimalDigits` splits a number into its three lowest decimal digits.
-/

namespace ChipEight

/-- The hexadecimal digit of an integer at a place, counted from the right. -/
def nibble (w : Int) (place : Nat) : Fin 16 :=
  Fin.ofNat 16 (w / (Nat.pow 16 place : Nat) % 16).toNat

/-- Two hexadecimal digits as one byte; only the lowest digit of each number counts. -/
def joinByte (high low : Int) : Nat :=
  (nibble high 0).val * 16 + (nibble low 0).val

/-- Three hexadecimal digits as one twelve-bit address. -/
def joinAddress (high middle low : Int) : Nat :=
  (nibble high 0).val * 256 + joinByte middle low

/-- The hundreds, tens and units of an integer, each rounded towards minus infinity. -/
def decimalDigits (v : Int) : Nat × Nat × Nat :=
  ((v / 100 % 10).toNat, (v / 10 % 10).toNat, (v % 10).toNat)

/-- The three digits of an integer make up what is left of it modulo a thousand. -/
theorem decimalDigits_value (v : Int) :
    100 * (decimalDigits v).1 + 10 * (decimalDigits v).2.1 + (decimalDigits v).2.2 = v % 1000 := by
  simp only [decimalDigits]
  omega

/-- A decimal digit is below ten. -/
theorem decimalDigits_lt (v : Int) :
    (decimalDigits v).1 < 10 ∧ (decimalDigits v).2.1 < 10 ∧ (decimalDigits v).2.2 < 10 := by
  simp only [decimalDigits]
  omega

/-- The four hexadecimal digits of an instruction word, most significant first. The first selects
the operation; the others hold its operands. -/
structure Fields where
  op : Fin 16
  x : Fin 16
  y : Fin 16
  n : Fin 16
  deriving DecidableEq, Repr

namespace Fields

/-- The digits of a word, which may be any integer. -/
def ofInt (w : Int) : Fields :=
  ⟨nibble w 3, nibble w 2, nibble w 1, nibble w 0⟩

/-- The byte operand: the last two digits. -/
def byte (f : Fields) : Nat :=
  joinByte f.y f.n

/-- The address operand: the last three digits. -/
def address (f : Fields) : Nat :=
  joinAddress f.x f.y f.n

/-- The word that has these digits. -/
def value (f : Fields) : Nat :=
  f.op.val * 4096 + f.address

end Fields

/-- A digit is the quotient by its place value, modulo sixteen. -/
theorem nibble_val (w : Int) (place : Nat) :
    ((nibble w place).val : Int) = w / (Nat.pow 16 place : Nat) % 16 := by
  have h : 0 ≤ w / (Nat.pow 16 place : Nat) % 16 := Int.emod_nonneg _ (by decide)
  have h' : w / (Nat.pow 16 place : Nat) % 16 < 16 := Int.emod_lt_of_pos _ (by decide)
  simp only [nibble, Fin.val_ofNat]
  omega

/-- A digit of a digit is that digit. -/
theorem nibble_zero_of_fin (d : Fin 16) : nibble (d.val : Int) 0 = d := by
  apply Fin.ext
  have h : _ = (d.val : Int) / 1 % 16 := nibble_val d.val 0
  have hd := d.isLt
  omega

/-- **No digit is lost.** The digits of a word put together are the word modulo 65536. -/
theorem Fields.value_ofInt (w : Int) : ((Fields.ofInt w).value : Int) = w % 65536 := by
  have h0 : _ = w / 1 % 16 := nibble_val w 0
  have h1 : _ = w / 16 % 16 := nibble_val w 1
  have h2 : _ = w / 256 % 16 := nibble_val w 2
  have h3 : _ = w / 4096 % 16 := nibble_val w 3
  simp only [Fields.value, Fields.address, joinAddress, joinByte, Fields.ofInt,
    nibble_zero_of_fin]
  omega

end ChipEight
