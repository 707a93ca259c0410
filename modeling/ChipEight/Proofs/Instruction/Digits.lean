import Mathlib.Data.Int.Bitwise
import ChipEight.Proofs.Instruction.Pattern

/-!
# Digits are bits

The digits of a word are defined by division.  They can also be cut out of its bits: a mask keeps some
of them, and a shift moves these to the right.  The bits of a negative number are those of its two's
complement, which go on to the left without an end.

Both agree for every integer, because division rounds towards minus infinity as the shift does, and
because a mask of ones keeps the remainder, of whatever sign the number is (`land_ones`).  So a digit is
what a mask of four ones at its place leaves (`nibble_eq_land`), and putting digits together is the same
for shifting as for multiplying (`joinByte_eq_lor`, `joinAddress_eq_lor`).
-/

namespace ChipEight

/-- Taking bits away from ones leaves the complement of the remainder. -/
theorem ldiff_ones (k n : Nat) : Nat.ldiff (2 ^ k - 1) n = 2 ^ k - (n % 2 ^ k + 1) := by
  have hlt : n % 2 ^ k < 2 ^ k := Nat.mod_lt _ (Nat.two_pow_pos k)
  apply Nat.eq_of_testBit_eq
  intro i
  rw [Nat.testBit_ldiff, Nat.testBit_two_pow_sub_one, Nat.testBit_two_pow_sub_succ hlt,
    Nat.testBit_mod_two_pow]
  cases decide (i < k) <;> rfl

/-- **A mask of ones keeps the remainder**, also of a negative number. -/
theorem land_ones (w : Int) (k : Nat) : Int.land w (2 ^ k - 1 : Nat) = w % (2 ^ k : Nat) := by
  have hpos : 0 < 2 ^ k := Nat.two_pow_pos k
  cases w with
  | ofNat n =>
    have hbits : n &&& (2 ^ k - 1) = n % 2 ^ k := Nat.and_two_pow_sub_one_eq_mod n k
    exact congrArg Nat.cast hbits
  | negSucc n =>
    have hlt : n % 2 ^ k < 2 ^ k := Nat.mod_lt _ hpos
    have hbits : Int.land (Int.negSucc n) (2 ^ k - 1 : Nat) = (2 ^ k - (n % 2 ^ k + 1) : Nat) :=
      congrArg Nat.cast (ldiff_ones k n)
    rw [hbits, Int.negSucc_emod _ (Int.natCast_pos.mpr hpos)]
    omega

/-- A mask that stands further to the left can be applied after the shift. -/
theorem land_shiftRight (w : Int) (mask k : Nat) :
    Int.land w (mask <<< k : Nat) >>> k = Int.land (w >>> k) mask := by
  cases w with
  | ofNat n =>
    have hbits : (n &&& mask <<< k) >>> k = n >>> k &&& mask := by
      rw [Nat.shiftRight_and_distrib, Nat.shiftLeft_shiftRight]
    exact congrArg Nat.cast hbits
  | negSucc n =>
    have hbits : Nat.ldiff (mask <<< k) n >>> k = Nat.ldiff mask (n >>> k) := by
      apply Nat.eq_of_testBit_eq
      intro i
      simp [Nat.testBit_ldiff]
    exact congrArg Nat.cast hbits

/-- **A digit is what a mask of four ones at its place leaves.** -/
theorem nibble_eq_land (w : Int) (place : Nat) :
    ((nibble w place).val : Int) = Int.land w (0xF <<< (4 * place) : Nat) >>> (4 * place) := by
  have hpower : Nat.pow 16 place = 2 ^ (4 * place) := (Nat.pow_mul 2 4 place).symm
  rw [nibble_val, land_shiftRight, hpower, ← Int.shiftRight_eq_div_pow]
  exact (land_ones (w >>> (4 * place)) 4).symm

/-- The lowest digit is the remainder by sixteen. -/
theorem nibble_zero (w : Int) : ((nibble w 0).val : Int) = w % 16 := by
  have h : _ = w / 1 % 16 := nibble_val w 0
  rw [h, Int.ediv_one]

/-- It is the last four bits. -/
theorem nibble_zero_eq_land (w : Int) : ((nibble w 0).val : Int) = Int.land w 0xF :=
  (nibble_zero w).trans (land_ones w 4).symm

/-- Only that remainder counts for it. -/
theorem nibble_zero_emod (w : Int) : nibble (w % 16) 0 = nibble w 0 := by
  have h := nibble_zero (w % 16)
  have h' := nibble_zero w
  apply Fin.ext
  omega

theorem joinByte_emod (high low : Int) : joinByte (high % 16) (low % 16) = joinByte high low := by
  rw [joinByte, joinByte, nibble_zero_emod, nibble_zero_emod]

theorem joinAddress_emod (high middle low : Int) :
    joinAddress (high % 16) (middle % 16) (low % 16) = joinAddress high middle low := by
  rw [joinAddress, joinAddress, joinByte_emod, nibble_zero_emod]

/-- A number below a power of two is put behind another by shifting that one to the left. -/
theorem lor_shiftLeft {n k : Nat} (h : n < 2 ^ k) (m : Nat) :
    Int.lor ((m : Int) <<< k) n = (m * 2 ^ k + n : Nat) := by
  have hbits : m <<< k ||| n = m * 2 ^ k + n := by
    rw [← Nat.shiftLeft_add_eq_or_of_lt h, Nat.shiftLeft_eq]
  exact congrArg Nat.cast hbits

theorem joinByte_lt (high low : Int) : joinByte high low < 256 := by
  have hhigh := (nibble high 0).isLt
  have hlow := (nibble low 0).isLt
  rw [joinByte]
  omega

/-- **A byte is put together from its digits by a shift.** -/
theorem joinByte_eq_lor (high low : Int) :
    (joinByte high low : Int) =
      Int.lor (Int.land high 0xF <<< (4 : Nat)) (Int.land low 0xF) := by
  rw [← nibble_zero_eq_land, ← nibble_zero_eq_land, lor_shiftLeft (nibble low 0).isLt]
  rfl

/-- **And so is an address from a digit and a byte.** -/
theorem joinAddress_eq_lor (high middle low : Int) :
    (joinAddress high middle low : Int) =
      Int.lor (Int.land high 0xF <<< (8 : Nat)) (joinByte middle low) := by
  rw [← nibble_zero_eq_land, lor_shiftLeft (joinByte_lt middle low)]
  rfl

namespace Fields

/-- **Splitting a word loses nothing.**  Whatever integer is read as a word, of either sign and of any
size:

* its digits are below sixteen, and are the ones that masks and shifts cut out of its bits;
* put together they are the word modulo 65536, which is what a mask of sixteen ones keeps; an operand
  of two or three digits is a part of it;
* operands can also be put together from numbers that are no digits, of which only the remainder by
  sixteen counts, or the last four bits;
* the decimal digits of an integer are below ten and make it up modulo a thousand. -/
theorem split_lossless (w a b c v : Int) :
    ∃ f, f = ofInt w ∧
    (f.op.val ≤ 15 ∧ f.x.val ≤ 15 ∧ f.y.val ≤ 15 ∧ f.n.val ≤ 15) ∧
    ((f.op.val : Int) = Int.land w 0xF000 >>> (12 : Nat) ∧
      (f.x.val : Int) = Int.land w 0x0F00 >>> (8 : Nat) ∧
      (f.y.val : Int) = Int.land w 0x00F0 >>> (4 : Nat) ∧ (f.n.val : Int) = Int.land w 0x000F) ∧
    ((f.value : Int) = w % 65536 ∧ (f.value : Int) = Int.land w 0xFFFF ∧
      f.value = 4096 * f.op.val + f.address ∧ f.address = 256 * f.x.val + f.byte ∧
      f.byte = 16 * f.y.val + f.n.val) ∧
    (joinByte a b = joinByte (a % 16) (b % 16) ∧
      joinAddress a b c = joinAddress (a % 16) (b % 16) (c % 16) ∧
      (joinByte a b : Int) = Int.lor (Int.land a 0xF <<< (4 : Nat)) (Int.land b 0xF) ∧
      (joinAddress a b c : Int) = Int.lor (Int.land a 0xF <<< (8 : Nat)) (joinByte b c)) ∧
    ∃ hundreds tens units, decimalDigits v = (hundreds, tens, units) ∧
      (hundreds ≤ 9 ∧ tens ≤ 9 ∧ units ≤ 9) ∧
      ((100 * hundreds + 10 * tens + units : Nat) : Int) = v % 1000 := by
  obtain ⟨f, hf⟩ : ∃ f, f = ofInt w := ⟨_, rfl⟩
  refine ⟨f, hf, ?_, ?_, ?_, ?_, ?_⟩
  · have hop := f.op.isLt
    have hx := f.x.isLt
    have hy := f.y.isLt
    have hn := f.n.isLt
    omega
  · rw [hf]
    exact ⟨nibble_eq_land w 3, nibble_eq_land w 2, nibble_eq_land w 1, nibble_zero_eq_land w⟩
  · have hvalue : (f.value : Int) = w % 65536 := by
      rw [hf]
      exact value_ofInt w
    have hsplit : f.value = f.op.val * 4096 + f.address := rfl
    have haddress := f.address_eq
    have hbyte := f.byte_eq
    refine ⟨hvalue, ?_, ?_, ?_, ?_⟩
    · rw [hvalue]
      exact (land_ones w 16).symm
    all_goals omega
  · exact ⟨(joinByte_emod a b).symm, (joinAddress_emod a b c).symm, joinByte_eq_lor a b,
      joinAddress_eq_lor a b c⟩
  · obtain ⟨hhundreds, htens, hunits⟩ := decimalDigits_lt v
    have hvalue := decimalDigits_value v
    refine ⟨_, _, _, rfl, by omega, ?_⟩
    exact_mod_cast hvalue

end Fields

end ChipEight
