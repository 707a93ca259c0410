/-!
# Signed integers of fixed width

A computer holds an integer in a word of so many bits, one of them for the sign. Of an integer
that does not fit, only the lowest bits can be kept.

* `Signed.Fits` says which integers fit into a word;
* `Signed.cut` keeps the lowest bits.
-/

namespace ChipEight.Signed

/-- The integers that fit into a word of so many bits. -/
def Fits (bits : Nat) (n : Int) : Prop :=
  -(Nat.pow 2 (bits - 1) : Nat) ≤ n ∧ n < (Nat.pow 2 (bits - 1) : Nat)

instance (bits : Nat) (n : Int) : Decidable (Fits bits n) := inferInstanceAs (Decidable (_ ∧ _))

/-- The lowest bits of an integer, read with a sign. -/
def cut (bits : Nat) (n : Int) : Int :=
  Int.bmod n (Nat.pow 2 bits)

end ChipEight.Signed
