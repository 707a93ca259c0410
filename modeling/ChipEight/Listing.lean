import ChipEight.Mnemonic

/-!
# Program listings

A program is listed two bytes at a time: the address, the word there and its assembly text. A
trailing odd byte is no word and is left out.
-/

namespace ChipEight

/-- One line of a listing. -/
structure Listing where
  address : Int
  word : Nat
  text : String
  deriving DecidableEq, Repr

namespace Listing

/-- The listing of a program whose first byte has the given address. -/
def ofProgram (origin : Int) : List UInt8 → List Listing
  | high :: low :: rest =>
    let word := high.toNat * 256 + low.toNat
    ⟨origin, word, mnemonic word⟩ :: ofProgram (origin + 2) rest
  | _ => []

/-- Every whole word is listed once. -/
theorem length_ofProgram (origin : Int) :
    ∀ program, (ofProgram origin program).length = program.length / 2
  | [] => rfl
  | [_] => by simp [ofProgram]
  | high :: low :: rest => by
    simp only [ofProgram, List.length_cons, length_ofProgram (origin + 2) rest]
    omega

/-- Only a program without a whole word has an empty listing. -/
theorem half_length_of_nil {origin : Int} {program : List UInt8} (h : ofProgram origin program = []) :
    program.length / 2 = 0 := by
  rw [← length_ofProgram origin program, h, List.length_nil]

/-- A line as it is printed. -/
def line (l : Listing) : String :=
  Text.Hex.padded 4 l.address ++ "  " ++ Text.Hex.padded 4 l.word ++ "  " ++ l.text

end Listing

end ChipEight
