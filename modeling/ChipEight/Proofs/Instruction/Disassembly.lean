import ChipEight.Listing
import ChipEight.Proofs.Instruction.Assembler

/-!
# A listing can be assembled again

A listing shows a word next to its text, but the text alone is enough: the assembler gives each word
back, and the words give the bytes.  So `reassemble?` restores a program from the texts of its listing,
where none of them is unknown (`reassemble?_ofProgram`), and two programs with the same texts agree.
What a listing never shows is a trailing odd byte, which is no word.
-/

namespace ChipEight

namespace Listing

/-- The bytes of a program from the texts of its listing. -/
def reassemble? : List String → Option (List UInt8)
  | [] => some []
  | text :: texts => do
    let word ← wordOfText? text
    let bytes ← reassemble? texts
    return UInt8.ofNat (word / 256).toNat :: UInt8.ofNat (word % 256).toNat :: bytes

/-- Two bytes can be read off the word that they make. -/
theorem bytes_of_word (high low : UInt8) :
    UInt8.ofNat (((high.toNat * 256 + low.toNat : Nat) : Int) % 65536 / 256).toNat = high ∧
      UInt8.ofNat (((high.toNat * 256 + low.toNat : Nat) : Int) % 65536 % 256).toNat = low := by
  have hhigh := high.toNat_lt
  have hlow := low.toNat_lt
  constructor <;> apply UInt8.toNat_inj.mp <;> rw [UInt8.toNat_ofNat'] <;> omega

/-- **A program is restored from the texts of its listing**, but for a trailing odd byte. -/
theorem reassemble?_ofProgram (origin : Int) (program : List UInt8)
    (h : ∀ l ∈ ofProgram origin program, l.text ≠ unknownMnemonic) :
    reassemble? ((ofProgram origin program).map text) =
      some (program.take (program.length / 2 * 2)) := by
  induction origin, program using ofProgram.induct with
  | case1 origin high low rest ih =>
    obtain ⟨hhead, hrest⟩ := List.forall_mem_cons.mp h
    obtain ⟨hhigh, hlow⟩ := bytes_of_word high low
    have hlength : (high :: low :: rest).length / 2 * 2 = rest.length / 2 * 2 + 1 + 1 := by
      simp only [List.length_cons]
      omega
    rw [hlength, List.take_succ_cons, List.take_succ_cons]
    simp only [ofProgram, List.map_cons, reassemble?]
    rw [wordOfText?_mnemonic hhead, ih hrest]
    simp only [Option.bind_eq_bind, Option.bind_some, hhigh, hlow]
    rfl
  | case2 program origin hshort =>
    have hlisting : ofProgram origin program = [] := ofProgram.eq_2 origin program hshort
    rw [hlisting, half_length_of_nil hlisting, Nat.zero_mul, List.take_zero]
    rfl

/-- **Listing loses no information.**

* There is an assembler for words: it undoes the text of any word that has one, up to the part of an
  integer that a word has no digits for.
* So two words of the same text, if that is not the unknown one, are the same.
* Two programs of any lengths with the same addresses and texts in their listings, none of them
  unknown, agree in all bytes but for a trailing odd one. -/
theorem listing_determines_program :
    (∀ w, mnemonic w ≠ unknownMnemonic → wordOfText? (mnemonic w) = some (w % 65536)) ∧
    (∀ w w', mnemonic w ≠ unknownMnemonic → mnemonic w = mnemonic w' → w % 65536 = w' % 65536) ∧
    ∀ (origin : Int) (program other : List UInt8),
      (ofProgram origin program).map (fun l => (l.address, l.text)) =
          (ofProgram origin other).map (fun l => (l.address, l.text)) →
        (∀ l ∈ ofProgram origin program, l.text ≠ unknownMnemonic) →
        program.take (program.length / 2 * 2) = other.take (other.length / 2 * 2) := by
  refine ⟨fun w => wordOfText?_mnemonic, ?_, ?_⟩
  · intro w w' hknown hsame
    have hword := wordOfText?_mnemonic hknown
    rw [hsame, wordOfText?_mnemonic (hsame ▸ hknown)] at hword
    exact (Option.some.inj hword).symm
  · intro origin program other hsame hknown
    have htexts : (ofProgram origin program).map text = (ofProgram origin other).map text := by
      simpa [Function.comp_def] using congrArg (List.map Prod.snd) hsame
    have hother : ∀ l ∈ ofProgram origin other, l.text ≠ unknownMnemonic := by
      intro l hl
      obtain ⟨l', hl', htext⟩ := List.mem_map.mp (htexts ▸ List.mem_map_of_mem (f := text) hl)
      exact htext ▸ hknown l' hl'
    have hbytes := reassemble?_ofProgram origin program hknown
    rw [htexts, reassemble?_ofProgram origin other hother] at hbytes
    exact (Option.some.inj hbytes).symm

/-- A program that draws, and the same with a trailing odd byte: the text is the same, and gives back
the word.  A longer integer with the same text has the same digits. -/
theorem listing_determines_program_of_trailing_byte :
    mnemonic 0xD12F = "DRW V1, V2, 15" ∧ wordOfText? "DRW V1, V2, 15" = some 0xD12F ∧
    (0xD12F : Int) % 65536 = 0x7D12F % 65536 ∧
    (ofProgram 0x200 [0xD1, 0x2F, 0x8A]).map (fun l => (l.address, l.text)) =
      [(0x200, "DRW V1, V2, 15")] ∧
    [0xD1, 0x2F, (0x8A : UInt8)].take 2 = [0xD1, 0x2F].take 2 := by
  obtain ⟨hassemble, hdigits, hprograms⟩ := listing_determines_program
  have htext : mnemonic 0xD12F = "DRW V1, V2, 15" := by decide +kernel
  have hsame : mnemonic 0xD12F = mnemonic 0x7D12F := by decide +kernel
  have hknown : mnemonic 0xD12F ≠ unknownMnemonic := by
    rw [htext]
    decide
  have hword := hassemble 0xD12F hknown
  rw [htext] at hword
  have hlisting : ofProgram 0x200 [0xD1, 0x2F, 0x8A] = [⟨0x200, 0xD12F, mnemonic 0xD12F⟩] := rfl
  have hother : ofProgram 0x200 [0xD1, 0x2F] = [⟨0x200, 0xD12F, mnemonic 0xD12F⟩] := rfl
  refine ⟨htext, hword, hdigits 0xD12F 0x7D12F hknown hsame, ?_, ?_⟩
  · rw [hlisting, htext]
    rfl
  · exact hprograms 0x200 [0xD1, 0x2F, 0x8A] [0xD1, 0x2F] (by rw [hlisting, hother])
      (by simpa [hlisting] using hknown)

end Listing

end ChipEight
