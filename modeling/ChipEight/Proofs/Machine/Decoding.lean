import ChipEight.Proofs.Instruction.Mnemonic
import ChipEight.Proofs.Machine.Refusal

/-!
# Words without an instruction

Whether a word names an instruction shows in two places: in its assembly text, which is `???` if it
does not, and when it is executed, which then is refused with the word, the counter and the registers.
The two go by rows of their own, and agree because both follow the same table
(`mnemonic_eq_unknown_iff`).  What is left to show is that no instruction is refused for being unknown,
in whatever state (`exec_about`).  The words themselves are those of `Fields.Unassigned`.

Only the four digits of a word count.  So a negative word, or one that is too long for sixteen bits,
is written and executed as the word of sixteen bits with the same digits (`mnemonic_emod`,
`runWord_emod`), and only the report about an unknown one shows the difference: it names the word as
it was given.
-/

namespace ChipEight

/-- One of the lowest four digits is not changed by taking a word modulo 65536. -/
theorem nibble_emod (w : Int) {place : Nat} (h : place < 4) :
    nibble (w % 65536) place = nibble w place := by
  have hplace : Nat.pow 16 place ∈ [1, 16, 256, 4096] := by
    revert place
    decide
  have hword := nibble_val w place
  have hrest := nibble_val (w % 65536) place
  -- Division is linear once the power of sixteen is a numeral.
  generalize Nat.pow 16 place = power at hplace hword hrest
  simp only [List.mem_cons, List.not_mem_nil, or_false] at hplace
  apply Fin.ext
  obtain rfl | rfl | rfl | rfl := hplace <;> omega

/-- A word and what is left of it modulo 65536 have the same digits. -/
theorem Fields.ofInt_emod (w : Int) : ofInt (w % 65536) = ofInt w := by
  simp only [ofInt, nibble_emod w (show 0 < 4 by decide), nibble_emod w (show 1 < 4 by decide),
    nibble_emod w (show 2 < 4 by decide), nibble_emod w (show 3 < 4 by decide)]

namespace Instruction

/-- So they name the same instruction. -/
theorem ofWord?_emod (w : Int) : ofWord? (w % 65536) = ofWord? w := by
  rw [ofWord?, ofWord?, Fields.ofInt_emod]

end Instruction

open Instruction

/-- A word and what is left of it modulo 65536 have the same text. -/
theorem mnemonic_emod (w : Int) : mnemonic (w % 65536) = mnemonic w := by
  rw [mnemonic, mnemonic, Fields.ofInt_emod]

/-- The fault as a report about another word. -/
def Fault.about (w : Int) : Fault → Fault
  | unknownOpcode _ counter registers => unknownOpcode w counter registers
  | flow cause => flow cause
  | memory cause => memory cause
  | input cause => input cause
  | cell cause => cell cause

/-- The outcome with its fault, if there is one, as a report about another word. -/
def Outcome.about (w : Int) : Outcome → Outcome
  | done m => done m
  | stopped m f => stopped m (f.about w)

namespace Machine

open Outcome

variable {m : Machine} {i : Instruction Register} {f : Fields}

/-- **No instruction is refused for being unknown.** -/
theorem exec_about (byte : UInt8) (hm : m.Bounded) (hi : i.Matches f) (w : Int) :
    (i.exec byte m).about w = i.exec byte m := by
  have hfault := fault?_exec byte hm hi
  cases hexec : i.exec byte m with
  | done after => rfl
  | stopped after fault =>
    rw [hexec, Outcome.fault?] at hfault
    obtain ⟨_, rfl⟩ | ⟨_, rfl⟩ | ⟨_, rfl⟩ := refusal_kind hfault.symm <;> rfl

/-- A word and what is left of it modulo 65536 are executed alike. -/
theorem runWord_emod (hm : m.Bounded) (w : Int) (source : RandomSource) :
    m.runWord w source =
      ((m.runWord (w % 65536) source).1.about w, (m.runWord (w % 65536) source).2) := by
  have hsame := ofWord?_emod w
  cases hw : ofWord? w with
  | none =>
    rw [runWord_of_none hw, runWord_of_none (hsame.trans hw)]
    rfl
  | some i =>
    rw [runWord_of_some hw, runWord_of_some (hsame.trans hw), Instruction.run]
    dsimp only
    rw [exec_about source.next hm (matches_of_ofWord? hw)]

/-- **Execution and assembly text agree about the words that name no instruction.**  Within the
bounds of the machine, and for any integer as a word:

* it is refused as unknown exactly if its text is `???`, and these are the words of the digits that
  no instruction has;
* then the machine and the source of random bytes are as before, and the fault reports the word as
  it was given, the program counter and the registers;
* what is left of it modulo 65536 has the same outcome and the same text, but for the word that a
  fault reports. -/
theorem runWord_agrees_with_mnemonic (hm : m.Bounded) (w : Int) (source : RandomSource) :
    ((∃ word counter registers,
        (m.runWord w source).1.fault? = some (.unknownOpcode word counter registers)) ↔
      mnemonic w = unknownMnemonic) ∧
    (mnemonic w = unknownMnemonic ↔ (Fields.ofInt w).Unassigned) ∧
    (mnemonic w = unknownMnemonic →
      m.runWord w source = (stopped m (.unknownOpcode w m.counter m.registerValues), source)) ∧
    m.runWord w source =
      ((m.runWord (w % 65536) source).1.about w, (m.runWord (w % 65536) source).2) ∧
    mnemonic w = mnemonic (w % 65536) := by
  have hunknown := mnemonic_eq_unknown_iff (w := w)
  refine ⟨?_, hunknown.trans ofFields?_eq_none_iff, fun h => runWord_of_none (hunknown.mp h) source,
    runWord_emod hm w source, (mnemonic_emod w).symm⟩
  rw [hunknown]
  constructor
  · rintro ⟨word, counter, registers, hfault⟩
    cases hw : ofWord? w with
    | none => rfl
    | some i =>
      rw [runWord_of_some hw, Instruction.run] at hfault
      rw [fault?_exec source.next hm (matches_of_ofWord? hw)] at hfault
      obtain ⟨_, h⟩ | ⟨_, h⟩ | ⟨_, h⟩ := refusal_kind hfault <;> cases h
  · intro hnone
    rw [runWord_of_none hnone]
    exact ⟨_, _, _, rfl⟩

/-- The word `-1` has the digits `FFFF`, which name nothing, and is reported as `-1`. -/
theorem runWord_agrees_with_mnemonic_of_negative :
    Bounded { counter := 0x202 } ∧ mnemonic 0xFFFF = "???" ∧
    (runWord (-1) (.cycle #[]) { counter := 0x202 }).1.fault? =
      some (.unknownOpcode (-1) 0x202 (List.replicate 16 0)) ∧
    mnemonic (-1) = mnemonic 0xFFFF := by
  have hm : Bounded { counter := 0x202 } := { bounded_new with counter := by decide }
  obtain ⟨-, -, hreport, -, hsame⟩ := runWord_agrees_with_mnemonic hm (-1) (.cycle #[])
  have htext : mnemonic 0xFFFF = "???" := by decide
  refine ⟨hm, htext, ?_, hsame⟩
  rw [hreport (hsame.trans htext)]
  decide

end Machine

end ChipEight
