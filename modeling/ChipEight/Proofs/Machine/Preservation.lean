import ChipEight.Proofs.Machine.Footprint
import ChipEight.Proofs.Machine.Refusal

/-!
# Execution keeps the bounds

A machine that has just fetched a word is within the bounds of `Machine.Bounded` again after it has
executed the word, whatever the word is and however it ends: `Fetched.runWord`.

The argument goes by what an instruction touches.  Most of them touch nothing that is bounded.  A
skip starts from a counter of at most `0x1000`, a call pushes that counter, a return takes an entry
of that size, and the wait for a key goes back to the word that was just read.
-/

namespace ChipEight

namespace Machine

namespace Bounded

variable {m n : Machine}

/-- The bounds concern six of the parts only. -/
theorem of_same (h : m.Bounded)
    (hsame : ∀ p : Part, p ∉ [.memory, .registers, .display, .keys] → p.Same m n) :
    n.Bounded := by
  obtain ⟨hstack, hsp⟩ : n.stack = m.stack ∧ n.stackPointer = m.stackPointer :=
    hsame .stack (by decide)
  have hdelay : n.delayTimer = m.delayTimer := hsame .delayTimer (by decide)
  have hsound : n.soundTimer = m.soundTimer := hsame .soundTimer (by decide)
  have hindex : n.index = m.index := hsame .index (by decide)
  have hcounter : n.counter = m.counter := hsame .counter (by decide)
  have hkey : n.waiting = m.waiting ∧ n.pendingKey = m.pendingKey := hsame .keyWait (by decide)
  constructor
  · exact hsp ▸ h.stackPointer
  · exact hdelay ▸ h.delayTimer
  · exact hsound ▸ h.soundTimer
  · exact hindex ▸ h.index
  · exact hcounter ▸ h.counter
  · exact hstack ▸ h.stack
  · exact hkey.2 ▸ h.pendingKey

/-- Another content of the address register, within its bounds. -/
theorem withIndex (h : m.Bounded) {a : Int} (ha : 0 ≤ a ∧ a ≤ 0xFFFF) :
    Bounded { m with index := a } :=
  { h with index := ha }

end Bounded

namespace Fetched

open Outcome

variable {m : Machine}

/-- Behind the word just read there is room for a skip. -/
theorem skipIf (h : m.Fetched) (condition : Bool) : (m.skipIf condition).Bounded := by
  have hbehind := h.behind
  cases condition
  · exact h.toBounded
  · refine h.withCounter ?_
    rw [wrap_of_lt (by omega) (by omega)]
    omega

/-- A return goes to an entry of the stack. -/
theorem ret (h : m.Fetched) : m.ret.machine.Bounded := by
  have hsp := h.stackPointer
  by_cases hzero : m.stackPointer = 0
  · rw [Machine.ret, if_pos hzero]
    exact h.toBounded
  · obtain ⟨k, hk, hlt⟩ := h.top_of_ne_zero hzero
    have hentry := h.stack ⟨k, hlt⟩
    rw [ret_of_pos hk hlt]
    exact { h.toBounded with
      stackPointer := by dsimp only [Outcome.machine]; omega
      counter := by dsimp only [Outcome.machine, Fin.getElem_fin] at hentry ⊢; omega }

/-- A call pushes the counter, which is small enough behind the word just read. -/
theorem call (h : m.Fetched) {a : Int} (ha : 0 ≤ a ∧ a < 4096) :
    (m.call a).machine.Bounded := by
  have hsp := h.stackPointer
  have hbehind := h.behind
  by_cases hfull : 16 < m.stackPointer + 1
  · rw [Machine.call, if_pos hfull]
    exact h.toBounded
  by_cases htarget : InProgramMemory a 1
  · obtain ⟨k, hk, hlt⟩ := h.free_of_not_full (by omega)
    rw [call_of_lt hk hlt (by omega) htarget]
    exact { h.toBounded with
      stackPointer := by dsimp only [Outcome.machine]; omega
      counter := by dsimp only [Outcome.machine]; omega
      stack := fun j => by
        have hold := h.stack j
        have hnew : (UInt16.ofNat m.counter.toNat).toNat = m.counter.toNat :=
          UInt16.toNat_ofNat_of_lt' (by simp only [UInt16.size]; omega)
        simp only [Outcome.machine, Fin.getElem_fin, Vector.getElem_set] at hold ⊢
        split <;> omega }
  · rw [Machine.call, if_neg hfull, if_pos htarget]
    exact h.toBounded

/-- The wait for a key goes back to the word just read, or takes the key and goes on. -/
theorem waitKey (h : m.Fetched) (x : Register) : (m.waitKey x).machine.Bounded := by
  have hbehind := h.behind
  unfold Machine.waitKey
  split
  next key hkey =>
    have hkeyBounds := h.pendingKey key hkey
    rw [Cells.byte?, if_pos (by omega), attemptCell_ok]
    exact { h.toBounded with pendingKey := fun _ hnone => by cases hnone }
  next =>
    have hback : wrap (m.counter - 2) = m.counter - 2 := wrap_of_lt (by omega) (by omega)
    exact { h.toBounded with
      counter := by dsimp only [Outcome.machine, awaitKey]; omega }

end Fetched

end Machine

namespace Instruction

open Outcome Machine

variable {m : Machine} {i : Instruction Register} {f : Fields}

/-- An instruction of a word keeps the bounds. -/
theorem exec_bounded (byte : UInt8) (hm : m.Fetched) (hi : i.Matches f) :
    (i.exec byte m).machine.Bounded := by
  have hbehind := hm.behind
  have hindex := hm.index
  cases i with
  | clear | system a | loadByte x b | addByte x b | alu op x y | random x b | draw x y height
    | readDelay x | storeDecimal x =>
    refine hm.toBounded.of_same fun p hp => exec_same byte ?_
    cases p <;> simp_all [touched]
  | skipIfByte x b | skipUnlessByte x b | skipIfEqual x y | skipUnlessEqual x y =>
    exact hm.skipIf _
  | skipIfKey x | skipUnlessKey x =>
    simp only [exec, attempt]
    split
    · exact hm.skipIf _
    · exact hm.toBounded
  | ret => exact hm.ret
  | call a =>
    obtain ⟨-, rfl⟩ := hi
    have haddress := f.address_lt
    exact hm.call (by omega)
  | jump a =>
    obtain ⟨-, rfl⟩ := hi
    have haddress := f.address_lt
    exact hm.withCounter (by omega)
  | jumpPlus a =>
    simp only [exec, Machine.jumpPlus]
    split
    · exact hm.toBounded
    split
    · exact hm.toBounded
    next htarget =>
      have htarget := inProgramMemory_iff.mp (Decidable.not_not.mp htarget)
      exact hm.withCounter (by omega)
  | loadIndex a => exact hm.withIndex (by omega)
  | addIndex x => exact hm.withIndex (by simp only [wrap]; omega)
  | loadGlyph x =>
    have hx := m.value_bounds x
    simp only [exec, glyphAddress]
    split
    · exact hm.toBounded
    · exact hm.withIndex (by simp only [glyphSize]; omega)
  | saveRegisters x | restoreRegisters x =>
    have hx := x.isLt
    simp only [exec, Machine.saveRegisters, Machine.restoreRegisters]
    split
    · exact hm.toBounded
    next hrange =>
      have hrange := inProgramMemory_iff.mp (Decidable.not_not.mp hrange)
      exact { hm.toBounded with index := by dsimp only [Outcome.machine]; omega }
  | waitKey x => exact hm.waitKey x
  | setDelay x => exact { hm.toBounded with delayTimer := m.value_bounds x }
  | setSound x => exact { hm.toBounded with soundTimer := m.value_bounds x }

end Instruction

namespace Machine

/-- **Execution keeps the bounds.**  A word that has just been fetched leaves the machine within
them, also where it is refused. -/
theorem Fetched.runWord {m : Machine} (h : m.Fetched) (w : Int) (source : RandomSource) :
    (m.runWord w source).1.machine.Bounded := by
  cases hw : Instruction.ofWord? w with
  | none =>
    rw [runWord_of_none hw]
    exact h.toBounded
  | some i =>
    rw [runWord_of_some hw]
    exact Instruction.exec_bounded source.next h (matches_of_ofWord? hw)

end Machine

end ChipEight
