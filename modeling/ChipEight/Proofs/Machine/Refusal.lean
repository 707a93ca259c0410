import ChipEight.Proofs.Instruction.Pattern
import ChipEight.Proofs.Machine.Bounds
import ChipEight.Machine.Execution

/-!
# When an instruction is refused

Execution checks first and changes afterwards.  `Instruction.refusal` is the check alone: the fault
that an instruction meets in a state, if it meets one, with no state afterwards.

Within the bounds of the machine the two fit together.  `exec_of_refusal` says that a refused
instruction stops with that very fault and leaves the machine as it was, and `exec_of_accepted`
that every other instruction of a word completes.  In particular no cell is ever missed: the stack
pointer, the counter, the timers and the pending key all fit where they are put.

`runWord_atomic_and_exact` puts the check together with the table of patterns and says for each kind
of fault which words meet it in which states.
-/

namespace ChipEight

namespace Instruction

/-- The fault that an instruction meets, if it meets one. -/
def refusal (m : Machine) : Instruction Register → Option Fault
  | ret => if m.stackPointer = 0 then some (.flow .emptyStack) else none
  | call a =>
    if 16 ≤ m.stackPointer then some (.flow .stackOverflow)
    else if Machine.InProgramMemory a 1 then none
    else some (.flow (.target a 1))
  | jumpPlus a =>
    if 0xFFFF < a + m.value offsetRegister then some (.flow .beyondWord)
    else if Machine.InProgramMemory (a + m.value offsetRegister) 2 then none
    else some (.flow (.target (a + m.value offsetRegister) 2))
  | draw _ _ height => if memorySize < m.index + height then some (.memory .sprite) else none
  | skipIfKey x | skipUnlessKey x =>
    if 15 < m.value x then some (.input (.key (m.value x))) else none
  | loadGlyph x => if 15 < m.value x then some (.input (.digit (m.value x))) else none
  | storeDecimal _ =>
    if Machine.InProgramMemory m.index 3 then none else some (.memory (.range m.index 3))
  | saveRegisters x =>
    if Machine.InProgramMemory m.index (x.val + 1 : Nat) then none
    else some (.memory (.range m.index (x.val + 1 : Nat)))
  | restoreRegisters x =>
    if Machine.InProgramMemory m.index x.val then none
    else some (.memory (.range m.index x.val))
  | _ => none

end Instruction

namespace Machine

open Outcome

variable {m : Machine}

/-- A return pops the topmost entry and goes there. -/
theorem ret_of_pos {k : Nat} (hsp : m.stackPointer = (k + 1 : Nat)) (hk : k < 16) :
    m.ret = done { m with stackPointer := k, counter := m.stack[k].toNat } := by
  have hpop : m.stackPointer - 1 = k := by omega
  unfold ret
  rw [if_neg (by omega)]
  simp only [hpop, Cells.read?_of_lt m.stack hk, attemptCell_ok]

/-- A call pushes the counter and goes to its target. -/
theorem call_of_lt {k : Nat} {a : Int} (hsp : m.stackPointer = k) (hk : k < 16)
    (hcounter : 0 ≤ m.counter ∧ m.counter < 65536) (ha : InProgramMemory a 1) :
    m.call a = done { m with
      stack := m.stack.set k (UInt16.ofNat m.counter.toNat)
      stackPointer := (k + 1 : Nat)
      counter := a } := by
  unfold call
  rw [if_neg (by omega), if_neg (not_not_intro ha), hsp, Cells.index?_of_lt hk, attemptCell_ok,
    Cells.pair?, if_pos hcounter, attemptCell_ok]
  rfl

/-- A register up to fifteen names a key. -/
theorem key?_of_le {x : Register} (h : m.value x ≤ 15) : ∃ down, m.key? x = .ok down := by
  have hlt : (m.register x).toNat < 16 := by
    simp only [value] at h
    omega
  refine ⟨m.keys[(m.register x).toNat], ?_⟩
  rw [key?, Vector.getElem?_eq_getElem hlt]

theorem key?_of_gt {x : Register} (h : 15 < m.value x) :
    m.key? x = .error (.input (.key (m.value x))) := by
  have hge : 16 ≤ (m.register x).toNat := by
    simp only [value] at h
    omega
  rw [key?, Vector.getElem?_eq_none hge]

end Machine

namespace Instruction

open Outcome Machine

variable {m : Machine} {i : Instruction Register}

/-- **A refused instruction changes nothing.**  It stops with the fault of its check, and the
machine is as it was. -/
theorem exec_of_refusal (byte : UInt8) {fault : Fault} (h : i.refusal m = some fault) :
    i.exec byte m = stopped m fault := by
  cases i with
  | ret =>
    simp only [refusal] at h
    split at h <;> cases h
    exact if_pos ‹_›
  | call a =>
    simp only [refusal] at h
    split at h
    · cases h
      exact if_pos (by omega)
    split at h <;> cases h
    simp only [exec, Machine.call]
    rw [if_neg (by omega), if_pos ‹_›]
  | jumpPlus a =>
    simp only [refusal] at h
    simp only [exec, Machine.jumpPlus]
    split at h
    · cases h
      exact if_pos ‹_›
    split at h <;> cases h
    rw [if_neg ‹_›, if_pos ‹_›]
  | draw x y height =>
    simp only [refusal] at h
    split at h <;> cases h
    exact if_pos ‹_›
  | skipIfKey x | skipUnlessKey x | loadGlyph x =>
    simp only [refusal] at h
    split at h <;> cases h
    simp only [exec, key?_of_gt ‹_›, glyphAddress, if_pos ‹15 < m.value x›]
    rfl
  | storeDecimal x | saveRegisters x | restoreRegisters x =>
    simp only [refusal] at h
    split at h <;> cases h
    exact if_pos ‹_›
  | _ => cases h

/-- What completes was accepted. -/
theorem refusal_of_done {byte : UInt8} {after : Machine} (h : i.exec byte m = done after) :
    i.refusal m = none := by
  cases hrefusal : i.refusal m with
  | none => rfl
  | some fault =>
    rw [exec_of_refusal byte hrefusal] at h
    cases h

/-- A number of eight bits fits into a cell. -/
private theorem exists_byte? {v : Int} (h : 0 ≤ v ∧ v ≤ 255) : ∃ b, Cells.byte? v = .ok b :=
  ⟨_, if_pos (by omega)⟩

/-- **An accepted instruction completes.**  Within the bounds an instruction of a word that passes
its check has a state afterwards: every cell that it reaches is there, and every number that it
puts into one fits. -/
theorem exec_of_accepted (byte : UInt8) (hm : m.Bounded) {f : Fields} (hi : i.Matches f)
    (h : i.refusal m = none) : ∃ after, i.exec byte m = done after := by
  cases i with
  | ret =>
    simp only [refusal, ite_eq_right_iff, reduceCtorEq, imp_false] at h
    obtain ⟨k, hk, hlt⟩ := hm.top_of_ne_zero h
    exact ⟨_, ret_of_pos hk hlt⟩
  | call a =>
    simp only [refusal] at h
    split at h
    · cases h
    split at h
    · have hcounter := hm.counter
      obtain ⟨k, hk, hlt⟩ := hm.free_of_not_full ‹_›
      exact ⟨_, call_of_lt hk hlt (by omega) ‹_›⟩
    · cases h
  | jumpPlus a =>
    simp only [refusal] at h
    split at h
    · cases h
    split at h
    · refine ⟨{ m with counter := a + m.value offsetRegister }, ?_⟩
      simp only [exec, Machine.jumpPlus]
      rw [if_neg ‹_›, if_neg (not_not_intro ‹_›)]
    · cases h
  | draw x y height =>
    simp only [refusal] at h
    split at h <;> cases h
    exact ⟨_, if_neg ‹_›⟩
  | skipIfKey x | skipUnlessKey x =>
    simp only [refusal] at h
    split at h <;> cases h
    obtain ⟨down, hdown⟩ := m.key?_of_le (x := x) (by omega)
    simp only [exec, hdown]
    exact ⟨_, rfl⟩
  | loadGlyph x =>
    simp only [refusal] at h
    split at h <;> cases h
    simp only [exec, glyphAddress, if_neg ‹_›]
    exact ⟨_, rfl⟩
  | storeDecimal x | saveRegisters x | restoreRegisters x =>
    simp only [refusal] at h
    split at h <;> cases h
    exact ⟨_, if_neg (not_not_intro ‹_›)⟩
  | loadByte x b =>
    obtain ⟨-, -, rfl⟩ := hi
    have hb := f.byte_lt
    obtain ⟨b, hfit⟩ := exists_byte? (v := f.byte) (by omega)
    simp only [exec, hfit, attemptCell_ok]
    exact ⟨_, rfl⟩
  | readDelay x =>
    obtain ⟨b, hfit⟩ := exists_byte? hm.delayTimer
    simp only [exec, hfit, attemptCell_ok]
    exact ⟨_, rfl⟩
  | waitKey x =>
    simp only [exec, Machine.waitKey]
    cases hkey : m.pendingKey with
    | none => exact ⟨_, rfl⟩
    | some key =>
      have hbounds := hm.pendingKey key hkey
      obtain ⟨b, hfit⟩ := exists_byte? (v := key) (by omega)
      simp only [hfit, attemptCell_ok]
      exact ⟨_, rfl⟩
  | _ => exact ⟨_, rfl⟩

/-- Within the bounds an instruction of a word ends as its check says. -/
theorem fault?_exec (byte : UInt8) (hm : m.Bounded) {f : Fields} (hi : i.Matches f) :
    (i.exec byte m).fault? = i.refusal m := by
  cases h : i.refusal m with
  | some fault => rw [exec_of_refusal byte h, Outcome.fault?]
  | none =>
    obtain ⟨after, hafter⟩ := exec_of_accepted byte hm hi h
    rw [hafter, Outcome.fault?]

/-- An instruction that draws a random byte is never refused. -/
theorem drawsRandom_of_refusal {fault : Fault} (h : i.refusal m = some fault) :
    i.drawsRandom = false := by
  cases i <;> first | rfl | cases h

end Instruction

namespace Machine

open Outcome Instruction

/-- The words and states in which the flow of control is refused: a return from nowhere, a call
beyond sixteen levels or to no place for an instruction, and an indexed jump to such a place or to
the last one. -/
def FlowRefused (f : Fields) (m : Machine) : Prop :=
  (f.op.val = 0x0 ∧ f.address = 0x0EE ∧ m.stackPointer = 0) ∨
  (f.op.val = 0x2 ∧ (m.stackPointer = 16 ∨ f.address < 0x200 ∨ f.address = 0xFFF)) ∨
  (f.op.val = 0xB ∧ (f.address + m.value offsetRegister < 0x200 ∨
    0xFFD < f.address + m.value offsetRegister))

/-- The words and states in which an access to memory is refused: a sprite that ends beyond memory,
and a row of bytes that does not lie in program memory, with room for one byte more than is written
but for none more than is read. -/
def MemoryRefused (f : Fields) (m : Machine) : Prop :=
  (f.op.val = 0xD ∧ 4096 < m.index + f.n.val) ∨
  (f.op.val = 0xF ∧ f.byte = 0x33 ∧ (m.index < 0x200 ∨ 0xFFC < m.index)) ∨
  (f.op.val = 0xF ∧ f.byte = 0x55 ∧ (m.index < 0x200 ∨ 4094 < m.index + f.x.val)) ∨
  (f.op.val = 0xF ∧ f.byte = 0x65 ∧ (m.index < 0x200 ∨ 4095 < m.index + f.x.val))

/-- The words and states in which a register names no key or no digit. -/
def InputRefused (f : Fields) (m : Machine) : Prop :=
  ((f.op.val = 0xE ∧ f.byte ∈ [0x9E, 0xA1]) ∨ (f.op.val = 0xF ∧ f.byte = 0x29)) ∧ 15 < m.value f.x

instance (f : Fields) (m : Machine) : Decidable (FlowRefused f m) :=
  inferInstanceAs (Decidable (_ ∨ _))

instance (f : Fields) (m : Machine) : Decidable (MemoryRefused f m) :=
  inferInstanceAs (Decidable (_ ∨ _))

instance (f : Fields) (m : Machine) : Decidable (InputRefused f m) :=
  inferInstanceAs (Decidable (_ ∧ _))

variable {m : Machine} {f : Fields} {i : Instruction Register}

/-- What it means for an address, with the bytes that must follow it, to be program memory. -/
theorem inProgramMemory_iff {address length : Int} :
    InProgramMemory address length ↔ 0x200 ≤ address ∧ address + length < 4096 :=
  Iff.rfl

/-- The flow of control is refused by returns, calls and indexed jumps. -/
theorem refusal_flow_iff (hm : m.Bounded) (hi : i.Matches f) :
    (∃ cause, i.refusal m = some (.flow cause)) ↔ FlowRefused f m := by
  have hsp := hm.stackPointer
  cases i with
  | ret =>
    obtain ⟨hop, haddress⟩ := hi
    simp [refusal, FlowRefused, hop, haddress]
  | call a =>
    obtain ⟨hop, rfl⟩ := hi
    have haddress := f.address_lt
    simp only [refusal, FlowRefused, hop]
    split
    · simp
      omega
    split <;> simp_all [inProgramMemory_iff] <;> omega
  | jumpPlus a =>
    obtain ⟨hop, rfl⟩ := hi
    simp only [refusal, FlowRefused, hop]
    split
    · simp
      omega
    split <;> simp_all [inProgramMemory_iff] <;> omega
  | _ => simp_all [Matches, refusal, FlowRefused]

/-- Access to memory is refused by drawing, by storing digits, and by saving and restoring
registers. -/
theorem refusal_memory_iff (hi : i.Matches f) :
    (∃ cause, i.refusal m = some (.memory cause)) ↔ MemoryRefused f m := by
  cases i with
  | draw x y height =>
    obtain ⟨hop, -, -, rfl⟩ := hi
    simp only [refusal, MemoryRefused, hop]
    split <;> simp_all [memorySize]
  | call a | jumpPlus a =>
    -- Both are refused, but never for their access to memory.
    obtain ⟨hop, rfl⟩ := hi
    simp only [refusal, MemoryRefused, hop]
    split
    · simp
    split <;> simp
  | storeDecimal x | saveRegisters x | restoreRegisters x =>
    obtain ⟨hop, hbyte, rfl⟩ := hi
    simp only [refusal, MemoryRefused, hop, hbyte]
    split <;> simp_all [inProgramMemory_iff] <;> omega
  | _ => simp_all [Matches, refusal, MemoryRefused]

/-- An input is refused by the operations on keys and by the address of a glyph. -/
theorem refusal_input_iff (hi : i.Matches f) :
    (∃ cause, i.refusal m = some (.input cause)) ↔ InputRefused f m := by
  cases i with
  | skipIfKey x | skipUnlessKey x | loadGlyph x =>
    obtain ⟨hop, hbyte, rfl⟩ := hi
    simp [refusal, InputRefused, hop, hbyte]
  | call a | jumpPlus a =>
    obtain ⟨hop, rfl⟩ := hi
    simp only [refusal, InputRefused, hop]
    split
    · simp
    split <;> simp
  | _ => simp_all [Matches, refusal, InputRefused]

/-- A refusal is of one of the three kinds that have causes of their own. -/
theorem refusal_kind {fault : Fault} (h : i.refusal m = some fault) :
    (∃ cause, fault = .flow cause) ∨ (∃ cause, fault = .memory cause) ∨
      ∃ cause, fault = .input cause := by
  cases i <;> grind [refusal]

/-- Digits without a row are listed for none of the three kinds. -/
theorem not_refused_of_unassigned (h : f.Unassigned) :
    ¬FlowRefused f m ∧ ¬MemoryRefused f m ∧ ¬InputRefused f m := by
  simp only [Fields.Unassigned, FlowRefused, MemoryRefused, InputRefused] at *
  rcases h with ⟨hop | hop, -⟩ | ⟨hop, -⟩ | ⟨hop, hbyte⟩ | ⟨hop, hbyte⟩ <;> simp_all

/-- The digits of a word that names an instruction fit its row. -/
theorem matches_of_ofWord? {w : Int} (h : ofWord? w = some i) : i.Matches (Fields.ofInt w) :=
  matches_of_ofFields? h

/-- A word that names an instruction is run as that instruction. -/
theorem runWord_of_some {w : Int} (h : ofWord? w = some i) (source : RandomSource) :
    m.runWord w source = i.run source m := by
  rw [runWord, h]

/-- A word that names none is refused, with the word, the counter and the registers. -/
theorem runWord_of_none {w : Int} (h : ofWord? w = none) (source : RandomSource) :
    m.runWord w source = (stopped m (.unknownOpcode w m.counter m.registerValues), source) := by
  rw [runWord, h]

/-- A word that names an accepted instruction is executed to its end. -/
theorem runWord_of_accepted (hm : m.Bounded) {w : Int} (hw : ofWord? w = some i)
    (h : i.refusal m = none) (source : RandomSource) :
    ∃ after, i.exec source.next m = done after ∧
      m.runWord w source = (done after, if i.drawsRandom then source.advance else source) := by
  obtain ⟨after, hafter⟩ := exec_of_accepted source.next hm (matches_of_ofWord? hw) h
  refine ⟨after, hafter, ?_⟩
  rw [runWord_of_some hw, Instruction.run, hafter]

/-- A word that names a refused instruction changes nothing. -/
theorem runWord_of_refused {w : Int} (hw : ofWord? w = some i) {fault : Fault}
    (h : i.refusal m = some fault) (source : RandomSource) :
    m.runWord w source = (stopped m fault, source) := by
  rw [runWord_of_some hw, Instruction.run, exec_of_refusal source.next h, drawsRandom_of_refusal h]
  rfl

/-- Within the bounds a word is executed to its end, or nothing has changed. -/
theorem runWord_atomic (hm : m.Bounded) (w : Int) (source : RandomSource) :
    (∃ after, (m.runWord w source).1 = done after) ∨
      ∃ fault, m.runWord w source = (stopped m fault, source) := by
  cases hw : ofWord? w with
  | none => exact .inr ⟨_, runWord_of_none hw source⟩
  | some i =>
    cases hrefusal : i.refusal m with
    | none =>
      obtain ⟨after, -, hrun⟩ := runWord_of_accepted hm hw hrefusal source
      exact .inl ⟨after, by rw [hrun]⟩
    | some fault => exact .inr ⟨fault, runWord_of_refused hw hrefusal source⟩

/-- **Instructions are atomic, and their faults are exact.**  Within the bounds of the machine a
word is either executed to its end, or refused with nothing changed: neither the machine nor the
source of random bytes.  Each kind of fault comes up for exactly the listed words and states, and
no word misses a cell. -/
theorem runWord_atomic_and_exact (hm : m.Bounded) (w : Int) (source : RandomSource) :
    ((∃ after, (m.runWord w source).1 = done after) ∨
      ∃ fault, m.runWord w source = (stopped m fault, source)) ∧
    ((∃ cause, (m.runWord w source).1.fault? = some (.flow cause)) ↔
      FlowRefused (Fields.ofInt w) m) ∧
    ((∃ cause, (m.runWord w source).1.fault? = some (.memory cause)) ↔
      MemoryRefused (Fields.ofInt w) m) ∧
    ((∃ cause, (m.runWord w source).1.fault? = some (.input cause)) ↔
      InputRefused (Fields.ofInt w) m) ∧
    ((∃ word counter registers,
        (m.runWord w source).1.fault? = some (.unknownOpcode word counter registers)) ↔
      (Fields.ofInt w).Unassigned) ∧
    ∀ cause, (m.runWord w source).1.fault? ≠ some (.cell cause) := by
  refine ⟨runWord_atomic hm w source, ?_⟩
  cases hw : ofWord? w with
  | none =>
    have hnone : (Fields.ofInt w).Unassigned := ofFields?_eq_none_iff.mp hw
    obtain ⟨hflow, hmemory, hinput⟩ := not_refused_of_unassigned (m := m) hnone
    rw [runWord_of_none hw]
    refine ⟨?_, ?_, ?_, ?_, ?_⟩
    · exact iff_of_false (fun ⟨_, h⟩ => by cases h) hflow
    · exact iff_of_false (fun ⟨_, h⟩ => by cases h) hmemory
    · exact iff_of_false (fun ⟨_, h⟩ => by cases h) hinput
    · exact iff_of_true ⟨_, _, _, rfl⟩ hnone
    · intro cause h
      cases h
  | some i =>
    have hi := matches_of_ofWord? hw
    have hassigned : ¬(Fields.ofInt w).Unassigned := by
      rw [← ofFields?_eq_none_iff, ofFields?_of_matches hi]
      exact fun h => by cases h
    rw [runWord_of_some hw, Instruction.run]
    simp only [fault?_exec source.next hm hi]
    refine ⟨refusal_flow_iff hm hi, refusal_memory_iff hi, refusal_input_iff hi, ?_, ?_⟩
    · refine iff_of_false ?_ hassigned
      rintro ⟨_, _, _, h⟩
      obtain ⟨_, h⟩ | ⟨_, h⟩ | ⟨_, h⟩ := refusal_kind h <;> cases h
    · intro cause h
      obtain ⟨_, h⟩ | ⟨_, h⟩ | ⟨_, h⟩ := refusal_kind h <;> cases h

/-- Sixteen registers cannot be saved in the last sixteen bytes of memory, though they can be
restored from there. -/
theorem runWord_at_end_of_memory :
    Bounded { index := 0xFF0, counter := 0x202 } ∧
    (∃ cause, (runWord 0xFF55 (.cycle #[]) { index := 0xFF0, counter := 0x202 }).1.fault? =
      some (.memory cause)) ∧
    ¬∃ cause, (runWord 0xFF65 (.cycle #[]) { index := 0xFF0, counter := 0x202 }).1.fault? =
      some (.memory cause) := by
  have hm : Bounded { index := 0xFF0, counter := 0x202 } :=
    { bounded_new with
      index := by decide
      counter := by decide }
  refine ⟨hm, ?_, ?_⟩
  · exact (runWord_atomic_and_exact hm 0xFF55 _).2.2.1.mpr (by decide)
  · exact mt (runWord_atomic_and_exact hm 0xFF65 _).2.2.1.mp (by decide)

end Machine

end ChipEight
