import Mathlib.Tactic.ByContra
import ChipEight.Proofs.Machine.Store

/-!
# What a word can change

`Instruction.touched` lists the parts of the machine that an instruction may change.  Here the same is
said of words: `Part.Rows` gives for each part the words that may change it, by their digits.  For three
of the parts that is not yet the whole truth, and `Footprint` adds the rest.  Memory changes only where
the word stores something.  Registers change one by one, and `Fields.Writes` tells which of them a word
may change.  And a word that skips moves the program counter by two or leaves it.

`runWord_footprint` says that nothing else is ever changed, and that random bytes are drawn by one kind
of word only, which puts the byte under its mask into a register.
-/

namespace ChipEight

/-- Whether an operation on two registers writes its flag. -/
def Alu.flags : Alu → Bool
  | move | or | and | xor => false
  | add | sub | shiftRight | subFrom | shiftLeft => true

namespace Fields

/-- The words that may skip the next instruction. -/
def Skips (f : Fields) : Prop :=
  f.op.val ∈ [0x3, 0x4] ∨
  (f.op.val ∈ [0x5, 0x9] ∧ f.n.val = 0) ∨
  (f.op.val = 0xE ∧ f.byte ∈ [0x9E, 0xA1])

/-- The words that may change a register: their target, the flag, or a row of registers. -/
def Writes (f : Fields) (r : Register) : Prop :=
  (r = f.x ∧ (f.op.val ∈ [0x6, 0x7, 0xC] ∨
    (f.op.val = 0x8 ∧ f.n.val ∈ [0x0, 0x1, 0x2, 0x3, 0x4, 0x5, 0x6, 0x7, 0xE]) ∨
    (f.op.val = 0xF ∧ f.byte ∈ [0x07, 0x0A]))) ∨
  (r = flagRegister ∧
    ((f.op.val = 0x8 ∧ f.n.val ∈ [0x4, 0x5, 0x6, 0x7, 0xE]) ∨ f.op.val = 0xD)) ∨
  (r ≤ f.x ∧ f.op.val = 0xF ∧ f.byte = 0x65)

end Fields

/-- The words that may change a part of the machine. -/
def Part.Rows (f : Fields) : Part → Prop
  | memory => f.op.val = 0xF ∧ f.byte ∈ [0x33, 0x55]
  | registers => ∃ r, f.Writes r
  | index => f.op.val = 0xA ∨ (f.op.val = 0xF ∧ f.byte ∈ [0x1E, 0x29, 0x55, 0x65])
  | delayTimer => f.op.val = 0xF ∧ f.byte = 0x15
  | soundTimer => f.op.val = 0xF ∧ f.byte = 0x18
  | counter =>
    (f.op.val = 0x0 ∧ f.address = 0x0EE) ∨ f.op.val ∈ [0x1, 0x2, 0xB] ∨
    (f.op.val = 0xF ∧ f.byte = 0x0A) ∨ f.Skips
  | stack => f.op.val = 0x2 ∨ (f.op.val = 0x0 ∧ f.address = 0x0EE)
  | display => (f.op.val = 0x0 ∧ f.address = 0x0E0) ∨ f.op.val = 0xD
  | keys => False
  | keyWait => f.op.val = 0xF ∧ f.byte = 0x0A

namespace Instruction

/-- The registers that an instruction may change. -/
def Writes (r : Register) : Instruction Register → Prop
  | loadByte x _ | addByte x _ | random x _ | readDelay x | waitKey x => r = x
  | alu op x _ => r = x ∨ (op.flags = true ∧ r = flagRegister)
  | draw .. => r = flagRegister
  | restoreRegisters x => r ≤ x
  | _ => False

variable {f : Fields} {i : Instruction Register} {r : Register}

/-- The words of an instruction may change a register if the instruction may. -/
theorem writes_of_matches (hi : i.Matches f) (h : i.Writes r) : f.Writes r := by
  cases i with
  | alu op x y =>
    obtain ⟨hop, hdigit, rfl, -⟩ := hi
    cases op <;> simp_all [Writes, Fields.Writes, Alu.flags, Alu.digit]
  | _ => simp_all [Matches, Writes, Fields.Writes]

/-- The words of an instruction may change the parts that it touches. -/
theorem rows_of_touched {p : Part} (hi : i.Matches f) (h : p ∈ i.touched) : p.Rows f := by
  have hwrites (r : Register) (hr : i.Writes r) : Part.registers.Rows f :=
    ⟨r, writes_of_matches hi hr⟩
  cases i with
  | loadByte x | addByte x | random x | readDelay x | alu op x =>
    cases List.mem_singleton.mp h
    exact hwrites x (by simp [Writes])
  | draw x y height =>
    obtain rfl | rfl : p = .display ∨ p = .registers := by simpa [touched] using h
    · exact .inr hi.1
    · exact hwrites flagRegister rfl
  | waitKey x =>
    obtain rfl | rfl | rfl : p = .keyWait ∨ p = .counter ∨ p = .registers := by
      simpa [touched] using h
    · exact ⟨hi.1, hi.2.1⟩
    · exact .inr (.inr (.inl ⟨hi.1, hi.2.1⟩))
    · exact hwrites x rfl
  | restoreRegisters x =>
    obtain rfl | rfl : p = .registers ∨ p = .index := by simpa [touched] using h
    · exact hwrites x (Fin.le_refl x)
    · exact .inr ⟨hi.1, by simp [hi.2.1]⟩
  | _ => cases p <;> simp_all [touched, Matches, Part.Rows, Fields.Skips]

end Instruction

namespace Machine

variable {m : Machine} {x r : Register}

/-- Another register keeps its content. -/
theorem register_setRegister_of_ne (h : r ≠ x) (b : UInt8) (m : Machine) :
    (m.setRegister x b).register r = m.register r := by
  have hne : x.val ≠ r.val := fun heq => h (Fin.ext heq.symm)
  simp only [register, setRegister, Fin.getElem_fin, Vector.getElem_set_ne _ _ hne]

theorem register_setRegister_self (x : Register) (b : UInt8) (m : Machine) :
    (m.setRegister x b).register x = b := by
  simp only [register, setRegister, Fin.getElem_fin, Vector.getElem_set_self]

/-- The registers depend on their part of the machine only. -/
theorem register_of_same {n : Machine} (h : Part.registers.Same m n) (r : Register) :
    n.register r = m.register r := by
  have hregisters : n.registers = m.registers := h
  rw [register, register, hregisters]

/-- An operation on two registers changes its target, and the flag if it writes one. -/
theorem register_alu {op : Alu} (hx : r ≠ x) (hflag : ¬(op.flags = true ∧ r = flagRegister))
    (y : Register) (m : Machine) : (m.alu op x y).register r = m.register r := by
  cases op with
  | move | or | and | xor => exact register_setRegister_of_ne hx _ m
  | add | sub | shiftRight | subFrom | shiftLeft =>
    have hflag : r ≠ flagRegister := by simpa [Alu.flags] using hflag
    exact (register_setRegister_of_ne hflag _ _).trans (register_setRegister_of_ne hx _ m)

/-- A row of registers that is loaded from memory ends with its last register. -/
theorem register_restoreRegisters (h : x < r) (m : Machine) :
    (m.restoreRegisters x).machine.register r = m.register r := by
  unfold restoreRegisters
  split
  · rfl
  next hroom =>
    obtain ⟨hlow, hhigh⟩ := inProgramMemory_iff.mp (Decidable.not_not.mp hroom)
    obtain ⟨a, ha⟩ : ∃ a : Nat, m.index = a := ⟨m.index.toNat, by omega⟩
    have hend : m.index + x.val + 1 = (a + (x.val + 1) : Nat) := by omega
    have hlength : (Cells.slice m.memory m.index (m.index + x.val + 1)).length = x.val + 1 := by
      rw [hend, ha]
      exact Cells.length_slice m.memory a (x.val + 1) (by omega)
    have hr : x.val < r.val := h
    simp only [Outcome.machine, register, Fin.getElem_fin]
    exact Cells.getElem_write_of_ge _ m.registers 0 r.val r.isLt (by omega)

end Machine

namespace Instruction

open Outcome Machine

variable {m : Machine} {i : Instruction Register} {r : Register}

/-- **The registers that an instruction does not write** hold what they held. -/
theorem exec_register (byte : UInt8) (h : ¬i.Writes r) :
    (i.exec byte m).machine.register r = m.register r := by
  by_cases htouched : Part.registers ∈ i.touched
  case neg => exact register_of_same (exec_same byte htouched) r
  cases i with
  | loadByte x b =>
    simp only [exec]
    cases Cells.byte? b with
    | error f => rfl
    | ok b => exact register_setRegister_of_ne h b m
  | readDelay x =>
    simp only [exec]
    cases Cells.byte? m.delayTimer with
    | error f => rfl
    | ok b => exact register_setRegister_of_ne h b m
  | addByte x b | random x mask => exact register_setRegister_of_ne h _ m
  | alu op x y =>
    obtain ⟨hx, hflag⟩ := not_or.mp h
    exact register_alu hx hflag y m
  | draw x y height =>
    simp only [exec, drawSprite]
    split
    · rfl
    · exact register_setRegister_of_ne h _ _
  | waitKey x =>
    simp only [exec, Machine.waitKey]
    split
    next key _ =>
      cases Cells.byte? key with
      | error f => rfl
      | ok b => exact register_setRegister_of_ne h b _
    next => rfl
  | restoreRegisters x => exact register_restoreRegisters (Fin.not_le.mp h) m
  | _ => simp [touched] at htouched

/-- An instruction that skips moves the counter by two or leaves it. -/
theorem exec_counter_of_skips {f : Fields} (byte : UInt8) (hm : m.Bounded) (hi : i.Matches f)
    (h : f.Skips) :
    (i.exec byte m).machine.counter = m.counter ∨
      (i.exec byte m).machine.counter = m.counter + 2 := by
  have hcounter := hm.counter
  have hskip (condition : Bool) :
      (m.skipIf condition).counter = m.counter ∨ (m.skipIf condition).counter = m.counter + 2 := by
    cases condition
    · exact .inl rfl
    · exact .inr (wrap_of_lt (by omega) (by omega))
  cases i with
  | skipIfByte x b | skipUnlessByte x b | skipIfEqual x y | skipUnlessEqual x y => exact hskip _
  | skipIfKey x | skipUnlessKey x =>
    simp only [exec]
    cases m.key? x with
    | error f => exact .inl rfl
    | ok down => exact hskip _
  | _ => simp_all [Matches, Fields.Skips]

end Instruction

namespace Machine

open Outcome Instruction

/-- What a word may have changed in the machine. -/
structure Footprint (f : Fields) (m after : Machine) : Prop where
  parts : ∀ p : Part, ¬p.Same m after → p.Rows f
  memory : ∀ a : Nat, after.byteAt a ≠ m.byteAt a →
    m.index ≤ a ∧
      ((f.byte = 0x33 ∧ a < m.index + 3) ∨ (f.byte = 0x55 ∧ a < m.index + f.x.val + 1))
  registers : ∀ r, after.register r ≠ m.register r → f.Writes r
  counter : f.Skips → after.counter = m.counter ∨ after.counter = m.counter + 2

variable {m after : Machine} {f : Fields} {i : Instruction Register} {byte : UInt8}

/-- Nothing may always have changed. -/
theorem Footprint.refl (f : Fields) (m : Machine) : Footprint f m m where
  parts p h := (h (.refl m p)).elim
  memory _ h := (h rfl).elim
  registers _ h := (h rfl).elim
  counter _ := .inl rfl

/-- Memory changes only where an instruction stores something. -/
theorem byteAt_exec (hi : i.Matches f) (h : i.exec byte m = done after) {a : Nat}
    (hchange : after.byteAt a ≠ m.byteAt a) :
    m.index ≤ a ∧
      ((f.byte = 0x33 ∧ a < m.index + 3) ∨ (f.byte = 0x55 ∧ a < m.index + f.x.val + 1)) := by
  have hinside : m.index ≤ a ∧ a < m.index + (i.stored m).length := by
    by_contra houtside
    exact hchange (byteAt_of_done h houtside)
  cases i with
  | storeDecimal x =>
    have hlength : ((Instruction.storeDecimal x).stored m).length = 3 := rfl
    rw [hlength] at hinside
    exact ⟨by omega, .inl ⟨hi.2.1, by omega⟩⟩
  | saveRegisters x =>
    obtain ⟨-, hbyte, rfl⟩ := hi
    have hlength : ((Instruction.saveRegisters f.x).stored m).length ≤ f.x.val + 1 :=
      List.length_take_le ..
    exact ⟨by omega, .inr ⟨hbyte, by omega⟩⟩
  | _ =>
    simp only [stored, List.length_nil] at hinside
    omega

/-- An instruction that completes stays within the footprint of its words. -/
theorem footprint_of_done (hm : m.Bounded) (hi : i.Matches f) (h : i.exec byte m = done after) :
    Footprint f m after := by
  have hafter : (i.exec byte m).machine = after := by
    rw [h]
    rfl
  constructor
  · intro p hchange
    by_contra hrows
    have hsame := exec_same (m := m) byte (mt (rows_of_touched hi) hrows)
    rw [hafter] at hsame
    exact hchange hsame
  · intro a hchange
    exact byteAt_exec hi h hchange
  · intro r hchange
    by_contra hwrites
    have hsame := exec_register (m := m) byte (mt (writes_of_matches hi) hwrites)
    rw [hafter] at hsame
    exact hchange hsame
  · intro hskips
    have hcounter := exec_counter_of_skips byte hm hi hskips
    rw [hafter] at hcounter
    exact hcounter

/-- A random byte is drawn by the words of one operation. -/
theorem drawsRandom_iff (hi : i.Matches f) : i.drawsRandom = true ↔ f.op.val = 0xC := by
  cases i <;> simp_all [Matches, drawsRandom]

/-- **The footprint of a word.**  Within the bounds of the machine a word changes no part of it but those
to which its digits give it access, and of memory and the registers only the places that they name.  A
word that skips moves the counter by exactly two.  A word `Cxnn` draws one random byte, and leaves that
byte under the mask `nn` in its register; no other word draws any. -/
theorem runWord_footprint (hm : m.Bounded) (w : Int) (source : RandomSource) :
    let f := Fields.ofInt w
    let r := m.runWord w source
    Footprint f m r.1.machine ∧
    r.2 = (if f.op.val = 0xC then source.advance else source) ∧
    (f.op.val = 0xC → r.1.machine.value f.x = (source.next.toNat &&& f.byte : Nat)) := by
  intro f r
  cases hw : ofWord? w with
  | none =>
    have hunassigned : f.Unassigned := ofFields?_eq_none_iff.mp hw
    have hop : f.op.val ≠ 0xC := by
      intro hop
      simp [Fields.Unassigned, hop] at hunassigned
    have hr : r = _ := runWord_of_none hw source
    rw [hr, if_neg hop]
    exact ⟨.refl f m, rfl, fun h => absurd h hop⟩
  | some i =>
    have hi : i.Matches f := matches_of_ofWord? hw
    have hr : r = i.run source m := runWord_of_some hw source
    have hsource : r.2 = if f.op.val = 0xC then source.advance else source := by
      rw [hr]
      simp only [Instruction.run, drawsRandom_iff hi]
    refine ⟨?_, hsource, ?_⟩
    · obtain ⟨after, hdone⟩ | ⟨fault, hstopped⟩ := runWord_atomic hm w source
      · have hexec : i.exec source.next m = done after := by
          rw [← hdone]
          exact (congrArg Prod.fst hr).symm
        have hmachine : r.1.machine = after := congrArg Outcome.machine hdone
        rw [hmachine]
        exact footprint_of_done hm hi hexec
      · have hmachine : r.1.machine = m := congrArg (·.1.machine) hstopped
        rw [hmachine]
        exact .refl f m
    · intro hop
      obtain ⟨x, mask, rfl⟩ : ∃ x mask, i = .random x mask := by
        cases i <;> simp_all [Matches]
      obtain ⟨-, rfl, rfl⟩ := hi
      have hbyte := f.byte_lt
      have hmask : (UInt8.ofNat ((f.byte : Int) % 256).toNat).toNat = f.byte := by
        rw [UInt8.toNat_ofNat_of_lt' (by simp only [UInt8.size]; omega)]
        omega
      rw [hr]
      simp only [Instruction.run, exec, Outcome.machine, value, register_setRegister_self,
        UInt8.toNat_and, hmask]

/-- Saving four registers leaves the byte behind them alone, and a random byte comes under its mask. -/
theorem runWord_footprint_of_save :
    Bounded { index := 0x300, counter := 0x202 } ∧
    (runWord 0xF355 (.cycle #[]) { index := 0x300, counter := 0x202 }).1.machine.byteAt 0x304 =
      byteAt { index := 0x300, counter := 0x202 } 0x304 ∧
    (runWord 0xC5F0 (.cycle #[0xAB]) { index := 0x300, counter := 0x202 }).1.machine.value 5 =
      0xA0 := by
  have hm : Bounded { index := 0x300, counter := 0x202 } :=
    { bounded_new with
      index := by decide
      counter := by decide }
  obtain ⟨hsave, -⟩ := runWord_footprint hm 0xF355 (.cycle #[])
  obtain ⟨-, -, hrandom⟩ := runWord_footprint hm 0xC5F0 (.cycle #[0xAB])
  refine ⟨hm, ?_, hrandom (by decide)⟩
  by_contra hchange
  have hplace := (hsave.memory 0x304 hchange).2
  revert hplace
  decide

end Machine

end ChipEight
