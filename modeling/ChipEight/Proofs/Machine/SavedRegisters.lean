import ChipEight.Proofs.Instruction.Assembler
import ChipEight.Proofs.Machine.Watched
import ChipEight.Proofs.Machine.WordFootprint

/-!
# What is stored comes back

Registers that are saved stand in memory byte by byte, and nothing but another store to the same place
takes them away.  `Machine.Spares` follows a machine while words are executed that store nothing at some
addresses.  Such a word may do anything else: it may change the registers, move the address register, or
be refused; and between the words anything may happen that leaves memory alone, such as a fetch, the ticks
of the timers, or a key.  The bytes at these addresses are still the same in the end
(`Machine.Spares.byteAt`): one word keeps them by `Machine.byteAt_runWord`, and the rest is induction.

Saving asks for one byte of room more than restoring does.  So what could be saved can be restored, also
at the very end of memory.
-/

namespace ChipEight

namespace Machine

open Outcome Instruction

variable {m after : Machine} {a : Nat}

/-- A word stores something at an address: it is accepted, and the bytes that it puts from the address
register on reach there. -/
def StoresAt (w : Int) (a : Nat) (m : Machine) : Prop :=
  ∃ i, ofWord? w = some i ∧ i.refusal m = none ∧
    m.index ≤ a ∧ a < m.index + (i.stored m).length

/-- What a machine comes to if words are executed, whatever becomes of them, that store nothing at the
addresses to be kept, and memory is left alone in between. -/
inductive Spares (kept : Nat → Prop) : Machine → Machine → Prop
  | start (m : Machine) : Spares kept m m
  | aside {m n k : Machine} (hrest : Spares kept m n) (hmemory : Part.memory.Same n k) : Spares kept m k
  | word {m n : Machine} (w : Int) (source : RandomSource) (hrest : Spares kept m n)
      (hspared : ∀ a, kept a → ¬n.StoresAt w a) : Spares kept m (n.runWord w source).1.machine

/-- A word whose instruction puts nothing into memory stores nothing anywhere. -/
theorem not_storesAt {w : Int} (h : ∀ i, ofWord? w = some i → Part.memory ∉ i.touched) :
    ¬m.StoresAt w a := by
  rintro ⟨i, hi, -, hinside⟩
  rw [stored_of_untouched (h i hi), List.length_nil] at hinside
  omega

/-- An instruction that stops leaves memory as it was, in every machine. -/
theorem memory_of_stopped {i : Instruction Register} {byte : UInt8} {fault : Fault}
    (h : i.exec byte m = stopped after fault) : Part.memory.Same m after := by
  by_cases htouched : Part.memory ∈ i.touched
  case neg =>
    have hsame : Part.memory.Same m (i.exec byte m).machine := exec_same byte htouched
    rwa [h] at hsame
  cases i with
  | storeDecimal x | saveRegisters x =>
    simp only [exec, Machine.storeDecimal, Machine.saveRegisters] at h
    split at h <;> cases h
    exact .refl m _
  | _ => simp [touched] at htouched

/-- **A word keeps the bytes at which it does not store.** -/
theorem byteAt_runWord {w : Int} (h : ¬m.StoresAt w a) (source : RandomSource) :
    (m.runWord w source).1.machine.byteAt a = m.byteAt a := by
  cases hw : ofWord? w with
  | none => rw [runWord_of_none hw]; rfl
  | some i =>
    rw [runWord_of_some hw]
    simp only [Instruction.run]
    cases hexec : i.exec source.next m with
    | stopped after fault => exact byteAt_of_same (memory_of_stopped hexec) a
    | done after =>
      have houtside : ¬(m.index ≤ a ∧ a < m.index + (i.stored m).length) :=
        fun hinside => h ⟨i, hw, refusal_of_done hexec, hinside⟩
      exact byteAt_of_done hexec houtside

/-- **Spared bytes stay.** -/
theorem Spares.byteAt {kept : Nat → Prop} (h : Spares kept m after) (ha : kept a) :
    after.byteAt a = m.byteAt a := by
  induction h with
  | start => rfl
  | aside hrest hmemory ih => exact (byteAt_of_same hmemory a).trans ih
  | word w source hrest hspared ih => exact (byteAt_runWord (hspared a ha) source).trans ih

/-- What an instruction has stored stands in memory from the address register on. -/
theorem byteAt_stored {i : Instruction Register} {byte : UInt8} (h : i.exec byte m = done after) {k : Nat}
    (hk : k < (i.stored m).length) : after.byteAt (m.index.toNat + k) = (i.stored m)[k] := by
  obtain ⟨hwrite, hwithin⟩ := exec_store h
  have hfirst := hwithin 0 (by omega)
  have hplace := hwithin k hk
  have hlt : m.index.toNat + k < 4096 := by omega
  rw [byteAt_of_lt _ hlt]
  simp only [hwrite]
  exact Cells.getElem_write_of_mem _ _ _ k hk hlt

/-- **Restoring reads a row of bytes** into the registers up to one of them. -/
theorem restoreRegisters_of_room {x : Register} (hroom : InProgramMemory m.index x.val) :
    ∃ after, m.restoreRegisters x = done after ∧
      (∀ r ≤ x, after.register r = m.byteAt (m.index.toNat + r.val)) ∧
      after.index = m.index + x.val + 1 := by
  obtain ⟨hlow, hhigh⟩ := inProgramMemory_iff.mp hroom
  obtain ⟨start, hstart⟩ : ∃ start : Nat, m.index = start := ⟨m.index.toNat, by omega⟩
  have hend : m.index + x.val + 1 = (start + (x.val + 1) : Nat) := by omega
  have hslice : Cells.slice m.memory m.index (m.index + x.val + 1) =
      (List.range (x.val + 1)).map fun k => m.byteAt (start + k) := by
    rw [hend, hstart]
    exact m.slice_memory (by omega)
  refine ⟨_, if_neg (not_not_intro hroom), ?_, rfl⟩
  intro r hr
  have hr : r.val ≤ x.val := hr
  have hlength : r.val < ((List.range (x.val + 1)).map fun k => m.byteAt (start + k)).length := by
    rw [List.length_map, List.length_range]
    omega
  have hwritten := Cells.getElem_write_of_mem _ m.registers 0 r.val hlength (by omega)
  have hplace : m.index.toNat + r.val = start + r.val := by omega
  simp only [Nat.zero_add, List.getElem_map, List.getElem_range] at hwritten
  simpa only [register, Fin.getElem_fin, hslice, hplace] using hwritten

/-- The instructions of the words `Fx33`, `Fx55` and `Fx65`. -/
theorem ofWord?_stores (x : Register) :
    ofWord? (0xF033 + 0x100 * x.val) = some (.storeDecimal x) ∧
    ofWord? (0xF055 + 0x100 * x.val) = some (.saveRegisters x) ∧
    ofWord? (0xF065 + 0x100 * x.val) = some (.restoreRegisters x) :=
  ⟨ofWord?_word (i := .storeDecimal x) (f := ⟨⟨15, by decide⟩, x, ⟨3, by decide⟩, ⟨3, by decide⟩⟩)
      ⟨rfl, Fields.byte_eq _, rfl⟩,
    ofWord?_word (i := .saveRegisters x) (f := ⟨⟨15, by decide⟩, x, ⟨5, by decide⟩, ⟨5, by decide⟩⟩)
      ⟨rfl, Fields.byte_eq _, rfl⟩,
    ofWord?_word (i := .restoreRegisters x) (f := ⟨⟨15, by decide⟩, x, ⟨6, by decide⟩, ⟨5, by decide⟩⟩)
      ⟨rfl, Fields.byte_eq _, rfl⟩⟩

/-- Bytes that an instruction has stored, and that still stand there, are restored. -/
theorem restore_of_stored {i : Instruction Register} {byte : UInt8} {stored later : Machine} {x : Register}
    (hstore : i.exec byte m = done stored) (hx : x.val < (i.stored m).length)
    (hkept : ∀ a : Nat, m.index ≤ a → a ≤ m.index + x.val → later.byteAt a = stored.byteAt a)
    (hindex : later.index = m.index) (source : RandomSource) :
    ∃ after, later.runWord (0xF065 + 0x100 * x.val) source = (done after, source) ∧
      (∀ r ≤ x, (i.stored m)[r.val]? = some (after.register r)) ∧
      (∀ r, x < r → after.register r = later.register r) ∧
      after.index = m.index + x.val + 1 ∧
      ∀ p : Part, p ∉ [.registers, .index] → p.Same later after := by
  obtain ⟨-, -, hword⟩ := ofWord?_stores x
  obtain ⟨-, hwithin⟩ := exec_store hstore
  have hfirst := hwithin 0 (by omega)
  have hlast := hwithin x.val hx
  have hroom : InProgramMemory later.index x.val := inProgramMemory_iff.mpr (by omega)
  obtain ⟨after, hrestore, hread, hmoved⟩ := restoreRegisters_of_room hroom
  have hafter : (later.restoreRegisters x).machine = after := by
    rw [hrestore]
    rfl
  refine ⟨after, ?_, ?_, ?_, ?_, ?_⟩
  · rw [runWord_of_some hword]
    exact congrArg (·, source) hrestore
  · intro r hr
    have hr : r.val ≤ x.val := hr
    rw [List.getElem?_eq_getElem (by omega), ← byteAt_stored hstore (by omega), hread r hr, hindex,
      hkept _ (by omega) (by omega)]
  · intro r hr
    rw [← hafter]
    exact register_restoreRegisters hr later
  · rw [hmoved, hindex]
  · intro p hp
    rw [← hafter]
    exact exec_same (i := .restoreRegisters x) 0 hp

/-- **Stored registers come back.**  In every machine in which a word `Fx55` is accepted, it saves the
registers up to `Vx` in such a way that they can be restored: whatever words have been executed in the
meantime, with success or without, if none of them stored anything at one of the saved bytes and the
address register is again where it was, `Fx65` is accepted and gives all of them the content that they had
when they were saved.  It moves the address register behind them and changes nothing else, no register
above `Vx` and no byte of memory.

After `Fx33` in its place `F265` is accepted, and the first three registers hold three decimal digits,
which make up the content of `Vx` when they were stored. -/
theorem stored_registers_return (m : Machine) (x : Register) (source source' : RandomSource) :
    (∀ saved later,
      (m.runWord (0xF055 + 0x100 * x.val) source).1 = done saved →
      Spares (fun a => m.index ≤ a ∧ a ≤ m.index + x.val) saved later → later.index = m.index →
      ∃ after, later.runWord (0xF065 + 0x100 * x.val) source' = (done after, source') ∧
        (∀ r ≤ x, after.register r = m.register r) ∧
        (∀ r, x < r → after.register r = later.register r) ∧
        after.index = m.index + x.val + 1 ∧
        ∀ p : Part, p ∉ [.registers, .index] → p.Same later after) ∧
    ∀ stored later,
      (m.runWord (0xF033 + 0x100 * x.val) source).1 = done stored →
      Spares (fun a => m.index ≤ a ∧ a ≤ m.index + 2) stored later → later.index = m.index →
      ∃ after, later.runWord 0xF265 source' = (done after, source') ∧
        (∀ r : Register, r.val ≤ 2 → after.value r ≤ 9) ∧
        100 * after.value ⟨0, by decide⟩ + 10 * after.value ⟨1, by decide⟩ +
          after.value ⟨2, by decide⟩ = m.value x := by
  obtain ⟨hdecimal, hsave, -⟩ := ofWord?_stores x
  constructor
  · intro saved later hsaved hspares hindex
    have hexec : (Instruction.saveRegisters x).exec source.next m = done saved := by
      rwa [runWord_of_some hsave] at hsaved
    have hlength : ((Instruction.saveRegisters x).stored m).length = x.val + 1 := by
      simp only [Instruction.stored, List.length_take, Vector.length_toList]
      omega
    obtain ⟨after, hrun, hread, hothers, hmoved, hsame⟩ :=
      restore_of_stored hexec (by omega) (fun a hlow hhigh => hspares.byteAt ⟨hlow, hhigh⟩) hindex source'
    refine ⟨after, hrun, ?_, hothers, hmoved, hsame⟩
    intro r hr
    have hr' : r.val < x.val + 1 := Nat.lt_succ_of_le hr
    have hregister : ((Instruction.saveRegisters x).stored m)[r.val]? = some (m.register r) := by
      simp [Instruction.stored, hr', register]
    exact Option.some.inj ((hread r hr).symm.trans hregister)
  · intro stored later hstored hspares hindex
    have hexec : (Instruction.storeDecimal x).exec source.next m = done stored := by
      rwa [runWord_of_some hdecimal] at hstored
    obtain ⟨after, hrun, hread, -⟩ :=
      restore_of_stored (x := ⟨2, by decide⟩) hexec (Nat.lt_succ_self 2)
        (fun a hlow hhigh => hspares.byteAt ⟨hlow, hhigh⟩) hindex source'
    have hvalue := m.value_bounds x
    have hdigits := decimalDigits_value (m.value x)
    obtain ⟨hhundreds, htens, hunits⟩ := decimalDigits_lt (m.value x)
    have hheld (k : Nat) (hk : k < 10) : (UInt8.ofNat k).toNat = k :=
      UInt8.toNat_ofNat_of_lt' (by simp only [UInt8.size]; omega)
    have h0 : after.value ⟨0, by decide⟩ = (decimalDigits (m.value x)).1 := by
      have h := Option.some.inj (hread ⟨0, by decide⟩ (by decide))
      rw [value, ← h]
      exact congrArg Nat.cast (hheld _ hhundreds)
    have h1 : after.value ⟨1, by decide⟩ = (decimalDigits (m.value x)).2.1 := by
      have h := Option.some.inj (hread ⟨1, by decide⟩ (by decide))
      rw [value, ← h]
      exact congrArg Nat.cast (hheld _ htens)
    have h2 : after.value ⟨2, by decide⟩ = (decimalDigits (m.value x)).2.2 := by
      have h := Option.some.inj (hread ⟨2, by decide⟩ (by decide))
      rw [value, ← h]
      exact congrArg Nat.cast (hheld _ hunits)
    refine ⟨after, hrun, ?_, by omega⟩
    intro r hr
    obtain rfl | rfl | rfl : r = ⟨0, by decide⟩ ∨ r = ⟨1, by decide⟩ ∨ r = ⟨2, by decide⟩ := by
      simp only [Fin.ext_iff]
      omega
    all_goals omega

/-- At the end of memory three registers are saved.  The first of them is cleared, a word is refused, and
the address register is set back; then they are restored.  Of 234 the three digits are restored there. -/
theorem stored_registers_return_at_end_of_memory :
    ∃ m saved later after stored digits : Machine,
      m.index = 0xFFC ∧ (m.runWord 0xF255 (.cycle #[])).1 = done saved ∧
      Spares (fun a => m.index ≤ a ∧ a ≤ m.index + 2) saved later ∧ later.index = m.index ∧
      later.register ⟨0, by decide⟩ = 0 ∧
      (later.runWord 0xF265 (.cycle #[])).1 = done after ∧ after.register ⟨0, by decide⟩ = 7 ∧
      (m.runWord 0xF233 (.cycle #[])).1 = done stored ∧ stored.index = m.index ∧
      (stored.runWord 0xF265 (.cycle #[])).1 = done digits ∧
      100 * digits.value ⟨0, by decide⟩ + 10 * digits.value ⟨1, by decide⟩ +
        digits.value ⟨2, by decide⟩ = 234 := by
  obtain ⟨m, hm⟩ : ∃ m : Machine,
      m = { index := 0xFFC, registers := (Vector.replicate 16 0).set 0 7 |>.set 2 234 } := ⟨_, rfl⟩
  have hbounded : m.Bounded := by
    subst hm
    exact { bounded_new with index := by decide }
  have hindex : m.index = 0xFFC := by rw [hm]
  have hfirst : m.register ⟨0, by decide⟩ = 7 := by rw [hm]; rfl
  have hthird : m.value ⟨2, by decide⟩ = 234 := by rw [hm]; rfl
  obtain ⟨saved, hsaved⟩ : ∃ saved, (Instruction.saveRegisters ⟨2, by decide⟩).exec 0 m = done saved :=
    exec_of_accepted (i := .saveRegisters ⟨2, by decide⟩) 0 hbounded
      (f := ⟨⟨15, by decide⟩, ⟨2, by decide⟩, ⟨5, by decide⟩, ⟨5, by decide⟩⟩)
      ⟨rfl, Fields.byte_eq _, rfl⟩ (by rw [hm]; decide)
  obtain ⟨stored, hstored⟩ : ∃ stored, (Instruction.storeDecimal ⟨2, by decide⟩).exec 0 m = done stored :=
    exec_of_accepted (i := .storeDecimal ⟨2, by decide⟩) 0 hbounded
      (f := ⟨⟨15, by decide⟩, ⟨2, by decide⟩, ⟨3, by decide⟩, ⟨3, by decide⟩⟩)
      ⟨rfl, Fields.byte_eq _, rfl⟩ (by rw [hm]; decide)
  obtain ⟨hregisters, hdecimal⟩ :=
    stored_registers_return m ⟨2, by decide⟩ (.cycle #[]) (.cycle #[])
  let cleared := (saved.runWord 0x6000 (.cycle #[])).1.machine
  let refused := (cleared.runWord 0xFFFF (.cycle #[])).1.machine
  let later := (refused.runWord 0xAFFC (.cycle #[])).1.machine
  have hspares : Spares (fun a => m.index ≤ a ∧ a ≤ m.index + 2) saved later := by
    refine (((Spares.start saved).word 0x6000 _ ?_).word 0xFFFF _ ?_).word 0xAFFC _ ?_
    all_goals
      intro a _
      refine not_storesAt fun i hi => ?_
      revert i
      decide
  obtain ⟨after, hrun, hread, -⟩ := hregisters saved later hsaved hspares hindex.symm
  have hstill : stored.index = m.index := by
    have hsame : Part.index.Same m (Outcome.machine _) :=
      exec_same (i := .storeDecimal ⟨2, by decide⟩) 0 (by decide)
    rwa [hstored] at hsame
  obtain ⟨digits, hrun', -, hdigits⟩ := hdecimal stored stored hstored (.start stored) hstill
  refine ⟨m, saved, later, after, stored, digits, hindex, hsaved, hspares, hindex.symm,
    register_setRegister_self _ _ saved, congrArg Prod.fst hrun, ?_, hstored, hstill,
    congrArg Prod.fst hrun', ?_⟩
  · rw [hread ⟨0, by decide⟩ (by decide), hfirst]
  · rw [hdigits, hthird]

end Machine

end ChipEight
