import ChipEight.Proofs.Emulator.MachineStep
import ChipEight.Proofs.Machine.Store

/-!
# Reserved memory

Programs can point the address register anywhere and can run their own data, but the checks of the
two instructions that store bytes keep them out of the memory below `0x200` and of its last byte.
`memory_cycle` says what a cycle does to memory: nothing, or what the instruction stores that it has
executed to its end, and that within these bounds.

So the memory below `0x200` is that of a new machine, whatever has been run (`pristine_after`), and
the last byte is as the latest program or reset has left it (`lastByte_after`).  In particular the
font cannot be spoilt: the glyph that an instruction points the address register at is always whole.
-/

namespace ChipEight

open Outcome Machine

/-- Below the place of programs, memory is that of a new machine: the font, and zeros behind it. -/
def Machine.Pristine (m : Machine) : Prop :=
  ∀ a < programStart, m.byteAt a = font.getD a 0

/-- Whether a call fills memory from outside. -/
def Call.fills : Call → Bool
  | load _ | reset => true
  | keyDown _ | keyUp _ | cycle _ | trace _ | listen _ => false

namespace Machine

variable {m n : Machine}

/-- A new machine is pristine. -/
theorem pristine_new : Pristine {} := by
  intro a ha
  simp only [programStart] at ha
  exact byteAt_new (by omega)

theorem Pristine.of_same (h : m.Pristine) (hsame : Part.memory.Same m n) : n.Pristine := by
  intro a ha
  rw [byteAt_of_same hsame]
  exact h a ha

/-- A program is loaded behind the pristine part. -/
theorem Pristine.load (h : m.Pristine) {program : List UInt8} (hload : m.load program = .ok n) :
    n.Pristine := by
  unfold Machine.load at hload
  split at hload <;> cases hload
  intro a ha
  rw [← h a ha]
  exact byteAt_of_write rfl (.inl ha)

end Machine

namespace Emulator

variable {e : Emulator} {delta : Number}

/-- What an instruction stores, if one has been executed, is all that is different in memory, and none
of it lies below the place of programs or in the last byte. -/
def StoresWithin (executed? : Option (Instruction Register)) (m n : Machine) : Prop :=
  match executed? with
  | none => n.memory = m.memory
  | some i =>
    n.memory = Cells.write m.memory m.index.toNat (i.stored m) ∧
      ∀ k < (i.stored m).length, 0x200 ≤ m.index + k ∧ m.index + k ≤ 0xFFE

/-- **What a cycle does to memory.** -/
theorem memory_cycle (h : e.Sound) (delta : Number) :
    StoresWithin (e.executed? delta) e.machine (e.cycle delta).emulator.machine := by
  cases machine_step h delta with
  | idle ticks hnone hafter =>
    rw [hnone, hafter]
    exact same_ticks (p := .memory) ticks e.machine (by decide)
  | refused ticks hnone _ _ _ hafter =>
    rw [hnone, hafter]
    exact same_ticked (p := .memory) ticks e.machine (by decide)
  | executed ticks i hsome _ _ _ hexec =>
    have hmemory : (e.machine.ticked ticks).memory = e.machine.memory :=
      same_ticked (p := .memory) ticks e.machine (by decide)
    have hindex : (e.machine.ticked ticks).index = e.machine.index :=
      same_ticked (p := .index) ticks e.machine (by decide)
    have hstored : i.stored (e.machine.ticked ticks) = i.stored e.machine :=
      Instruction.stored_of_same (same_ticked ticks e.machine (by decide))
    have hstore := Instruction.exec_store hexec
    rw [hmemory, hindex, hstored] at hstore
    rw [hsome]
    exact hstore

/-- What is reserved is out of reach of a cycle. -/
theorem byteAt_cycle (h : e.Sound) (delta : Number) {a : Nat} (ha : a < 0x200 ∨ 0xFFF ≤ a) :
    (e.cycle delta).emulator.machine.byteAt a = e.machine.byteAt a := by
  have hcycle := memory_cycle h delta
  cases hexecuted : e.executed? delta with
  | none =>
    rw [hexecuted] at hcycle
    exact byteAt_of_same hcycle a
  | some i =>
    rw [hexecuted] at hcycle
    obtain ⟨hwrite, hwithin⟩ := hcycle
    refine byteAt_of_write hwrite ?_
    by_cases hempty : (i.stored e.machine).length = 0
    · omega
    · have hfirst := hwithin 0 (by omega)
      have hlast := hwithin ((i.stored e.machine).length - 1) (by omega)
      omega

/-- **Every call leaves the memory below programs as it was.** -/
theorem pristine_next (h : e.Sound) (hm : e.machine.Pristine) (c : Call) :
    (c.next e).machine.Pristine := by
  cases c with
  | load program =>
    obtain hnext | ⟨-, loaded, hload, hnext⟩ := Call.next_load program e <;> rw [hnext]
    · exact hm
    · exact hm.load hload
  | reset =>
    rw [Call.next_reset]
    exact pristine_new
  | cycle delta =>
    intro a ha
    rw [← hm a ha]
    exact byteAt_cycle h delta (.inl ha)
  | keyDown key | keyUp key | trace on | listen name =>
    exact hm.of_same (Call.next_same (by simp [Call.touched]))

/-- Every run from a new emulator does. -/
theorem pristine_after (random : RandomSource) (hasTone : Bool) (calls : List Call) :
    ((new random hasTone).after calls).machine.Pristine := by
  suffices h : ∀ e : Emulator, e.Sound ∧ e.machine.Pristine →
      (e.after calls).Sound ∧ (e.after calls).machine.Pristine from
    (h _ ⟨sound_new random hasTone, pristine_new⟩).2
  intro e h
  exact after_induction (P := fun e => e.Sound ∧ e.machine.Pristine)
    (fun c e h => ⟨h.1.next c, pristine_next h.1 h.2 c⟩) calls h

/-- **The last byte of memory is out of reach of programs.** -/
theorem lastByte_after (h : e.Sound) {calls : List Call} (hcalls : ∀ c ∈ calls, c.fills = false) :
    (e.after calls).machine.byteAt 0xFFF = e.machine.byteAt 0xFFF := by
  induction calls generalizing e with
  | nil => rfl
  | cons c calls ih =>
    obtain ⟨hfills, hrest⟩ := List.forall_mem_cons.mp hcalls
    rw [after_cons, ih (h.next c) hrest]
    cases c with
    | load | reset => cases hfills
    | cycle delta => exact byteAt_cycle h delta (.inr (Nat.le_refl _))
    | keyDown key | keyUp key | trace on | listen name =>
      exact byteAt_of_same (Call.next_same (by simp [Call.touched])) _

/-- In a pristine machine a glyph can be read at its address. -/
theorem slice_glyph {m : Machine} (h : m.Pristine) {digit : Nat} (hdigit : digit < 16) :
    Cells.slice m.memory (digit * glyphSize : Nat) (digit * glyphSize + glyphSize : Nat) =
      glyph digit := by
  have hend : digit * glyphSize + glyphSize ≤ 80 := by
    simp only [glyphSize]
    omega
  rw [slice_memory m (by omega), glyph_eq hdigit]
  refine List.map_congr_left fun k hk => h _ ?_
  have hk := List.mem_range.mp hk
  simp only [programStart]
  omega

/-- **An instruction that asks for a glyph finds it whole.** -/
theorem glyph_cycle {due : Int} {x : Register} (h : e.Sound) (hm : e.machine.Pristine)
    (htimed : Timed delta due e) (hwaiting : e.machine.waiting = false)
    (hend : e.machine.counter + 1 < 4096)
    (hword : Instruction.ofWord? e.machine.word = some (.loadGlyph x))
    (hx : e.machine.value x ≤ 15) :
    let after := (e.cycle delta).emulator.machine
    (e.cycle delta).result = .ok () ∧
      after.index = e.machine.value x * glyphSize ∧
      Cells.slice after.memory after.index (after.index + glyphSize) =
        glyph (e.machine.value x).toNat := by
  have haccepted (ticks : Nat) :
      (Instruction.loadGlyph x).refusal (e.machine.ticked ticks) = none := by
    simp only [Instruction.refusal, value_ticked, if_neg (show ¬15 < e.machine.value x by omega)]
  have hresult := result_cycle h htimed hwaiting hend hword
  have hexecuted := executed?_eq h htimed hwaiting hend hword
  rw [haccepted] at hresult
  rw [if_pos (haccepted _)] at hexecuted
  refine ⟨hresult, ?_⟩
  cases machine_step h delta with
  | idle _ hnone => simp [hexecuted] at hnone
  | refused _ hnone => simp [hexecuted] at hnone
  | executed ticks i hsome _ _ _ hexec =>
    cases hexecuted.symm.trans hsome
    have hx' : (e.machine.ticked ticks).value x ≤ 15 := by rw [value_ticked]; exact hx
    rw [Instruction.exec_loadGlyph hx'] at hexec
    injection hexec with hafter
    obtain ⟨digit, hdigit⟩ : ∃ digit : Nat, e.machine.value x = digit := ⟨_, rfl⟩
    have hpristine : (e.machine.ticked ticks).Pristine :=
      hm.of_same (same_ticked ticks e.machine (by decide))
    have hglyph := slice_glyph hpristine (show digit < 16 by omega)
    rw [← hafter]
    simp only [value_ticked, hdigit]
    exact ⟨trivial, hglyph⟩

/-- **Reserved memory is never written by a program.**  After any calls to a new emulator, whatever has
been loaded, run and refused:

* the memory below `0x200` holds the font, and zeros behind it;
* its last byte is kept by all further calls but those that load a program or reset;
* a cycle leaves memory as it was, except for what the instruction stores that it has executed to its
  end, and all of that falls between `0x200` and `0xFFE`;
* an instruction that asks for the glyph of a digit completes, and the five bytes at the address
  register are then those of the font for that digit. -/
theorem reserved_memory (random : RandomSource) (hasTone : Bool) (calls : List Call) :
    let e := (new random hasTone).after calls
    (∀ a < 0x200, e.machine.byteAt a = font.getD a 0) ∧
    (∀ more, (∀ c ∈ more, c.fills = false) →
      (e.after more).machine.byteAt 0xFFF = e.machine.byteAt 0xFFF) ∧
    (∀ delta, StoresWithin (e.executed? delta) e.machine (e.cycle delta).emulator.machine) ∧
    ∀ delta due x, Timed delta due e → e.machine.waiting = false → e.machine.counter + 1 < 4096 →
      Instruction.ofWord? e.machine.word = some (.loadGlyph x) → e.machine.value x ≤ 15 →
      let after := (e.cycle delta).emulator.machine
      (e.cycle delta).result = .ok () ∧
        after.index = e.machine.value x * glyphSize ∧
        Cells.slice after.memory after.index (after.index + glyphSize) =
          glyph (e.machine.value x).toNat := by
  have h := sound_after random hasTone calls
  have hpristine := pristine_after random hasTone calls
  intro e
  refine ⟨hpristine, fun more hmore => lastByte_after h hmore, memory_cycle h, ?_⟩
  intro delta due x htimed hwaiting hend hword hx
  exact glyph_cycle h hpristine htimed hwaiting hend hword hx

/-- A program tries to save a register over the font, which is refused, and then asks for the glyph of
`A`. -/
theorem reserved_memory_of_refused_save :
    ∃ e after : Emulator,
      e = (new (.cycle #[]) true).after
        [.load [0x60, 0x0A, 0xA0, 0x00, 0xF0, 0x55, 0xF0, 0x29], .cycle (.integer 0),
          .cycle (.integer 0), .cycle (.integer 0)] ∧
      after = (e.cycle (.integer 0)).emulator ∧
      e.machine.counter = 0x206 ∧ e.machine.word = 0xF029 ∧ after.machine.index = 50 ∧
      Cells.slice after.machine.memory after.machine.index (after.machine.index + 5) =
        [0xF0, 0x90, 0xF0, 0x90, 0x90] := by
  have hreserved := reserved_memory (.cycle #[]) true
    [.load [0x60, 0x0A, 0xA0, 0x00, 0xF0, 0x55, 0xF0, 0x29], .cycle (.integer 0),
      .cycle (.integer 0), .cycle (.integer 0)]
  dsimp only at hreserved
  obtain ⟨e, he⟩ : ∃ e, e = (new (.cycle #[]) true).after
      [.load [0x60, 0x0A, 0xA0, 0x00, 0xF0, 0x55, 0xF0, 0x29], .cycle (.integer 0),
        .cycle (.integer 0), .cycle (.integer 0)] := ⟨_, rfl⟩
  rw [← he] at hreserved
  obtain ⟨hloaded, hticks, hwaiting, hcounter, hword, hvalue⟩ : e.loaded = true ∧
      e.ticksDue (.integer 0) = .ok 0 ∧ e.machine.waiting = false ∧
      e.machine.counter = 0x206 ∧ e.machine.word = 0xF029 ∧ e.machine.value 0 = 10 := by
    rw [he]
    decide +kernel
  have htimed : Timed (.integer 0) 0 e := ⟨hloaded, by decide, hticks⟩
  obtain ⟨-, hindex, hslice⟩ := hreserved.2.2.2 (.integer 0) 0 0 htimed hwaiting
    (by rw [hcounter]; decide) (by rw [hword]; decide) (by rw [hvalue]; decide)
  rw [hvalue] at hindex hslice
  exact ⟨e, _, he, rfl, hcounter, hword, hindex, hslice⟩

end Emulator

end ChipEight
