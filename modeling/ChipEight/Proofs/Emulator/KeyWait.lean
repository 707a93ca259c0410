import ChipEight.Proofs.Emulator.MachineStep

/-!
# Waiting for a key

To wait for a key takes three steps, and they are taken by different calls.  The instruction `Fx0A`
raises a flag and goes back to itself.  A key that goes down then lowers the flag and is pending.
The next cycle reads the same instruction again, which now takes the key into its register and lets
the program go on.

From the first step to the last the machine is suspended (`Machine.Suspended`).  The invariant
`Emulator.KeyWait` says that only one of the flag and the key is there, and that the program counter
stands on the instruction that began the wait.  Every call keeps it, and `cycle_wait` says what a
cycle does to the wait: it lets it be, works without one, begins one or ends one.
-/

namespace ChipEight

namespace Machine

/-- A wait for a key has begun: no key has come yet, or it has not been delivered. -/
def Suspended (m : Machine) : Prop :=
  m.waiting = true ∨ m.pendingKey ≠ none

/-- The word at the program counter waits for a key, to be put into a register. -/
structure AtWaitKey (x : Register) (m : Machine) : Prop where
  within : m.counter + 1 < 4096
  word : m.word = 0xF00A + 256 * x.val

/-- Nothing but the timers and the keypad is different. -/
def Still (m n : Machine) : Prop :=
  ∀ p : Part, p ∉ [.delayTimer, .soundTimer, .keys] → p.Same m n

/-- A key has been delivered to a register, and the program goes on behind the instruction. -/
structure Delivered (x : Register) (key : Int) (m n : Machine) : Prop where
  register : n.value x = key
  others : ∀ y, y ≠ x → n.value y = m.value y
  counter : n.counter = m.counter + 2
  waiting : n.waiting = false
  pendingKey : n.pendingKey = none
  rest : ∀ p : Part, p ∈ [.memory, .index, .stack, .display] → p.Same m n

variable {m n k : Machine} {x : Register} {key : Int}

theorem pendingKey_of_not_suspended (h : ¬m.Suspended) : m.pendingKey = none :=
  Decidable.not_not.mp (not_or.mp h).2

theorem Still.refl (m : Machine) : m.Still m :=
  fun p _ => .refl m p

theorem Still.trans (h : m.Still n) (h' : n.Still k) : m.Still k :=
  fun p hp => (h p hp).trans (h' p hp)

/-- What is still, still waits for the same key. -/
theorem Still.keyWait (h : m.Still n) : Part.keyWait.Same m n :=
  h .keyWait (by decide)

theorem suspended_iff_of_same (h : Part.keyWait.Same m n) : n.Suspended ↔ m.Suspended := by
  rw [Suspended, Suspended, h.1, h.2]

/-- The instruction is the same where memory and the counter are. -/
theorem AtWaitKey.of_same (h : m.AtWaitKey x) (hmemory : Part.memory.Same m n)
    (hcounter : Part.counter.Same m n) : n.AtWaitKey x where
  within := by
    rw [show n.counter = m.counter from hcounter]
    exact h.within
  word := (word_of_same hmemory hcounter).trans h.word

theorem AtWaitKey.of_still (h : m.AtWaitKey x) (hstill : m.Still n) : n.AtWaitKey x :=
  h.of_same (hstill .memory (by decide)) (hstill .counter (by decide))

/-- The instruction at the program counter is read as such. -/
theorem AtWaitKey.ofWord? (h : m.AtWaitKey x) :
    Instruction.ofWord? m.word = some (.waitKey x) :=
  (Instruction.ofWord?_eq_waitKey_iff m.word_bounds).mpr h.word

/-- Time passes while the machine is still. -/
theorem still_ticks (ticks : Nat) (m : Machine) : m.Still (m.ticks ticks) := by
  intro p hp
  exact same_ticks ticks m (by simp_all)

/-- A key that is not waited for only goes down. -/
theorem still_press (key : Int) (h : m.waiting = false) : m.Still (m.press key) := by
  intro p hp
  cases p <;> simp_all [Part.Same, press]

/-- A key that is waited for is captured. -/
theorem press_of_waiting (key : Int) (hwaiting : m.waiting = true) (hnone : m.pendingKey = none) :
    m.press key = { m with
      keys := m.keys.setIfInBounds key.toNat true
      pendingKey := some key
      waiting := false } :=
  if_pos ⟨hwaiting, hnone⟩

/-- While no key is pending, the instruction waits and goes back to itself. -/
theorem exec_waitKey_of_none (byte : UInt8) (x : Register) (h : m.pendingKey = none) :
    (Instruction.waitKey x).exec byte m = .done m.awaitKey := by
  simp only [Instruction.exec, waitKey, h]

/-- A pending key goes into the register. -/
theorem exec_waitKey_of_some (byte : UInt8) (x : Register) (h : m.pendingKey = some key)
    (hkey : 0 ≤ key ∧ key ≤ 15) :
    (Instruction.waitKey x).exec byte m =
      .done (m.takeKey.setRegister x (UInt8.ofNat key.toNat)) := by
  have hfits : 0 ≤ key ∧ key < 256 := by omega
  simp only [Instruction.exec, waitKey, h, Cells.byte?, if_pos hfits]
  rfl

/-- The machine waits on the instruction that it has just read. -/
theorem AtWaitKey.awaitKey (h : m.AtWaitKey x) (hlow : 0 ≤ m.counter) (ticks : Nat) :
    (m.ticked ticks).awaitKey.AtWaitKey x := by
  have hwithin := h.within
  have hback : (m.ticked ticks).awaitKey.counter = m.counter := by
    simp only [ticked, Machine.awaitKey, wrap]
    omega
  have hmemory : (m.ticked ticks).memory = m.memory :=
    same_ticked (p := .memory) ticks m (by decide)
  exact h.of_same hmemory hback

/-- The machine goes on with the key in the register. -/
theorem delivered_takeKey (m : Machine) (x : Register) (ticks : Nat) (hkey : 0 ≤ key ∧ key ≤ 15) :
    m.Delivered x key
      ((m.ticked ticks).takeKey.setRegister x (UInt8.ofNat key.toNat)) where
  register := by
    have hbyte : (UInt8.ofNat key.toNat).toNat = key.toNat :=
      UInt8.toNat_ofNat_of_lt' (by simp only [UInt8.size]; omega)
    simp only [value, register, setRegister, Fin.getElem_fin, Vector.getElem_set_self, hbyte]
    omega
  others y hy := by
    have hregisters : (m.ticked ticks).registers = m.registers :=
      same_ticked (p := .registers) ticks m (by decide)
    have hne : x.val ≠ y.val := fun heq => hy (Fin.ext heq.symm)
    simp only [value, register, setRegister, takeKey, hregisters, Fin.getElem_fin,
      Vector.getElem_set_ne _ _ hne]
  counter := rfl
  waiting := rfl
  pendingKey := rfl
  rest p hp := by
    have hticked : p.Same m (m.ticked ticks) := by
      refine same_ticked ticks m ?_
      revert p
      decide
    cases p <;> simp_all [Part.Same, takeKey, setRegister]

end Machine

namespace Emulator

open Machine

variable {e : Emulator} {delta : Number}

/-- The invariant of the wait for a key. -/
structure KeyWait (e : Emulator) : Prop extends Sound e where
  exclusive : e.machine.waiting = true → e.machine.pendingKey = none
  loaded : e.machine.Suspended → e.loaded = true
  stands : e.machine.Suspended → ∃ x, e.machine.AtWaitKey x

/-- All that a cycle can do to the wait for a key. -/
inductive WaitStep (delta : Number) (e : Emulator) (after : Machine) : Prop where
  /-- No instruction is executed. -/
  | rests (hnone : e.executed? delta = none) (hafter : e.machine.Still after)
  /-- There is no wait before or after. -/
  | works (hother : ∀ x, e.executed? delta ≠ some (.waitKey x))
      (hbefore : ¬e.machine.Suspended) (hafter : ¬after.Suspended)
  | begins (ticks : Nat) (x : Register) (hexecuted : e.executed? delta = some (.waitKey x))
      (hbefore : ¬e.machine.Suspended) (hat : e.machine.AtWaitKey x)
      (hafter : after = (e.machine.ticked ticks).awaitKey)
  | ends (ticks : Nat) (x : Register) (key : Int)
      (hexecuted : e.executed? delta = some (.waitKey x))
      (hbefore : e.machine.pendingKey = some key) (hat : e.machine.AtWaitKey x)
      (hafter : after =
        (e.machine.ticked ticks).takeKey.setRegister x (UInt8.ofNat key.toNat))

/-- Between the calls nothing is suspended unless a key is waited for or pending. -/
theorem KeyWait.of_free (h : e.Sound) (hfree : ¬e.machine.Suspended) : e.KeyWait where
  toSound := h
  exclusive hwaiting := (hfree (.inl hwaiting)).elim
  loaded hsuspended := (hfree hsuspended).elim
  stands hsuspended := (hfree hsuspended).elim

/-- What leaves the machine still keeps the invariant. -/
theorem KeyWait.of_still {e' : Emulator} (h : e.KeyWait) (hsound : e'.Sound)
    (hloaded : e'.loaded = e.loaded) (hstill : e.machine.Still e'.machine) : e'.KeyWait where
  toSound := hsound
  exclusive := by
    rw [hstill.keyWait.1, hstill.keyWait.2]
    exact h.exclusive
  loaded := by
    rw [(suspended_iff_of_same hstill.keyWait), hloaded]
    exact h.loaded
  stands hsuspended := by
    obtain ⟨x, hat⟩ := h.stands ((suspended_iff_of_same hstill.keyWait).mp hsuspended)
    exact ⟨x, hat.of_still hstill⟩

/-- The instruction of a wait begins one, or ends the one that there is. -/
theorem wait_of_waitKey (h : e.KeyWait) {ticks : Nat} {x : Register} {byte : UInt8}
    {after : Machine} (hexecuted : e.executed? delta = some (.waitKey x))
    (hwaiting : e.machine.waiting = false) (hat : e.machine.AtWaitKey x)
    (hexec : (Instruction.waitKey x).exec byte (e.machine.ticked ticks) = .done after) :
    WaitStep delta e after := by
  have hticked : Part.keyWait.Same e.machine (e.machine.ticked ticks) :=
    same_ticked ticks e.machine (by decide)
  cases hpending : e.machine.pendingKey with
  | none =>
    rw [exec_waitKey_of_none byte x (hticked.2.trans hpending)] at hexec
    cases hexec
    refine .begins ticks x hexecuted ?_ hat rfl
    simp [Suspended, hwaiting, hpending]
  | some key =>
    have hkey := h.bounded.pendingKey key hpending
    rw [exec_waitKey_of_some byte x (hticked.2.trans hpending) hkey] at hexec
    cases hexec
    exact .ends ticks x key hexecuted hpending hat rfl

/-- Any other instruction is executed without a wait, and begins none. -/
theorem wait_of_other (h : e.KeyWait) {ticks : Nat} {i : Instruction Register} {byte : UInt8}
    {after : Machine} (hexecuted : e.executed? delta = some i)
    (hword : Instruction.ofWord? e.machine.word = some i) (hother : ∀ x, i ≠ .waitKey x)
    (hexec : i.exec byte (e.machine.ticked ticks) = .done after) : WaitStep delta e after := by
  have hfree : ¬e.machine.Suspended := by
    intro hsuspended
    obtain ⟨x, hat⟩ := h.stands hsuspended
    exact hother x (Option.some.inj (hword.symm.trans hat.ofWord?))
  have huntouched : Part.keyWait ∉ i.touched := by
    cases i <;> simp_all [Instruction.touched]
  have hsame : Part.keyWait.Same (e.machine.ticked ticks) after := by
    have hexecSame := Instruction.exec_same (m := e.machine.ticked ticks) byte huntouched
    rw [hexec] at hexecSame
    exact hexecSame
  have hticked : Part.keyWait.Same e.machine (e.machine.ticked ticks) :=
    same_ticked ticks e.machine (by decide)
  refine .works (fun x hx => ?_) hfree (mt (suspended_iff_of_same (hticked.trans hsame)).mp hfree)
  exact hother x (Option.some.inj (hexecuted.symm.trans hx))

/-- **What a cycle does to the wait for a key.** -/
theorem cycle_wait (h : e.KeyWait) (delta : Number) :
    WaitStep delta e (e.cycle delta).emulator.machine := by
  have hstep := machine_step h.toSound delta
  generalize (e.cycle delta).emulator.machine = after at hstep ⊢
  cases hstep with
  | idle ticks hnone hafter =>
    subst hafter
    exact .rests hnone (still_ticks ticks e.machine)
  | refused ticks hnone hwaiting hend hrefused hafter =>
    subst hafter
    -- The instruction of a wait is never refused, so there is no wait.
    have hfree : ¬e.machine.Suspended := by
      intro hsuspended
      obtain ⟨x, hat⟩ := h.stands hsuspended
      exact hrefused _ hat.ofWord? rfl
    have hticked : Part.keyWait.Same e.machine (e.machine.ticked ticks) :=
      same_ticked ticks e.machine (by decide)
    exact .works (by simp [hnone]) hfree (mt (suspended_iff_of_same hticked).mp hfree)
  | executed ticks i hexecuted hwaiting hend hword hexec =>
    by_cases hi : ∃ x, i = .waitKey x
    · obtain ⟨x, rfl⟩ := hi
      have hat : e.machine.AtWaitKey x :=
        ⟨hend, (Instruction.ofWord?_eq_waitKey_iff e.machine.word_bounds).mp hword⟩
      exact wait_of_waitKey h hexecuted hwaiting hat hexec
    · exact wait_of_other h hexecuted hword (fun x hx => hi ⟨x, hx⟩) hexec

/-- A new emulator waits for nothing. -/
theorem keyWait_new (random : RandomSource) (hasTone : Bool) : (new random hasTone).KeyWait :=
  .of_free (sound_new random hasTone) (by simp [new, Suspended])

/-- A cycle keeps the invariant. -/
theorem KeyWait.cycle (h : e.KeyWait) (delta : Number) : (e.cycle delta).emulator.KeyWait := by
  have hsound := h.toSound.cycle delta
  cases cycle_wait h delta with
  | rests hnone hafter => exact h.of_still hsound (loaded_cycle h.runner delta) hafter
  | works hother hbefore hafter => exact .of_free hsound hafter
  | begins ticks x hexecuted hbefore hat hafter =>
    have hpending := pendingKey_of_not_suspended hbefore
    have hticked : Part.keyWait.Same e.machine (e.machine.ticked ticks) :=
      same_ticked ticks e.machine (by decide)
    exact
      { toSound := hsound
        exclusive := fun _ => by
          rw [hafter]
          exact hticked.2.trans hpending
        loaded := fun _ => (loaded_cycle h.runner delta).trans (loaded_of_executed? hexecuted)
        stands := fun _ => ⟨x, by
          rw [hafter]
          exact hat.awaitKey h.bounded.counter.1 ticks⟩ }
  | ends ticks x key hexecuted hbefore hat hafter =>
    refine .of_free hsound ?_
    rw [hafter]
    simp [Suspended, takeKey, setRegister]

/-- **Every call keeps the invariant.** -/
theorem KeyWait.next (h : e.KeyWait) (c : Call) : (c.next e).KeyWait := by
  have hsound := h.toSound.next c
  cases c with
  | load program =>
    obtain hsame | ⟨hunloaded, loaded, hload, hnext⟩ := Call.next_load program e
    · rw [hsame]
      exact h
    · have hfree : ¬e.machine.Suspended := by
        intro hsuspended
        simp [h.loaded hsuspended] at hunloaded
      have hsame : Part.keyWait.Same e.machine ((Call.load program).next e).machine :=
        Call.next_same (by simp [Call.touched])
      exact .of_free hsound (mt (suspended_iff_of_same hsame).mp hfree)
  | reset =>
    refine .of_free hsound ?_
    rw [Call.next_reset]
    simp [Suspended]
  | keyDown key =>
    rw [Call.next_keyDown] at hsound ⊢
    by_cases hkey : 0 ≤ key ∧ key < 16
    · rw [if_pos hkey] at hsound ⊢
      cases hwaiting : e.machine.waiting with
      | false => exact h.of_still hsound rfl (still_press key hwaiting)
      | true =>
        have hpress := press_of_waiting key hwaiting (h.exclusive hwaiting)
        obtain ⟨x, hat⟩ := h.stands (.inl hwaiting)
        exact
          { toSound := hsound
            exclusive := fun hstill => by simp [hpress] at hstill
            loaded := fun _ => h.loaded (.inl hwaiting)
            stands := fun _ => ⟨x, hat.of_same (by rw [hpress]; rfl) (by rw [hpress]; rfl)⟩ }
    · rw [if_neg hkey]
      exact h
  | keyUp key =>
    refine h.of_still hsound ?_ fun p hp => Call.next_same (by simp_all [Call.touched])
    rw [Call.next_keyUp]
    split <;> rfl
  | cycle delta => exact h.cycle delta
  | trace on => exact h.of_still hsound rfl (.refl e.machine)
  | listen name => exact h.of_still hsound rfl (.refl e.machine)

end Emulator

end ChipEight
