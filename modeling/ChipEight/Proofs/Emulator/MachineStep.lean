import ChipEight.Proofs.Emulator.Bounds

/-!
# What a cycle does to the machine

Seen from the machine, a cycle does one of three things: ticks pass and nothing else happens, or
ticks pass and a word is fetched that is then refused, or ticks pass and an instruction is executed
to its end.  `MachineStep` has a constructor for each, and `machine_step` says that there is nothing
else.

`Emulator.executed?` tells from the outside which instruction a cycle has executed to its end: the
one that stands in memory at the program counter, if the cycle succeeds and no key was waited for.
`result_cycle` tells when it succeeds: a cycle that gets under way fails exactly with the fault that
the instruction at the program counter meets, and otherwise executes it (`executed?_eq`).
-/

namespace ChipEight

open Outcome Machine

namespace Machine

/-- The machine when so many ticks have passed and a word has been fetched. -/
def ticked (ticks : Nat) (m : Machine) : Machine :=
  { m.ticks ticks with counter := m.counter + 2 }

/-- Only the timers and the counter are different then. -/
theorem same_ticked (ticks : Nat) (m : Machine) {p : Part}
    (h : p ∉ [.delayTimer, .soundTimer, .counter]) : p.Same m (m.ticked ticks) := by
  have hticks : p.Same m (m.ticks ticks) :=
    same_ticks ticks m (by simp_all)
  cases p <;> simp_all [Part.Same, ticked]

/-- The registers hold what they held. -/
theorem value_ticked (ticks : Nat) (m : Machine) (x : Register) :
    (m.ticked ticks).value x = m.value x :=
  value_of_same (same_ticked ticks m (by decide)) x

/-- The word at the program counter depends on memory and the counter only. -/
theorem word_of_same {m n : Machine} (hmemory : Part.memory.Same m n)
    (hcounter : Part.counter.Same m n) : n.word = m.word := by
  simp only [Part.Same] at hmemory hcounter
  simp only [word, wordAt, byteAt, hmemory, hcounter]

/-- Ticks leave the word at the program counter where it is. -/
theorem word_ticks (ticks : Nat) (m : Machine) : (m.ticks ticks).word = m.word :=
  word_of_same (same_ticks ticks m (by decide)) (same_ticks ticks m (by decide))

/-- A fetch after some ticks reads the word at the program counter. -/
theorem fetch_ticks {m : Machine} (h : m.Bounded) (ticks : Nat) :
    (m.ticks ticks).fetch = if m.counter + 1 < 4096 then .ok (m.word, m.ticked ticks)
      else .error (.memory (.counter m.counter)) := by
  have hcounter : (m.ticks ticks).counter = m.counter :=
    same_ticks (p := .counter) ticks m (by decide)
  have hlow := h.counter.1
  rw [fetch_eq (by omega), word_ticks, hcounter]
  rfl

/-- What a fetch after some ticks gives, if it gives anything. -/
theorem fetch_inv {m fetched : Machine} (h : m.Bounded) {ticks : Nat} {w : Int}
    (hfetch : (m.ticks ticks).fetch = .ok (w, fetched)) :
    m.counter + 1 < 4096 ∧ w = m.word ∧ fetched = m.ticked ticks := by
  rw [fetch_ticks h] at hfetch
  split at hfetch <;> cases hfetch
  exact ⟨‹_›, rfl, rfl⟩

/-- After the fetch the machine is within the tighter bounds. -/
theorem Bounded.ticked {m : Machine} (h : m.Bounded) (ticks : Nat) (hend : m.counter + 1 < 4096) :
    (m.ticked ticks).Fetched :=
  (h.ticks ticks).fetch (by rw [fetch_ticks h, if_pos hend])

end Machine

namespace Emulator

/-- The instruction that a cycle executes to its end, if it does so. -/
def executed? (delta : Number) (e : Emulator) : Option (Instruction Register) :=
  match (e.cycle delta).result with
  | .error _ => none
  | .ok () => if e.machine.waiting then none else Instruction.ofWord? e.machine.word

/-- All that a cycle can do to the machine. -/
inductive MachineStep (delta : Number) (e : Emulator) (after : Machine) : Prop where
  /-- Nothing but ticks. -/
  | idle (ticks : Nat) (hnone : e.executed? delta = none) (hafter : after = e.machine.ticks ticks)
  /-- The fetched word is refused. -/
  | refused (ticks : Nat) (hnone : e.executed? delta = none) (hwaiting : e.machine.waiting = false)
      (hend : e.machine.counter + 1 < 4096)
      (hrefused : ∀ i, Instruction.ofWord? e.machine.word = some i →
        i.refusal (e.machine.ticked ticks) ≠ none)
      (hafter : after = e.machine.ticked ticks)
  | executed (ticks : Nat) (i : Instruction Register) (hsome : e.executed? delta = some i)
      (hwaiting : e.machine.waiting = false) (hend : e.machine.counter + 1 < 4096)
      (hword : Instruction.ofWord? e.machine.word = some i)
      (hexec : i.exec e.random.next (e.machine.ticked ticks) = done after)

variable {e : Emulator} {delta : Number}

/-- A cycle that fails executes nothing to its end. -/
theorem executed?_of_error {f : EmulatorFault} (h : (e.cycle delta).result = .error f) :
    e.executed? delta = none := by
  simp only [executed?, h]

/-- Nor does one that waits for a key. -/
theorem executed?_of_waiting (h : e.machine.waiting = true) : e.executed? delta = none := by
  unfold executed?
  split
  · rfl
  · rw [if_pos h]

/-- Any other executes the instruction at the program counter. -/
theorem executed?_of_ok (h : (e.cycle delta).result = .ok ())
    (hwaiting : e.machine.waiting = false) :
    e.executed? delta = Instruction.ofWord? e.machine.word := by
  simp only [executed?, h, hwaiting, Bool.false_eq_true, if_false]

/-- Only the instruction at the program counter is ever executed. -/
theorem ofWord?_of_executed? {i : Instruction Register} (h : e.executed? delta = some i) :
    Instruction.ofWord? e.machine.word = some i := by
  unfold executed? at h
  split at h
  · cases h
  · split at h
    · cases h
    · exact h

/-- Without a program nothing is executed. -/
theorem loaded_of_executed? {i : Instruction Register} (h : e.executed? delta = some i) :
    e.loaded = true := by
  cases hloaded : e.loaded with
  | true => rfl
  | false =>
    have hfail : e.cycle delta = .fail e .notLoaded := by
      rw [cycle, if_pos (by simp [hloaded])]
    rw [executed?_of_error (by rw [hfail]; rfl)] at h
    cases h

/-- **A cycle does one of three things to the machine.** -/
theorem machine_step (h : e.Sound) (delta : Number) :
    MachineStep delta e (e.cycle delta).emulator.machine := by
  have hcycle := cycle_cases h.runner delta
  generalize hr : e.cycle delta = r at hcycle ⊢
  cases hcycle with
  | unloaded => exact .idle 0 (executed?_of_error (by rw [hr]; rfl)) rfl
  | backwards => exact .idle 0 (executed?_of_error (by rw [hr]; rfl)) rfl
  | untimed => exact .idle 0 (executed?_of_error (by rw [hr])) rfl
  | waited htimed hwaiting =>
    rw [close_eq]
    exact .idle _ (executed?_of_waiting hwaiting) rfl
  | unfetched => exact .idle _ (executed?_of_error (by rw [hr])) rfl
  | @refused due word fetched stopped f random _ hwaiting hfetch hrun =>
    have hnone : e.executed? delta = none := executed?_of_error (by rw [hr])
    obtain ⟨hend, rfl, rfl⟩ := fetch_inv h.bounded hfetch
    have hbounded := (h.bounded.ticked (min due maxTicks).toNat hend).toBounded
    have hrefused : ∀ i, Instruction.ofWord? e.machine.word = some i →
        i.refusal (e.machine.ticked (min due maxTicks).toNat) ≠ none := by
      intro i hword haccepted
      obtain ⟨after, -, hdone⟩ := runWord_of_accepted hbounded hword haccepted e.random
      rw [hdone] at hrun
      cases hrun
    refine .refused _ hnone hwaiting hend hrefused ?_
    obtain ⟨after, hdone⟩ | ⟨fault, hstopped⟩ := runWord_atomic hbounded e.machine.word e.random
    · rw [hrun] at hdone
      cases hdone
    · rw [hrun] at hstopped
      cases hstopped
      rfl
  | @completed due word fetched after random _ hwaiting hfetch hrun =>
    rw [close_eq] at hr ⊢
    have hexecuted := executed?_of_ok (by rw [hr]) hwaiting
    obtain ⟨hend, rfl, rfl⟩ := fetch_inv h.bounded hfetch
    cases hword : Instruction.ofWord? e.machine.word with
    | none =>
      rw [runWord_of_none hword] at hrun
      cases hrun
    | some i =>
      rw [runWord_of_some hword, Instruction.run] at hrun
      exact .executed _ i (hexecuted.trans hword) hwaiting hend hword (congrArg Prod.fst hrun)

/-- **A cycle that gets under way fails only with its instruction.** -/
theorem result_cycle (h : e.Sound) {due : Int} (htimed : Timed delta due e)
    (hwaiting : e.machine.waiting = false) (hend : e.machine.counter + 1 < 4096)
    {i : Instruction Register} (hword : Instruction.ofWord? e.machine.word = some i) :
    (e.cycle delta).result =
      match i.refusal (e.machine.ticked (min due maxTicks).toNat) with
      | none => .ok ()
      | some f => .error (.machine f) := by
  have hcycle := cycle_cases h.runner delta
  generalize e.cycle delta = r at hcycle ⊢
  cases hcycle with
  | unloaded hloaded => simp [htimed.loaded] at hloaded
  | backwards _ hforward => simp [htimed.forward] at hforward
  | untimed _ _ hdue => simp [htimed.ticks] at hdue
  | waited _ hwaits => simp [hwaiting] at hwaits
  | unfetched _ _ hfetch =>
    rw [elapse, fetch_ticks h.bounded, if_pos hend] at hfetch
    cases hfetch
  | refused htimed' _ hfetch hrun =>
    obtain ⟨-, rfl, rfl⟩ := fetch_inv h.bounded hfetch
    cases htimed.ticks.symm.trans htimed'.ticks
    cases hrefusal : i.refusal (e.machine.ticked (min due maxTicks).toNat) with
    | none =>
      have hbounded := (h.bounded.ticked (min due maxTicks).toNat hend).toBounded
      obtain ⟨after, -, hdone⟩ := runWord_of_accepted hbounded hword hrefusal e.random
      rw [hdone] at hrun
      cases hrun
    | some f =>
      rw [runWord_of_refused hword hrefusal] at hrun
      cases hrun
      rfl
  | completed htimed' _ hfetch hrun =>
    obtain ⟨-, rfl, rfl⟩ := fetch_inv h.bounded hfetch
    cases htimed.ticks.symm.trans htimed'.ticks
    cases hrefusal : i.refusal (e.machine.ticked (min due maxTicks).toNat) with
    | none => rw [close_eq]
    | some f =>
      rw [runWord_of_refused hword hrefusal] at hrun
      cases hrun

/-- **What a cycle that gets under way executes.**  It is the instruction at the program counter,
unless that is refused. -/
theorem executed?_eq (h : e.Sound) {due : Int} (htimed : Timed delta due e)
    (hwaiting : e.machine.waiting = false) (hend : e.machine.counter + 1 < 4096)
    {i : Instruction Register} (hword : Instruction.ofWord? e.machine.word = some i) :
    e.executed? delta =
      if i.refusal (e.machine.ticked (min due maxTicks).toNat) = none then some i else none := by
  have hresult := result_cycle h htimed hwaiting hend hword
  cases hrefusal : i.refusal (e.machine.ticked (min due maxTicks).toNat) with
  | none =>
    rw [hrefusal] at hresult
    rw [if_pos rfl, executed?_of_ok hresult hwaiting, hword]
  | some f =>
    rw [hrefusal] at hresult
    rw [if_neg (by simp), executed?_of_error hresult]

end Emulator

end ChipEight
