import ChipEight.Proofs.Emulator.MachineStep
import ChipEight.Proofs.Machine.Access
import ChipEight.Proofs.Machine.WatchedEffect

/-!
# No cycle asks for what is not there

Once its ticks have passed, a cycle reads the two bytes of a word and executes it.  `Emulator.watch`
is that part of a cycle with all its accesses noted.  `cycle_safe` says that it is what the cycle
does: the machine and the result are the same.  And in any run all accesses are within the machine,
so a cycle that fails does so with one of the faults that a program can cause.
-/

namespace ChipEight

/-- A fault that a program can cause, as opposed to a cell that is not there. -/
def Fault.OfProgram : Fault → Prop
  | unknownOpcode .. | flow _ | memory _ | input _ => True
  | cell _ => False

namespace Watched

open Outcome Machine

/-- Reads an instruction word and executes it. -/
def runWord (byte : UInt8) (word : Int) (m : Machine) : Watched :=
  match Instruction.ofWord? word with
  | some i => (i.map fun x => (x.val : Int)).watch byte m
  | none => ended (stopped m (.unknownOpcode word m.counter m.registerValues))

/-- Fetches the word at the program counter, byte by byte, and executes it. -/
def step (byte : UInt8) (m : Machine) : Watched :=
  if memorySize ≤ m.counter + 1 then ended (stopped m (.memory (.counter m.counter)))
  else
    read .memory m.memory m.counter m fun high =>
    read .memory m.memory (m.counter + 1) m fun low =>
      runWord byte (high.toNat * 256 + low.toNat) { m with counter := wrap (m.counter + 2) }

variable {m : Machine}

/-- Watching a word does not change its effect. -/
theorem outcome_runWord (word : Int) (source : RandomSource) (m : Machine) :
    (runWord source.next word m).outcome = (m.runWord word source).1 := by
  unfold runWord Machine.runWord
  cases Instruction.ofWord? word with
  | none => rfl
  | some i =>
    dsimp only
    rw [Instruction.outcome_watch, Instruction.effect_map_val]
    rfl

/-- On a machine within its bounds a word is safe, and if it is refused, the program is to blame. -/
theorem safe_runWord (hm : m.Bounded) (byte : UInt8) (word : Int) :
    (runWord byte word m).Safe ∧ ∀ f, (runWord byte word m).outcome.fault? = some f → f.OfProgram := by
  unfold runWord
  cases hword : Instruction.ofWord? word with
  | none =>
    refine ⟨safe_ended _, fun f hf => ?_⟩
    cases hf
    trivial
  | some i =>
    have hi := matches_of_ofWord? hword
    refine ⟨Instruction.watch_safe byte hm hi, fun f hf => ?_⟩
    dsimp only at hf
    rw [Instruction.outcome_watch, Instruction.effect_map_val, Instruction.fault?_exec byte hm hi] at hf
    obtain ⟨_, rfl⟩ | ⟨_, rfl⟩ | ⟨_, rfl⟩ := refusal_kind hf <;> trivial

/-- Where a word ends within memory, its two bytes are read. -/
theorem step_of_lt (hm : m.Bounded) (h : m.counter + 1 < 4096) (byte : UInt8) :
    step byte m =
      noting (.cell .memory m.counter) (noting (.cell .memory (m.counter + 1))
        (runWord byte m.word { m with counter := m.counter + 2 })) := by
  have hlow := hm.counter.1
  have hhigh : Cells.read? m.memory m.counter = .ok (m.byteAt m.counter.toNat) := by
    have hread := m.read?_memory (k := m.counter.toNat) (by omega)
    rwa [Int.toNat_of_nonneg hlow] at hread
  have hnext : Cells.read? m.memory (m.counter + 1) = .ok (m.byteAt (m.counter.toNat + 1)) := by
    have hread := m.read?_memory (k := m.counter.toNat + 1) (by omega)
    rwa [Int.natCast_add, Int.toNat_of_nonneg hlow] at hread
  rw [step, if_neg (by simp only [memorySize]; omega), wrap_of_lt (by omega) (by omega)]
  simp only [read, hhigh, hnext, attempt]
  rfl

/-- Watching the fetch of a word and the word does not change their effect. -/
theorem outcome_step (hm : m.Bounded) (source : RandomSource) :
    (step source.next m).outcome =
      match m.fetch with
      | .error f => stopped m f
      | .ok (word, fetched) => (fetched.runWord word source).1 := by
  rw [fetch_eq hm.counter.1]
  by_cases hend : m.counter + 1 < 4096
  · rw [step_of_lt hm hend, if_pos hend]
    exact outcome_runWord m.word source _
  · rw [step, if_pos (by simp only [memorySize]; omega), if_neg hend]
    rfl

/-- **A word is fetched and executed within the machine.**  Watching that does not change what comes
of it, and a fault is one that the program can cause. -/
theorem step_safe (hm : m.Bounded) (byte : UInt8) :
    (step byte m).Safe ∧ ∀ f, (step byte m).outcome.fault? = some f → f.OfProgram := by
  have hlow := hm.counter.1
  by_cases hend : m.counter + 1 < 4096
  · have hfetched : Bounded { m with counter := m.counter + 2 } := hm.withCounter (by omega)
    obtain ⟨hsafe, hfault⟩ := safe_runWord hfetched byte m.word
    rw [step_of_lt hm hend]
    refine ⟨safe_noting ?_ (safe_noting ?_ hsafe), hfault⟩
    all_goals simp only [Access.Within, Row.size, memorySize]; omega
  · rw [step, if_pos (by simp only [memorySize]; omega)]
    refine ⟨safe_ended _, fun f hf => ?_⟩
    cases hf
    trivial

end Watched

namespace Emulator

open Watched

/-- The part of a cycle that fetches a word and executes it, unless a key is waited for. -/
def watch (e : Emulator) : Watched :=
  if e.machine.waiting then complete e.machine else Watched.step e.random.next e.machine

variable {e : Emulator} {delta : Number} {due : Int}

/-- The clock draws no random byte. -/
theorem elapse_random (delta : Number) (due : Int) (e : Emulator) :
    (e.elapse delta due).random = e.random := rfl

/-- While a key is waited for, nothing is accessed. -/
theorem watch_of_waiting (h : e.machine.waiting = true) : e.watch = complete e.machine := by
  rw [watch, if_pos h]

theorem watch_of_not_waiting (h : e.machine.waiting = false) :
    e.watch = Watched.step e.random.next e.machine := by
  rw [watch, if_neg (by simp [h])]

/-- **That part of a cycle is all that the cycle does to the machine** after its ticks, and gives the
result. -/
theorem cycle_watch (h : e.Sound) (htimed : Timed delta due e) :
    (e.cycle delta).emulator.machine = (e.elapse delta due).watch.outcome.machine ∧
      (e.cycle delta).result =
        match (e.elapse delta due).watch.outcome.fault? with
        | none => .ok ()
        | some f => .error (.machine f) := by
  have hm : (e.elapse delta due).machine.Bounded := h.bounded.ticks _
  have hsame := waiting_elapse delta due e
  have hstep := Watched.outcome_step hm e.random
  have hcycle := cycle_cases h.runner delta
  generalize e.cycle delta = r at hcycle ⊢
  cases hcycle with
  | unloaded hloaded => simp [htimed.loaded] at hloaded
  | backwards _ hforward => simp [htimed.forward] at hforward
  | untimed _ _ hdue => simp [htimed.ticks] at hdue
  | waited htimed' hwaiting =>
    cases htimed.ticks.symm.trans htimed'.ticks
    rw [watch_of_waiting (hsame.trans hwaiting), close_eq]
    exact ⟨rfl, rfl⟩
  | unfetched htimed' hwaiting hfetch =>
    cases htimed.ticks.symm.trans htimed'.ticks
    rw [hfetch] at hstep
    rw [watch_of_not_waiting (hsame.trans hwaiting), elapse_random, hstep]
    exact ⟨rfl, rfl⟩
  | refused htimed' hwaiting hfetch hrun =>
    cases htimed.ticks.symm.trans htimed'.ticks
    simp only [hfetch, hrun] at hstep
    rw [watch_of_not_waiting (hsame.trans hwaiting), elapse_random, hstep]
    exact ⟨rfl, rfl⟩
  | completed htimed' hwaiting hfetch hrun =>
    cases htimed.ticks.symm.trans htimed'.ticks
    simp only [hfetch, hrun] at hstep
    rw [watch_of_not_waiting (hsame.trans hwaiting), elapse_random, hstep, close_eq]
    exact ⟨rfl, rfl⟩

/-- It is safe on a machine within its bounds. -/
theorem watch_safe (hm : e.machine.Bounded) :
    e.watch.Safe ∧ ∀ f, e.watch.outcome.fault? = some f → f.OfProgram := by
  unfold watch
  split
  · refine ⟨safe_complete _, fun f hf => ?_⟩
    cases hf
  · exact step_safe hm e.random.next

/-- **No cycle asks for what is not there.**  After any run, a cycle that gets under way with a
finite number of ticks succeeds or fails with a fault that a program can cause.  What it does to the
machine after its ticks is noted access by access, and all these accesses are within the machine: no
index, pixel or slice is out of bounds, no slice is filled with more or fewer cells than it has, and
no number is too large for its cell. -/
theorem cycle_safe (random : RandomSource) (hasTone : Bool) (calls : List Call) (delta : Number)
    (due : Int) (htimed : Timed delta due ((new random hasTone).after calls)) :
    let e := (new random hasTone).after calls
    let w := (e.elapse delta due).watch
    (e.cycle delta).emulator.machine = w.outcome.machine ∧
      ((e.cycle delta).result = .ok () ∧ w.outcome.fault? = none ∨
        ∃ f : Fault, f.OfProgram ∧ (e.cycle delta).result = .error (.machine f) ∧
          w.outcome.fault? = some f) ∧
      ∀ access ∈ w.accesses, access.Within := by
  intro e w
  have h := sound_after random hasTone calls
  have hm : (e.elapse delta due).machine.Bounded := h.bounded.ticks _
  obtain ⟨hsafe, hprogram⟩ := watch_safe hm
  obtain ⟨hmachine, hresult⟩ := cycle_watch h htimed
  refine ⟨hmachine, ?_, hsafe⟩
  cases hfault : w.outcome.fault? with
  | none => exact .inl ⟨by rw [hresult, hfault], rfl⟩
  | some f => exact .inr ⟨f, hprogram f hfault, by rw [hresult, hfault], rfl⟩

/-- Two registers are saved at `0x300` by asking for nothing but these cells. -/
theorem cycle_safe_of_save :
    let e := (new (.cycle #[]) true).after [.load [0xA3, 0x00, 0xF1, 0x55], .cycle (.integer 0)]
    let w := (e.elapse (.integer 0) 0).watch
    Timed (.integer 0) 0 e ∧
      w.accesses = [.cell .memory 0x202, .cell .memory 0x203, .span .registers 0 2,
        .span .memory 0x300 0x302, .fill 2 2] ∧
      ∀ access ∈ w.accesses, access.Within := by
  intro e w
  have htimed : Timed (.integer 0) 0 e := ⟨by decide +kernel, by decide +kernel, by decide +kernel⟩
  refine ⟨htimed, by decide +kernel, ?_⟩
  exact (cycle_safe _ _ _ _ _ htimed).2.2

end Emulator

end ChipEight
