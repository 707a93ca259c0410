import ChipEight.Proofs.Emulator.Cycle
import ChipEight.Proofs.Machine.Preservation

/-!
# Every run stays within the bounds

The emulator executes what it fetches, and its machine is within the bounds of `Machine.Bounded`:
that is `Emulator.Sound`.  Every call keeps it, whether it succeeds or fails (`Sound.next`), and so
every run from a new emulator does (`sound_after`).

The bound on the program counter is the point of it.  It makes each of the three places where a
counter is taken modulo 65536 exact: a fetch and a skip add two, going back to wait for a key takes
two away, and the address in a trace line, two below the counter, is that of the fetched word.
-/

namespace ChipEight

namespace Emulator

/-- The emulator executes what it fetches, on a machine within the bounds. -/
structure Sound (e : Emulator) : Prop where
  runner : e.runner = .execute
  bounded : e.machine.Bounded

/-- A new emulator is sound. -/
theorem sound_new (random : RandomSource) (hasTone : Bool) : (new random hasTone).Sound where
  runner := rfl
  bounded := Machine.bounded_new

namespace Sound

variable {e : Emulator}

/-- A key that is pressed is one of the keypad's, so the captured key stays within its bounds. -/
theorem press (h : e.machine.Bounded) {key : Int} (hkey : 0 ≤ key ∧ key < 16) :
    (e.machine.press key).Bounded := by
  unfold Machine.press
  split
  · exact { h with
      pendingKey := fun captured hcaptured => by
        cases hcaptured
        omega }
  · exact { h with }

/-- A cycle keeps the bounds, wherever it ends. -/
theorem cycle (h : e.Sound) (delta : Number) : (e.cycle delta).emulator.Sound := by
  have hcycle := cycle_cases h.runner delta
  generalize e.cycle delta = r at hcycle ⊢
  cases hcycle with
  | unloaded => exact h
  | backwards => exact h
  | untimed => exact ⟨h.runner, h.bounded⟩
  | waited =>
    rw [close_eq]
    exact ⟨h.runner, h.bounded.ticks _⟩
  | unfetched => exact ⟨h.runner, h.bounded.ticks _⟩
  | @refused due word fetched stopped f random _ _ hfetch hrun =>
    have hstopped := ((h.bounded.ticks _).fetch hfetch).runWord word e.random
    rw [hrun] at hstopped
    exact ⟨(poised_runner delta due word fetched e).trans h.runner, hstopped⟩
  | @completed due word fetched done random _ _ hfetch hrun =>
    have hdone := ((h.bounded.ticks _).fetch hfetch).runWord word e.random
    rw [hrun] at hdone
    rw [close_eq]
    exact ⟨(poised_runner delta due word fetched e).trans h.runner, hdone⟩

/-- **Every call keeps the bounds.** -/
theorem next (h : e.Sound) (c : Call) : (c.next e).Sound := by
  cases c with
  | load program =>
    obtain hsame | ⟨-, loaded, hload, hnext⟩ := Call.next_load program e
    · rw [hsame]
      exact h
    · rw [hnext]
      exact ⟨h.runner, h.bounded.load hload⟩
  | reset =>
    rw [Call.next_reset]
    exact ⟨h.runner, Machine.bounded_new⟩
  | keyDown key =>
    rw [Call.next_keyDown]
    split
    · exact ⟨h.runner, press h.bounded ‹_›⟩
    · exact h
  | keyUp key =>
    rw [Call.next_keyUp]
    split
    · exact ⟨h.runner, { h.bounded with }⟩
    · exact h
  | cycle delta => exact h.cycle delta
  | trace on => exact ⟨h.runner, h.bounded⟩
  | listen name => exact ⟨h.runner, h.bounded⟩

/-- Every run keeps the bounds. -/
theorem after (h : e.Sound) (calls : List Call) : (e.after calls).Sound :=
  after_induction (fun c _ h => h.next c) calls h

end Sound

/-- Every run from a new emulator leaves a sound one. -/
theorem sound_after (random : RandomSource) (hasTone : Bool) (calls : List Call) :
    ((new random hasTone).after calls).Sound :=
  (sound_new random hasTone).after calls

end Emulator

namespace Machine

variable {m : Machine}

/-- Sixteen registers hold a byte each. -/
theorem registerValues_bounds (m : Machine) :
    m.registerValues.length = 16 ∧ ∀ v ∈ m.registerValues, 0 ≤ v ∧ v ≤ 255 := by
  refine ⟨by simp [registerValues], ?_⟩
  intro v hv
  obtain ⟨b, -, rfl⟩ := List.mem_map.mp hv
  have hb := b.toNat_lt
  omega

/-- **No mask wraps round.**  After any ticks, a fetch moves the counter by two exactly, a skip by
two more, and going back to the fetched word takes exactly these two away. -/
theorem Bounded.counter_of_fetch (h : m.Bounded) {ticks : Nat} {word : Int} {fetched : Machine}
    (hfetch : (m.ticks ticks).fetch = .ok (word, fetched)) :
    fetched.counter = m.counter + 2 ∧ fetched.skip.counter = m.counter + 4 ∧
      fetched.awaitKey.counter = m.counter ∧ 0 ≤ fetched.counter - 2 := by
  have hbehind := ((h.ticks ticks).fetch hfetch).behind
  have hlow := h.counter.1
  have hcounter : (m.ticks ticks).counter = m.counter :=
    same_ticks (p := .counter) ticks m (by decide)
  have hnext : fetched.counter = m.counter + 2 := by
    rw [fetch_eq (by omega)] at hfetch
    split at hfetch <;> cases hfetch
    exact congrArg (· + 2) hcounter
  have hskip : fetched.skip.counter = fetched.counter + 2 := wrap_of_lt (by omega) (by omega)
  have hback : fetched.awaitKey.counter = fetched.counter - 2 := wrap_of_lt (by omega) (by omega)
  omega

end Machine

namespace Emulator

/-- **Every run stays within the bounds.**  After any calls to a new emulator, with any programs,
random bytes and time steps, and whether the calls succeed or fail, the machine is within its
bounds.  Its registers hold bytes, its memory and its display, of rows of sixty-four pixels each,
keep their sizes, and the next fetch, the skip or the wait for a key that may follow it, and the
address in a trace line are exact. -/
theorem run_within_bounds (random : RandomSource) (hasTone : Bool) (calls : List Call) :
    let m := ((new random hasTone).after calls).machine
    m.Bounded ∧
    (m.registerValues.length = 16 ∧ ∀ v ∈ m.registerValues, 0 ≤ v ∧ v ≤ 255) ∧
    m.memory.toList.length = 4096 ∧
    m.display.toList.length = 32 ∧
    ∀ ticks word fetched, (m.ticks ticks).fetch = .ok (word, fetched) →
      fetched.counter = m.counter + 2 ∧ fetched.skip.counter = m.counter + 4 ∧
        fetched.awaitKey.counter = m.counter ∧ 0 ≤ fetched.counter - 2 := by
  have hbounded := (sound_after random hasTone calls).bounded
  intro m
  refine ⟨hbounded, m.registerValues_bounds, by simp, by simp, ?_⟩
  intro ticks word fetched hfetch
  exact hbounded.counter_of_fetch hfetch

/-- Right after a program of one jump to itself has been loaded, it is fetched from `0x200`. -/
theorem run_within_bounds_of_loop :
    ∃ fetched,
      (((new (.cycle #[]) true).after [.load [0x12, 0x00]]).machine.ticks 0).fetch =
        .ok (((new (.cycle #[]) true).after [.load [0x12, 0x00]]).machine.word, fetched) ∧
      fetched.skip.counter = 0x204 ∧ fetched.awaitKey.counter = 0x200 := by
  have hfetch := Machine.fetch_eq
    (m := ((new (.cycle #[]) true).after [.load [0x12, 0x00]]).machine.ticks 0) (by decide)
  rw [if_pos (by decide)] at hfetch
  obtain ⟨-, hskip, hback, -⟩ :=
    (run_within_bounds (.cycle #[]) true [.load [0x12, 0x00]]).2.2.2.2 0 _ _ hfetch
  exact ⟨_, hfetch, hskip, hback⟩

end Emulator

end ChipEight
