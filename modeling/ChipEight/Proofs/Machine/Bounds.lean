import ChipEight.Machine.State

/-!
# The bounds of the machine

The program counter, the address register, the stack pointer and the timers are plain integers.
`Machine.Bounded` says how far they can get.  The bound on the program counter is tight: a fetch
leaves it at `0x1000` or below, since the word has to end within memory, and a skip adds two.  A
stack entry is a counter right after a fetch, so it stays two lower.

Reading a word and counting down say what they do once, under the bounds, and are not unfolded
afterwards:

* `ticks_eq` gives several ticks at once: each timer loses them all, down to zero;
* `fetch_eq` gives a fetch: the word at the counter, or the fault of a counter at the end of
  memory.  Within the bounds no mask wraps round.
-/

namespace ChipEight

/-- An index within its row means the cell at that place. -/
theorem Cells.index?_of_lt {size k : Nat} (h : k < size) :
    Cells.index? size (k : Int) = .ok ⟨k, h⟩ := by
  have hk : (k : Int) < size := by omega
  have hpos : ¬(k : Int) < 0 := by omega
  simp only [Cells.index?, hpos, if_false, Int.toNat_natCast]
  rw [dif_pos ⟨by omega, hk⟩]

/-- The cell at a place within its row is read. -/
theorem Cells.read?_of_lt {α : Type} {size : Nat} (cells : Vector α size) {k : Nat}
    (h : k < size) : Cells.read? cells (k : Int) = .ok cells[k] := by
  rw [Cells.read?, Cells.index?_of_lt h]
  rfl

namespace Machine

/-- The bounds within which every run keeps the machine. -/
structure Bounded (m : Machine) : Prop where
  stackPointer : 0 ≤ m.stackPointer ∧ m.stackPointer ≤ 16
  delayTimer : 0 ≤ m.delayTimer ∧ m.delayTimer ≤ 255
  soundTimer : 0 ≤ m.soundTimer ∧ m.soundTimer ≤ 255
  index : 0 ≤ m.index ∧ m.index ≤ 0xFFFF
  counter : 0 ≤ m.counter ∧ m.counter ≤ 0x1002
  stack : ∀ k : Fin 16, m.stack[k].toNat ≤ 0x1000
  pendingKey : ∀ key, m.pendingKey = some key → 0 ≤ key ∧ key ≤ 15

/-- A bounded machine that has just fetched a word: the counter stands behind it. -/
structure Fetched (m : Machine) : Prop extends Bounded m where
  behind : 2 ≤ m.counter ∧ m.counter ≤ 0x1000

/-- A number that fits into sixteen bits is not changed by wrapping it. -/
theorem wrap_of_lt {a : Int} (low : 0 ≤ a) (high : a < 65536) : wrap a = a :=
  Int.emod_eq_of_lt low high

/-- A register holds a byte. -/
theorem value_bounds (m : Machine) (x : Register) : 0 ≤ m.value x ∧ m.value x ≤ 255 := by
  have h := (m.register x).toNat_lt
  simp only [value]
  omega

/-! ### Ticks -/

/-- A timer that is not below zero loses one, down to zero. -/
theorem countDown_eq {t : Int} (h : 0 ≤ t) : countDown t = max 0 (t - 1) := by
  unfold countDown
  split <;> omega

/-- **Several ticks at once.**  Each timer loses all of them, down to zero, and nothing else
changes. -/
theorem ticks_eq (n : Nat) (m : Machine) (hdelay : 0 ≤ m.delayTimer) (hsound : 0 ≤ m.soundTimer) :
    m.ticks n = { m with
      delayTimer := max 0 (m.delayTimer - n)
      soundTimer := max 0 (m.soundTimer - n) } := by
  induction n generalizing m with
  | zero =>
    have hd : max 0 (m.delayTimer - (0 : Nat)) = m.delayTimer := by omega
    have hs : max 0 (m.soundTimer - (0 : Nat)) = m.soundTimer := by omega
    rw [hd, hs]
    rfl
  | succ n ih =>
    have hd := countDown_eq hdelay
    have hs := countDown_eq hsound
    rw [ticks, ih m.tick (by simp only [tick]; omega) (by simp only [tick]; omega)]
    simp only [tick, hd, hs]
    congr 1 <;> omega

/-! ### Words in memory -/

/-- The byte at an address; beyond memory there are zeros. -/
def byteAt (m : Machine) (address : Nat) : UInt8 :=
  m.memory[address]?.getD 0

/-- The word at an address, high byte first. -/
def wordAt (m : Machine) (address : Nat) : Int :=
  (m.byteAt address).toNat * 256 + (m.byteAt (address + 1)).toNat

/-- The word at the program counter. -/
def word (m : Machine) : Int :=
  m.wordAt m.counter.toNat

/-- A word has sixteen bits. -/
theorem word_bounds (m : Machine) : 0 ≤ m.word ∧ m.word < 65536 := by
  have high := (m.byteAt m.counter.toNat).toNat_lt
  have low := (m.byteAt (m.counter.toNat + 1)).toNat_lt
  simp only [word, wordAt]
  omega

/-- An address within memory is that of a byte. -/
theorem read?_memory (m : Machine) {k : Nat} (h : k < 4096) :
    Cells.read? m.memory (k : Int) = .ok (m.byteAt k) := by
  rw [Cells.read?_of_lt m.memory h, byteAt, Vector.getElem?_eq_getElem h]
  rfl

/-- **A fetch.**  It reads the word at the program counter and moves the counter behind it, unless
the word does not end within memory. -/
theorem fetch_eq {m : Machine} (low : 0 ≤ m.counter) :
    m.fetch = if m.counter + 1 < 4096 then .ok (m.word, { m with counter := m.counter + 2 })
      else .error (.memory (.counter m.counter)) := by
  unfold fetch
  split
  next h =>
    rw [if_neg]
    simp only [memorySize] at h
    omega
  next h =>
    obtain ⟨a, ha⟩ : ∃ a : Nat, m.counter = a := ⟨m.counter.toNat, by omega⟩
    have high : a + 1 < 4096 := by
      simp only [memorySize] at h
      omega
    have hnext : m.counter + 1 = (a + 1 : Nat) := by omega
    have hhere : m.counter.toNat = a := by omega
    rw [if_pos (by omega), wrap_of_lt (by omega) (by omega), hnext, m.read?_memory high, ha,
      m.read?_memory (by omega), word, wordAt, hhere]

/-! ### What keeps the bounds -/

/-- A new machine is within the bounds. -/
theorem bounded_new : Bounded {} where
  stackPointer := by decide
  delayTimer := by decide
  soundTimer := by decide
  index := by decide
  counter := by decide
  stack k := by simp
  pendingKey key h := by cases h

namespace Bounded

variable {m : Machine}

/-- A stack that is not empty has a topmost cell. -/
theorem top_of_ne_zero (h : m.Bounded) (hsome : m.stackPointer ≠ 0) :
    ∃ k : Nat, m.stackPointer = (k + 1 : Nat) ∧ k < 16 := by
  have hsp := h.stackPointer
  exact ⟨(m.stackPointer - 1).toNat, by omega, by omega⟩

/-- A stack that is not full has a free cell. -/
theorem free_of_not_full (h : m.Bounded) (hroom : ¬16 ≤ m.stackPointer) :
    ∃ k : Nat, m.stackPointer = k ∧ k < 16 := by
  have hsp := h.stackPointer
  exact ⟨m.stackPointer.toNat, by omega, by omega⟩

/-- Ticks keep the bounds. -/
theorem ticks (h : m.Bounded) (n : Nat) : (m.ticks n).Bounded := by
  have hdelay := h.delayTimer
  have hsound := h.soundTimer
  rw [ticks_eq n m hdelay.1 hsound.1]
  exact { h with
    delayTimer := by dsimp only; omega
    soundTimer := by dsimp only; omega }

/-- Another place for the program counter, within its bounds. -/
theorem withCounter (h : m.Bounded) {a : Int} (ha : 0 ≤ a ∧ a ≤ 0x1002) :
    Bounded { m with counter := a } :=
  { h with counter := ha }

/-- Loading a program keeps the bounds. -/
theorem load (h : m.Bounded) {program : List UInt8} {loaded : Machine}
    (hload : m.load program = .ok loaded) : loaded.Bounded := by
  have hstart : 0 ≤ (programStart : Int) ∧ (programStart : Int) ≤ 0x1002 := by decide
  unfold Machine.load at hload
  split at hload <;> cases hload
  exact { h with counter := hstart }

/-- Behind the word that it has fetched, a machine is within tighter bounds. -/
theorem fetch (h : m.Bounded) {w : Int} {fetched : Machine}
    (hfetch : m.fetch = .ok (w, fetched)) : fetched.Fetched := by
  have hcounter := h.counter
  rw [fetch_eq hcounter.1] at hfetch
  split at hfetch <;> cases hfetch
  exact
    { h.withCounter (a := m.counter + 2) (by omega) with
      behind := by dsimp only; omega }

end Bounded

end Machine

end ChipEight
