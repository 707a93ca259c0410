import ChipEight.Listing
import ChipEight.Proofs.Machine.Store

/-!
# Walking straight through a program

A listing takes a program two bytes at a time.  A machine that has loaded the program and only fetches,
without executing anything, does the same in its memory.  `Machine.fetches` is such a walk: each word
comes with the place where the program counter stood before it was read.

As long as the bytes from the program counter on are those of a program (`Machine.Holds`), the walk is
the listing of these bytes at that address: `fetches_ofProgram`, by the recursion of the listing.  A
program that fits into memory ends there at the latest, so the last word of the longest program is still
read, and only a fetch after it would fail.
-/

namespace ChipEight

namespace Machine

/-- Fetches so many words without executing them, each with the place of the program counter before. -/
def fetches : Nat → Machine → Except Fault (List (Int × Int) × Machine)
  | 0, m => .ok ([], m)
  | n + 1, m => do
    let (word, next) ← m.fetch
    let (words, last) ← next.fetches n
    return ((m.counter, word) :: words, last)

/-- Some bytes stand in memory from an address on. -/
def Holds (address : Nat) (bytes : List UInt8) (m : Machine) : Prop :=
  ∀ k (hk : k < bytes.length), m.byteAt (address + k) = bytes[k]

variable {m loaded : Machine} {address : Nat} {program : List UInt8}

/-- The word at an address that holds two bytes. -/
theorem Holds.word {high low : UInt8} {rest : List UInt8}
    (h : m.Holds address (high :: low :: rest)) (hcounter : m.counter = address) :
    m.word = (high.toNat * 256 + low.toNat : Nat) := by
  have hhigh : m.byteAt address = high := h 0 (by simp)
  have hlow : m.byteAt (address + 1) = low := h 1 (by simp)
  have hhere : m.counter.toNat = address := by omega
  simp only [Machine.word, wordAt, hhere, hhigh, hlow]
  omega

/-- Behind two bytes the other ones stand, wherever the program counter is. -/
theorem Holds.behind {high low : UInt8} {rest : List UInt8}
    (h : m.Holds address (high :: low :: rest)) (counter : Int) :
    Holds (address + 2) rest { m with counter } := by
  intro k hk
  have hbyte : m.byteAt (address + (k + 2)) = rest[k] := by
    exact h (k + 2) (by simpa using hk)
  have hplace : address + 2 + k = address + (k + 2) := by omega
  rw [hplace]
  exact hbyte

/-- A program stands where it has been loaded, and the program counter is in front of it. -/
theorem holds_load (h : m.load program = .ok loaded) :
    loaded.Holds programStart program ∧ loaded.counter = programStart := by
  unfold load at h
  split at h <;> cases h
  next hsize =>
    refine ⟨?_, rfl⟩
    intro k hk
    simp only [maxProgramSize, memorySize] at hsize
    have hplace : programStart + k < 4096 := by omega
    rw [byteAt_of_lt _ hplace]
    exact Cells.getElem_write_of_mem program m.memory programStart k hk hplace

/-- **A walk is a listing.**  From the address of some bytes that end within memory, all their words are
fetched, in the order of their listing, and the program counter comes to stand behind them. -/
theorem fetches_ofProgram (hholds : m.Holds address program) (hcounter : m.counter = address)
    (hend : address + program.length ≤ 4096) :
    m.fetches (program.length / 2) =
      .ok ((Listing.ofProgram address program).map fun l => (l.address, (l.word : Int)),
        { m with counter := (address + program.length / 2 * 2 : Nat) }) := by
  obtain ⟨origin, horigin⟩ : ∃ origin : Int, origin = address := ⟨address, rfl⟩
  rw [← horigin]
  induction origin, program using Listing.ofProgram.induct generalizing m address with
  | case1 origin high low rest ih =>
    have hlength : (high :: low :: rest).length / 2 = rest.length / 2 + 1 := by
      simp only [List.length_cons]
      omega
    simp only [List.length_cons] at hend
    have hfetch : m.fetch =
        .ok ((high.toNat * 256 + low.toNat : Nat), { m with counter := (address + 2 : Nat) }) := by
      rw [fetch_eq (by omega), if_pos (by omega), hholds.word hcounter]
      simp only [hcounter]
      rfl
    have hrest := ih (hholds.behind (address + 2 : Nat)) rfl (by omega) (by omega)
    have hbehind : address + 2 + rest.length / 2 * 2 = address + (rest.length / 2 + 1) * 2 := by omega
    rw [hlength, fetches, hfetch]
    simp only [bind, Except.bind, hrest, hbehind, hcounter, horigin, Listing.ofProgram, List.map_cons]
    rfl
  | case2 program origin hshort =>
    have hlisting : Listing.ofProgram origin program = [] :=
      Listing.ofProgram.eq_2 origin program hshort
    rw [hlisting, Listing.half_length_of_nil hlisting, Nat.zero_mul, Nat.add_zero, ← hcounter]
    rfl

end Machine

namespace Listing

open Machine

/-- The bytes of a word, the high one first. -/
def bytes (l : Listing) : List UInt8 :=
  [UInt8.ofNat (l.word / 256), UInt8.ofNat (l.word % 256)]

/-- The same line further down, or further up. -/
def shift (distance : Int) (l : Listing) : Listing :=
  { l with address := l.address + distance }

/-- What a listing leaves out is a last byte that is half a word. -/
theorem flatMap_bytes (origin : Int) (program : List UInt8) :
    (ofProgram origin program).flatMap bytes = program.take (program.length / 2 * 2) := by
  induction origin, program using ofProgram.induct with
  | case1 origin high low rest ih =>
    have hlength : (high :: low :: rest).length / 2 * 2 = rest.length / 2 * 2 + 1 + 1 := by
      simp only [List.length_cons]
      omega
    have hlow := low.toNat_lt
    have hdiv : (high.toNat * 256 + low.toNat) / 256 = high.toNat := by omega
    have hmod : (high.toNat * 256 + low.toNat) % 256 = low.toNat := by omega
    rw [hlength, List.take_succ_cons, List.take_succ_cons, ofProgram, List.flatMap_cons, ih]
    simp only [bytes, hdiv, hmod, UInt8.ofNat_toNat]
    rfl
  | case2 program origin hshort =>
    have hlisting : ofProgram origin program = [] := ofProgram.eq_2 origin program hshort
    rw [hlisting, half_length_of_nil hlisting, Nat.zero_mul, List.take_zero]
    rfl

/-- Each line shows a word of sixteen bits, and its text. -/
theorem line_of_mem {origin : Int} {program : List UInt8} {l : Listing}
    (h : l ∈ ofProgram origin program) : l.word < 65536 ∧ l.text = mnemonic l.word := by
  induction origin, program using ofProgram.induct with
  | case1 origin high low rest ih =>
    rw [ofProgram, List.mem_cons] at h
    rcases h with rfl | h
    · have hhigh := high.toNat_lt
      have hlow := low.toNat_lt
      exact ⟨by dsimp only; omega, rfl⟩
    · exact ih h
  | case2 program origin hshort =>
    rw [ofProgram.eq_2 origin program hshort] at h
    cases h

/-- The origin of a listing shifts it as a whole. -/
theorem ofProgram_shift (origin distance : Int) (program : List UInt8) :
    ofProgram (origin + distance) program = (ofProgram origin program).map (shift distance) := by
  induction origin, program using ofProgram.induct with
  | case1 origin high low rest ih =>
    have hnext : origin + distance + 2 = origin + 2 + distance := by omega
    rw [ofProgram, ofProgram, List.map_cons, hnext, ih]
    rfl
  | case2 program origin hshort =>
    rw [ofProgram.eq_2 origin program hshort, ofProgram.eq_2 (origin + distance) program hshort]
    rfl

/-- **The listing of a program is what a machine fetches.**  A program that fits into memory can be loaded
into any machine.  If nothing is executed, as many words as the listing has lines are then fetched one
after the other without a fault: the words that it lists, each from the address where it lists it.
Nothing but the program counter is different afterwards.

A listing from any origin has a line for every two bytes.  The bytes of its words make up the program, but
for a trailing odd byte, and each line has the text of its word.  Another origin only shifts the addresses.
-/
theorem listing_is_fetched (program : List UInt8) :
    (program.length ≤ maxProgramSize → ∀ m : Machine, ∃ loaded, m.load program = .ok loaded ∧
      loaded.fetches (program.length / 2) =
        .ok ((ofProgram programStart program).map fun l => (l.address, (l.word : Int)),
          { loaded with counter := (programStart + program.length / 2 * 2 : Nat) })) ∧
    ∀ origin : Int,
      (ofProgram origin program).length = program.length / 2 ∧
      (ofProgram origin program).flatMap bytes = program.take (program.length / 2 * 2) ∧
      (∀ l ∈ ofProgram origin program, l.word < 65536 ∧ l.text = mnemonic l.word) ∧
      ∀ other : Int,
        ofProgram other program = (ofProgram origin program).map (shift (other - origin)) := by
  constructor
  · intro hsize m
    obtain ⟨loaded, hload⟩ : ∃ loaded, m.load program = .ok loaded := ⟨_, if_pos hsize⟩
    obtain ⟨hholds, hcounter⟩ := holds_load hload
    have hend : programStart + program.length ≤ 4096 := by
      simp only [maxProgramSize, memorySize, programStart] at hsize ⊢
      omega
    exact ⟨loaded, hload, fetches_ofProgram hholds hcounter hend⟩
  · intro origin
    refine ⟨length_ofProgram origin program, flatMap_bytes origin program, ?_, ?_⟩
    · intro l hl
      exact line_of_mem hl
    · intro other
      have hother : origin + (other - origin) = other := by omega
      rw [← ofProgram_shift, hother]

/-- The longest program fills memory to its end, and its last word is still fetched. -/
theorem listing_is_fetched_of_longest :
    (List.replicate 3584 (0x12 : UInt8)).length ≤ maxProgramSize ∧
    ∃ loaded words last, Machine.load (List.replicate 3584 0x12) {} = .ok loaded ∧
      loaded.fetches 1792 = .ok (words, last) ∧ words.length = 1792 ∧ last.counter = 4096 := by
  have hlength : (List.replicate 3584 (0x12 : UInt8)).length = 3584 := List.length_replicate
  have hsize : (List.replicate 3584 (0x12 : UInt8)).length ≤ maxProgramSize := by
    rw [hlength]
    decide
  obtain ⟨hfetched, hlisted⟩ := listing_is_fetched (List.replicate 3584 0x12)
  obtain ⟨loaded, hload, hwalk⟩ := hfetched hsize {}
  obtain ⟨hlines, -⟩ := hlisted programStart
  rw [hlength] at hwalk hlines
  refine ⟨hsize, loaded, _, _, hload, hwalk, ?_, rfl⟩
  rw [List.length_map]
  exact hlines

end Listing

end ChipEight
