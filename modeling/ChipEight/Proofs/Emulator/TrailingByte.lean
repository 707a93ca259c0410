import ChipEight.Proofs.Emulator.ReservedMemory
import ChipEight.Proofs.Session.Program

/-!
# The odd byte at the end of a program

A listing leaves out the last byte of a program of odd length, since it is half a word, and whoever reads
the program is told that it is never fetched.  The machine knows nothing of that.  It fetches two bytes
wherever the program counter stands, as long as they lie within memory, and there is always a byte behind
the program: at most `0xFFE` is the address of an odd one.

As programs begin at an even address, so does the odd byte stand at one.  A program counter that is even
therefore never has it in the second place, and has it in the first place exactly if it stands there
(`Machine.fetchReads_iff`).  Nothing keeps it away.  A program that runs on behind its last whole word comes
to stand there, as does one that jumps there, and there is one of every odd length.  The word that is
fetched then is made of the odd byte and the zero behind it, unless something has been stored there
(`Emulator.byteAt_after`).

Which bytes a fetch reads is told from outside: those on which the word depends.
-/

namespace ChipEight

open Machine

namespace Machine

variable {m : Machine} {a : Nat}

/-- The machine with another byte at an address. -/
def withByte (a : Nat) (b : UInt8) (m : Machine) : Machine :=
  { m with memory := m.memory.setIfInBounds a b }

/-- A fetch reads the byte at an address if with another byte there it would give another word. -/
def FetchReads (a : Nat) (m : Machine) : Prop :=
  ∃ b, (m.withByte a b).fetch.map (·.1) ≠ m.fetch.map (·.1)

/-- The byte is there, if the address is within memory, and all others are what they were. -/
theorem byteAt_withByte (b : UInt8) (k : Nat) :
    (m.withByte a b).byteAt k = if a = k then (if a < 4096 then b else 0) else m.byteAt k := by
  simp only [byteAt, withByte, Vector.getElem?_setIfInBounds]
  split
  · split <;> rfl
  · rfl

/-- What a fetch reads, if it succeeds, is the word at the program counter. -/
theorem map_fetch (low : 0 ≤ m.counter) :
    m.fetch.map (·.1) =
      if m.counter + 1 < 4096 then .ok m.word else .error (.memory (.counter m.counter)) := by
  rw [fetch_eq low]
  split <;> rfl

/-- **A fetch reads two bytes**, at the program counter and behind it, unless they are not both within
memory. -/
theorem fetchReads_iff (low : 0 ≤ m.counter) :
    m.FetchReads a ↔ m.counter + 1 < 4096 ∧ (m.counter = a ∨ m.counter + 1 = a) := by
  have hother (b : UInt8) : (m.withByte a b).fetch.map (·.1) =
      if m.counter + 1 < 4096 then .ok (m.withByte a b).word
      else .error (.memory (.counter m.counter)) := map_fetch (m := m.withByte a b) low
  constructor
  · rintro ⟨b, hdiffers⟩
    rw [hother, map_fetch low] at hdiffers
    by_cases hend : m.counter + 1 < 4096
    case neg => exact absurd (by rw [if_neg hend, if_neg hend]) hdiffers
    refine ⟨hend, Decidable.byContradiction fun helsewhere => hdiffers ?_⟩
    have hkept (k : Nat) (hk : k = m.counter.toNat ∨ k = m.counter.toNat + 1) :
        (m.withByte a b).byteAt k = m.byteAt k := by
      rw [byteAt_withByte, if_neg (by omega)]
    have hcounter : (m.withByte a b).counter = m.counter := rfl
    simp only [word, wordAt, hcounter, hkept _ (.inl rfl), hkept _ (.inr rfl)]
  · rintro ⟨hend, hplace⟩
    have ha : a < 4096 := by omega
    -- A byte that differs from the one that is there.
    obtain ⟨b, hb⟩ : ∃ b : UInt8, b.toNat ≠ (m.byteAt a).toNat := by
      by_cases hzero : (m.byteAt a).toNat = 0
      · exact ⟨1, by rw [hzero]; decide⟩
      · exact ⟨0, fun h => hzero h.symm⟩
    refine ⟨b, ?_⟩
    rw [hother, map_fetch low, if_pos hend, if_pos hend]
    intro hsame
    have hword : (m.withByte a b).word = m.word := Except.ok.inj hsame
    have hcounter : (m.withByte a b).counter = m.counter := rfl
    simp only [word, wordAt, hcounter, byteAt_withByte, if_pos ha] at hword
    obtain hhere | hbehind := hplace
    · have hplace : a = m.counter.toNat := by omega
      rw [if_pos hplace, if_neg (by omega)] at hword
      rw [← hplace] at hword
      omega
    · have hplace : a = m.counter.toNat + 1 := by omega
      rw [if_neg (by omega), if_pos hplace] at hword
      rw [← hplace] at hword
      omega

end Machine

/-- A call stores a byte at an address: it is a cycle, and the instruction that it executes to its end puts
one there. -/
def Call.StoresAt (a : Nat) (c : Call) (e : Emulator) : Prop :=
  match c with
  | cycle delta => ∃ i, e.executed? delta = some i ∧
      e.machine.index ≤ a ∧ a < e.machine.index + (i.stored e.machine).length
  | load _ | reset | keyDown _ | keyUp _ | trace _ | listen _ => False

namespace Emulator

variable {e : Emulator} {a : Nat}

/-- No call of a run stores a byte at an address. -/
def SparesAt (a : Nat) (calls : List Call) (e : Emulator) : Prop :=
  ∀ before c behind, calls = before ++ c :: behind → ¬c.StoresAt a (e.after before)

/-- A single call that stores nothing there spares the address. -/
theorem sparesAt_singleton {c : Call} (h : ¬c.StoresAt a e) : SparesAt a [c] e := by
  intro before c' behind hsplit
  cases before with
  | nil =>
    obtain ⟨rfl, -⟩ := List.cons.inj hsplit
    exact h
  | cons _ before => simp at hsplit

/-- A call that neither fills memory nor stores at an address keeps the byte there. -/
theorem byteAt_next (h : e.Sound) {c : Call} (hfills : c.fills = false) (hspared : ¬c.StoresAt a e) :
    (c.next e).machine.byteAt a = e.machine.byteAt a := by
  cases c with
  | load | reset => cases hfills
  | cycle delta =>
    have hcycle := memory_cycle h delta
    rw [Call.next_cycle]
    cases hexecuted : e.executed? delta with
    | none =>
      rw [hexecuted] at hcycle
      exact byteAt_of_same hcycle a
    | some i =>
      rw [hexecuted] at hcycle
      obtain ⟨hwrite, -⟩ := hcycle
      have houtside : ¬(e.machine.index ≤ a ∧ a < e.machine.index + (i.stored e.machine).length) :=
        fun hinside => hspared ⟨i, hexecuted, hinside⟩
      have hindex := h.bounded.index.1
      exact byteAt_of_write hwrite (by omega)
  | keyDown key | keyUp key | trace on | listen name =>
    exact byteAt_of_same (Call.next_same (by simp [Call.touched])) _

/-- **And so does a run of such calls.** -/
theorem byteAt_after (h : e.Sound) {calls : List Call} (hcalls : ∀ c ∈ calls, c.fills = false)
    (hspares : SparesAt a calls e) : (e.after calls).machine.byteAt a = e.machine.byteAt a := by
  induction calls generalizing e with
  | nil => rfl
  | cons c calls ih =>
    obtain ⟨hfills, hrest⟩ := List.forall_mem_cons.mp hcalls
    have hfirst : ¬c.StoresAt a e := hspares [] c calls rfl
    have hlater : SparesAt a calls (c.next e) := by
      intro before c' behind hsplit
      exact hspares (c :: before) c' behind (by rw [hsplit]; rfl)
    rw [after_cons, ih (h.next c) hrest hlater, byteAt_next h hfills hfirst]

/-- Without a program, memory is that of a new machine: whatever has been loaded and run before has been
reset. -/
theorem memory_of_unloaded (random : RandomSource) (hasTone : Bool) (calls : List Call)
    (hunloaded : ((new random hasTone).after calls).loaded = false) :
    ((new random hasTone).after calls).machine.memory = Machine.memory {} := by
  suffices h : ∀ e : Emulator, e.Sound ∧ (e.loaded = false → e.machine.memory = Machine.memory {}) →
      (e.after calls).Sound ∧
        ((e.after calls).loaded = false → (e.after calls).machine.memory = Machine.memory {}) from
    (h _ ⟨sound_new random hasTone, fun _ => rfl⟩).2 hunloaded
  intro e h
  refine after_induction (P := fun e => e.Sound ∧ (e.loaded = false → e.machine.memory = _))
    (fun c e h => ⟨h.1.next c, ?_⟩) calls h
  obtain ⟨hsound, hmemory⟩ := h
  cases c with
  | load program =>
    obtain hnext | ⟨-, loaded, -, hnext⟩ := Call.next_load program e <;> rw [hnext]
    · exact hmemory
    · exact fun hloaded => by cases hloaded
  | reset =>
    rw [Call.next_reset]
    exact fun _ => rfl
  | keyDown key =>
    rw [Call.next_keyDown]
    split
    · have hpressed : (e.machine.press key).memory = e.machine.memory := by
        unfold Machine.press
        split <;> rfl
      exact fun hloaded => hpressed.trans (hmemory hloaded)
    · exact hmemory
  | keyUp key =>
    rw [Call.next_keyUp]
    split <;> exact hmemory
  | cycle delta =>
    rw [Call.next_cycle, loaded_cycle hsound.runner]
    intro hloaded
    have hfail : e.cycle delta = .fail e .notLoaded := by
      rw [Emulator.cycle, if_pos (by simp [hloaded])]
    rw [hfail]
    exact hmemory hloaded
  | trace on | listen name => exact hmemory

/-- The address of the last byte of a program. -/
def lastAddress (program : List UInt8) : Nat :=
  programStart + program.length - 1

/-- **With an even program counter only a fetch right at an odd byte reads it.** -/
theorem fetchReads_lastAddress {m : Machine} {program : List UInt8} (low : 0 ≤ m.counter)
    (heven : m.counter % 2 = 0) (hodd : program.length % 2 = 1)
    (hsize : program.length ≤ maxProgramSize) :
    m.FetchReads (lastAddress program) ↔ m.counter = lastAddress program := by
  simp only [maxProgramSize, memorySize, programStart] at hsize
  rw [fetchReads_iff low]
  simp only [lastAddress, programStart]
  omega

/-- The word at the last byte of a program is made of that byte and a zero behind it, if nothing has been
stored there. -/
theorem word_lastAddress {idle start : Emulator} {program : List UInt8} {more : List Call}
    (hblank : idle.machine.memory = Machine.memory {}) (hload : Loads program idle start)
    (hodd : program.length % 2 = 1) (hsize : program.length ≤ maxProgramSize) (hsound : start.Sound)
    (hmore : ∀ c ∈ more, c.fills = false) (hspares : SparesAt (lastAddress program) more start)
    (hspares' : SparesAt (lastAddress program + 1) more start)
    (hcounter : (start.after more).machine.counter = lastAddress program) :
    (start.after more).machine.word = (program.getLastD 0).toNat * 256 := by
  have hplace : lastAddress program = 0x200 + (program.length - 1) := by
    simp only [lastAddress, programStart]
    omega
  simp only [maxProgramSize, memorySize, programStart] at hsize
  have hlast : (start.after more).machine.byteAt (lastAddress program) = program.getLastD 0 := by
    rw [byteAt_after hsound hmore hspares, hplace, hload.bytes _ (by omega),
      List.getLastD_eq_getLast?, List.getLast?_eq_getElem?, List.getElem?_eq_getElem (by omega)]
    rfl
  have hbehind : (start.after more).machine.byteAt (lastAddress program + 1) = 0 := by
    have hfont : font.length = 80 := rfl
    rw [byteAt_after hsound hmore hspares', hload.memory _ (.inr (by omega)),
      byteAt_of_same (m := {}) hblank, byteAt_new (by omega), List.getD_eq_default _ _ (by omega)]
  simp only [word, wordAt, hcounter, Int.toNat_natCast, hlast, hbehind]
  exact Int.add_zero _

/-- A program of an odd length that jumps to its last byte, unless it begins with it. -/
def leap (n : Nat) (b : UInt8) : List UInt8 :=
  if n = 1 then [b]
  else
    let target := programStart + n - 1
    UInt8.ofNat (0x10 + target / 256) :: UInt8.ofNat (target % 256) ::
      (List.replicate (n - 3) 0 ++ [b])

theorem length_leap {n : Nat} (hodd : n % 2 = 1) (b : UInt8) : (leap n b).length = n := by
  unfold leap
  split
  next h => exact h.symm
  next h =>
    simp only [List.length_cons, List.length_append, List.length_replicate, List.length_nil]
    omega

theorem getLastD_leap (n : Nat) (b : UInt8) : (leap n b).getLastD 0 = b := by
  unfold leap
  split
  · rfl
  · dsimp only
    rw [← List.cons_append, ← List.cons_append, List.getLastD_concat]

/-- The word `1nnn` is a jump to its address. -/
theorem ofWord?_jump {a : Nat} (ha : a < 4096) :
    Instruction.ofWord? (4096 + a) = some (.jump a) := by
  have hword := Fields.word_eq (w := 4096 + a) (by omega)
  have haddress := (Fields.ofInt (4096 + a)).address_lt
  exact Instruction.ofFields?_of_matches (i := .jump a) ⟨by omega, by omega⟩

/-- Where such a program begins, there is the jump. -/
theorem word_of_leap {idle start : Emulator} {n : Nat} {b : UInt8} (hodd : n % 2 = 1) (hn : n ≠ 1)
    (hsize : n ≤ maxProgramSize) (hload : Loads (leap n b) idle start) :
    start.machine.word = 4096 + lastAddress (leap n b) := by
  have hlength := length_leap hodd b
  have hlast : lastAddress (leap n b) = programStart + n - 1 := by rw [lastAddress, hlength]
  have hcounter : start.machine.counter = 0x200 := by rw [hload.others]
  have hhigh := hload.bytes 0 (by omega)
  have hlow := hload.bytes 1 (by omega)
  simp only [leap, if_neg hn, List.getElem_cons_zero, List.getElem_cons_succ] at hhigh hlow
  simp only [maxProgramSize, memorySize, programStart] at hsize hlast hhigh hlow
  have hplace : (0x200 : Int).toNat = 0x200 := rfl
  simp only [word, wordAt, hcounter, hplace, Nat.add_zero] at hhigh hlow ⊢
  rw [hhigh, hlow, UInt8.toNat_ofNat', UInt8.toNat_ofNat']
  omega

/-- A cycle that gets under way with a jump leaves the program counter at its target. -/
theorem counter_of_jump {e : Emulator} {delta : Number} {due : Int} {a : Int} (h : e.Sound)
    (htimed : Timed delta due e) (hwaiting : e.machine.waiting = false)
    (hend : e.machine.counter + 1 < 4096)
    (hword : Instruction.ofWord? e.machine.word = some (.jump a)) :
    (e.cycle delta).emulator.machine.counter = a := by
  have hexecuted := executed?_eq h htimed hwaiting hend hword
  rw [if_pos (by rfl)] at hexecuted
  cases machine_step h delta with
  | idle _ hnone => cases hexecuted.symm.trans hnone
  | refused _ hnone => cases hexecuted.symm.trans hnone
  | executed ticks i hsome _ _ _ hexec =>
    cases hexecuted.symm.trans hsome
    injection hexec with hafter
    rw [← hafter]

/-- No time passes for a clock that stands at zero. -/
theorem ticksDue_zero {e : Emulator} (h : e.accumulator = .zero) : e.ticksDue (.integer 0) = .ok 0 := by
  have hstill : ((Binary64.zero.add (.ofInt 0)).divMod tickPeriod).1.toInt? = .ok 0 := by decide +kernel
  have hdue : e.ticksDue (.integer 0) =
      ((e.accumulator.add (.ofInt 0)).divMod tickPeriod).1.toInt?.mapError .conversion := rfl
  rw [hdue, h, hstill]
  rfl

/-- **Such a program comes to its last byte**, in one cycle or in none. -/
theorem leap_lands {random : RandomSource} {hasTone : Bool} {start : Emulator} {n : Nat} {b : UInt8}
    (hodd : n % 2 = 1) (hsize : n ≤ maxProgramSize) (hload : Loads (leap n b) (new random hasTone) start)
    (hsound : start.Sound) :
    ∃ more, (∀ c ∈ more, c.fills = false) ∧
      (∀ before, before <+: more → (start.after before).machine.counter % 2 = 0) ∧
      (∀ a, SparesAt a more start) ∧
      (start.after more).machine.counter = lastAddress (leap n b) := by
  have hlast : lastAddress (leap n b) = programStart + n - 1 := by rw [lastAddress, length_leap hodd]
  have hcounter : start.machine.counter = 0x200 := by rw [hload.others]
  by_cases hn : n = 1
  · refine ⟨[], by simp, ?_, ?_, ?_⟩
    · intro before hbefore
      rw [List.prefix_nil.mp hbefore, after_nil, hcounter]
      rfl
    · intro a before c behind hsplit
      simp at hsplit
    · rw [after_nil, hcounter, hlast, hn]
      rfl
  · simp only [maxProgramSize, memorySize, programStart] at hsize hlast
    have htimed : Timed (.integer 0) 0 start :=
      ⟨by rw [hload.others], by decide, ticksDue_zero (by rw [hload.others]; rfl)⟩
    have hwaiting : start.machine.waiting = false := by
      rw [hload.others]
      rfl
    have hend : start.machine.counter + 1 < 4096 := by rw [hcounter]; decide
    have hword : Instruction.ofWord? start.machine.word = some (.jump (lastAddress (leap n b))) := by
      rw [word_of_leap hodd hn hsize hload]
      exact ofWord?_jump (by omega)
    have hlands := counter_of_jump hsound htimed hwaiting hend hword
    refine ⟨[.cycle (.integer 0)], by simp [Call.fills], ?_, ?_, hlands⟩
    · intro before hbefore
      obtain rfl | ⟨rest, rfl, hrest⟩ := List.prefix_cons_iff.mp hbefore
      · rw [after_nil, hcounter]
        rfl
      · rw [List.prefix_nil.mp hrest, after_cons, after_nil, Call.next_cycle, hlands]
        omega
    · intro a
      apply sparesAt_singleton
      rintro ⟨i, hexecuted, hlow, hhigh⟩
      cases hword.symm.trans (ofWord?_of_executed? hexecuted)
      simp only [Instruction.stored, List.length_nil] at hhigh
      omega

/-- **The odd byte of a program is fetched**, whatever its remark says.  Load a program of odd length into
an emulator that has none, and take any run that loads no other and does not reset.  Whenever the program
counter is even, a fetch reads the odd byte exactly if the program counter stands at it.  Then the fetch
succeeds, and if nothing has been stored at that place and behind it, the word is the odd byte with a zero
behind it.

This happens with programs of every odd length and with every last byte, while the program counter is even
all the time. -/
theorem odd_byte_is_fetched (random : RandomSource) (hasTone : Bool) :
    (∀ (calls more : List Call) (program : List UInt8) (rom : Rom),
      let idle := (new random hasTone).after calls
      let start := (Call.load program).next idle
      let m := (start.after more).machine
      idle.loaded = false → Rom.ofBytes program = .ok rom → program.length % 2 = 1 →
      (∀ c ∈ more, c.fills = false) → m.counter % 2 = 0 →
      (m.FetchReads (lastAddress program) ↔ m.counter = lastAddress program) ∧
      (m.counter = lastAddress program →
        m.fetch = .ok (m.word, { m with counter := lastAddress program + 2 }) ∧
        (SparesAt (lastAddress program) more start → SparesAt (lastAddress program + 1) more start →
          m.word = (program.getLastD 0).toNat * 256))) ∧
    ∀ (n : Nat) (b : UInt8), n % 2 = 1 → n ≤ maxProgramSize → ∃ program rom more,
      let start := (Call.load program).next (new random hasTone)
      let m := (start.after more).machine
      program.length = n ∧ program.getLastD 0 = b ∧ Rom.ofBytes program = .ok rom ∧
      (∀ c ∈ more, c.fills = false) ∧
      (∀ before, before <+: more → (start.after before).machine.counter % 2 = 0) ∧
      m.FetchReads (lastAddress program) ∧ m.word = b.toNat * 256 := by
  refine ⟨?_, ?_⟩
  · intro calls more program rom idle start m hunloaded hrom hodd hmore heven
    have hsize : program.length ≤ maxProgramSize := (Rom.exists_ofBytes_iff.mp ⟨rom, hrom⟩).2
    have hload : Loads program idle start := ((load_cases hunloaded program).1 hsize).2
    have hsound : start.Sound := (sound_after random hasTone calls).next _
    have hlow : 0 ≤ m.counter := (hsound.after more).bounded.counter.1
    refine ⟨fetchReads_lastAddress hlow heven hodd hsize, ?_⟩
    intro hcounter
    constructor
    · simp only [maxProgramSize, memorySize, programStart] at hsize
      simp only [lastAddress, programStart] at hcounter ⊢
      rw [fetch_eq hlow, if_pos (by omega), hcounter]
    · intro hspares hspares'
      have hblank := memory_of_unloaded random hasTone calls hunloaded
      exact word_lastAddress hblank hload hodd hsize hsound hmore hspares hspares' hcounter
  · intro n b hodd hsize
    have hlength : (leap n b).length = n := length_leap hodd b
    have hrom : Rom.ofBytes (leap n b) = .ok { bytes := leap n b } :=
      (Rom.isOk_ofBytes _).mpr ⟨by omega, by omega⟩
    have hload : Loads (leap n b) (new random hasTone) ((Call.load (leap n b)).next (new random hasTone)) :=
      ((load_cases rfl (leap n b)).1 (by rw [hlength]; exact hsize)).2
    have hsound := (sound_new random hasTone).next (.load (leap n b))
    obtain ⟨more, hmore, heven, hspares, hlands⟩ := leap_lands hodd hsize hload hsound
    have hlow := (hsound.after more).bounded.counter.1
    have hblank := memory_of_unloaded random hasTone [] rfl
    have hword := word_lastAddress hblank hload (by omega) (by omega) hsound hmore (hspares _) (hspares _)
      hlands
    rw [getLastD_leap] at hword
    refine ⟨leap n b, _, more, hlength, getLastD_leap n b, hrom, hmore, heven, ?_, hword⟩
    exact (fetchReads_lastAddress hlow (heven more (List.prefix_refl more)) (by omega) (by omega)).mpr hlands

/-- A program of three bytes loads a register and goes on: its odd byte is fetched, as the first half of a
jump. -/
theorem odd_byte_is_fetched_of_three_bytes :
    ∃ m : Machine,
      m = (((Call.load [0x60, 0x05, 0x13]).next (new (.cycle #[]) true)).after
        [.cycle (.integer 0)]).machine ∧
      m.counter = 0x202 ∧ m.FetchReads 0x202 ∧
      m.fetch = .ok (0x1300, { m with counter := 0x204 }) := by
  obtain ⟨start, hstart⟩ : ∃ e, e = (Call.load [0x60, 0x05, 0x13]).next (new (.cycle #[]) true) :=
    ⟨_, rfl⟩
  obtain ⟨hcounter, hexecuted⟩ :
      (start.after [.cycle (.integer 0)]).machine.counter = 0x202 ∧
        start.executed? (.integer 0) = some (.loadByte 0 5) := by
    rw [hstart]
    decide +kernel
  have hspares (a : Nat) : SparesAt a [.cycle (.integer 0)] start := by
    apply sparesAt_singleton
    rintro ⟨i, hsome, hlow, hhigh⟩
    cases hexecuted.symm.trans hsome
    simp only [Instruction.stored, List.length_nil] at hhigh
    omega
  have hfetched := (odd_byte_is_fetched (.cycle #[]) true).1 [] [.cycle (.integer 0)] [0x60, 0x05, 0x13]
    { bytes := [0x60, 0x05, 0x13] } rfl rfl rfl (by simp [Call.fills])
  rw [after_nil, ← hstart, hcounter] at hfetched
  obtain ⟨hreads, hfetch⟩ := hfetched rfl
  obtain ⟨hfetch, hword⟩ := hfetch rfl
  refine ⟨_, by rw [hstart], hcounter, hreads.mpr rfl, ?_⟩
  rw [hfetch, hword (hspares _) (hspares _)]
  rfl

/-- A program of odd length is accepted, the program counter is even before and after its first cycle, and
then its odd byte is fetched and executed. -/
theorem odd_byte_is_executed :
    ∃ start : Emulator,
      start = (Call.load [0x60, 0x05, 0x13]).next (new (.cycle #[]) true) ∧
      Rom.ofBytes [0x60, 0x05, 0x13] = .ok { bytes := [0x60, 0x05, 0x13] } ∧
      start.machine.counter = 0x200 ∧
      (start.after [.cycle (.integer 0)]).machine.counter = lastAddress [0x60, 0x05, 0x13] ∧
      (start.after [.cycle (.integer 0)]).machine.FetchReads (lastAddress [0x60, 0x05, 0x13]) ∧
      (start.after [.cycle (.integer 0)]).executed? (.integer 0) = some (.jump 0x300) := by
  obtain ⟨start, hstart⟩ : ∃ e, e = (Call.load [0x60, 0x05, 0x13]).next (new (.cycle #[]) true) :=
    ⟨_, rfl⟩
  obtain ⟨hbegin, hcounter, hexecuted⟩ : start.machine.counter = 0x200 ∧
      (start.after [.cycle (.integer 0)]).machine.counter = lastAddress [0x60, 0x05, 0x13] ∧
      (start.after [.cycle (.integer 0)]).executed? (.integer 0) = some (.jump 0x300) := by
    rw [hstart]
    decide +kernel
  have hlast : lastAddress [0x60, 0x05, 0x13] = 0x202 := rfl
  refine ⟨start, hstart, rfl, hbegin, hcounter, ?_, hexecuted⟩
  rw [fetchReads_iff (by rw [hcounter]; decide), hcounter, hlast]
  exact ⟨by decide, .inl rfl⟩

end Emulator

end ChipEight
