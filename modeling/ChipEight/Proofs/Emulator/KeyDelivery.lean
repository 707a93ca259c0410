import ChipEight.Proofs.Emulator.KeyWait

/-!
# Every captured key is delivered once

A key that goes down while one is waited for is captured, and a cycle that ends the wait delivers
it.  Two things are proved of the time in between, for any order of the calls.

**Nothing else happens.**  While the machine is suspended, most calls leave it still: before the key
is captured all but the key itself, and after that all but the next cycle (`Call.Spares`).  So the
program counter and the registers are at the delivery what they were when the wait began
(`Call.still_next`, `Emulator.still_after`).

**Nothing is lost.**  Unless the emulator is reset, each call balances: what was pending and what it
captures is what it delivers and what is pending then (`Call.pending_next`).  Along a run these
balances add up, and the keys that are captured are those that are delivered, in their order, except
that the last of them may still be pending.
-/

namespace ChipEight

open Machine

namespace Machine

/-- What a program can see but for the keypad and the timers is as it was. -/
def Unmoved (m n : Machine) : Prop :=
  ∀ p : Part, p ∈ [.memory, .registers, .index, .counter, .stack, .display] → p.Same m n

variable {m n k : Machine} {x : Register} {key : Int}

theorem Still.unmoved (h : m.Still n) : m.Unmoved n := by
  intro p hp
  refine h p ?_
  revert p
  decide

theorem Unmoved.trans (h : m.Unmoved n) (h' : n.Unmoved k) : m.Unmoved k :=
  fun p hp => (h p hp).trans (h' p hp)

/-- The instruction that waits is still there. -/
theorem AtWaitKey.of_unmoved (h : m.AtWaitKey x) (hsame : m.Unmoved n) : n.AtWaitKey x :=
  h.of_same (hsame .memory (by decide)) (hsame .counter (by decide))

/-- A delivery does not depend on what happened before it. -/
theorem Delivered.of_unmoved (h : n.Delivered x key k) (hsame : m.Unmoved n) :
    m.Delivered x key k where
  register := h.register
  others y hy := by
    have hregisters : n.registers = m.registers := hsame .registers (by decide)
    rw [h.others y hy]
    simp only [value, Machine.register, hregisters]
  counter := by
    have hcounter : n.counter = m.counter := hsame .counter (by decide)
    rw [h.counter, hcounter]
  waiting := h.waiting
  pendingKey := h.pendingKey
  rest p hp := by
    refine Part.Same.trans (hsame p ?_) (h.rest p hp)
    revert p
    decide

end Machine

namespace Call

/-- The key of the keypad that a call presses. -/
def pressed? : Call → Option Int
  | keyDown key => if 0 ≤ key ∧ key < 16 then some key else none
  | _ => none

/-- The calls that leave a suspended machine still.  While a key is waited for, no key of the keypad
may go down; when one is pending, there may be no cycle. -/
def Spares (waiting : Bool) : Call → Prop
  | reset => False
  | cycle _ => waiting = true
  | keyDown key => waiting = true → ¬(0 ≤ key ∧ key < 16)
  | _ => True

/-- The key that a call captures. -/
def captured? (c : Call) (e : Emulator) : Option Int :=
  if e.machine.waiting then c.pressed? else none

/-- The key that a call delivers, with its register: the instruction that waits for a key has been
executed and does not wait any more. -/
def delivered? (c : Call) (e : Emulator) : Option (Register × Int) :=
  match c with
  | cycle delta =>
    match e.executed? delta with
    | some (.waitKey x) =>
      if (c.next e).machine.waiting then none else some (x, (c.next e).machine.value x)
    | _ => none
  | _ => none

variable {e : Emulator} {c : Call}

theorem spares_of_waiting (hreset : c ≠ .reset) (hpressed : c.pressed? = none) : c.Spares true := by
  cases c <;> simp_all [Spares, pressed?]

theorem spares_of_pending (hreset : c ≠ .reset) (hcycle : ∀ delta, c ≠ .cycle delta) :
    c.Spares false := by
  cases c <;> simp_all [Spares]

/-- A program is not loaded while the machine is suspended. -/
theorem next_load_of_suspended (program : List UInt8) (h : e.KeyWait)
    (hsuspended : e.machine.Suspended) : (load program).next e = e := by
  obtain hsame | ⟨hunloaded, -⟩ := next_load program e
  · exact hsame
  · simp [h.loaded hsuspended] at hunloaded

/-- **While the machine is suspended, a call that spares it leaves it still.** -/
theorem still_next (h : e.KeyWait) (hsuspended : e.machine.Suspended)
    (hc : c.Spares e.machine.waiting) : e.machine.Still (c.next e).machine := by
  cases c with
  | load program =>
    rw [next_load_of_suspended program h hsuspended]
    exact .refl e.machine
  | reset => exact hc.elim
  | keyDown key =>
    rw [next_keyDown]
    by_cases hkey : 0 ≤ key ∧ key < 16
    · rw [if_pos hkey]
      refine still_press key ?_
      cases hwaiting : e.machine.waiting with
      | false => rfl
      | true => exact (hc hwaiting hkey).elim
    · rw [if_neg hkey]
      exact .refl e.machine
  | keyUp key => exact fun p hp => next_same (by simp_all [touched])
  | cycle delta =>
    have hwaiting : e.machine.waiting = true := hc
    cases Emulator.cycle_wait h delta with
    | rests hnone hafter => exact hafter
    | works hother hbefore hafter => exact (hbefore hsuspended).elim
    | begins ticks x hexecuted hbefore hat hafter => exact (hbefore hsuspended).elim
    | ends ticks x key hexecuted hbefore hat hafter =>
      rw [h.exclusive hwaiting] at hbefore
      cases hbefore
  | trace on => exact .refl e.machine
  | listen name => exact .refl e.machine

/-- A cycle delivers nothing unless it executes the instruction that waits for a key. -/
theorem delivered?_of_other {delta : Number} (h : ∀ x, e.executed? delta ≠ some (.waitKey x)) :
    (cycle delta).delivered? e = none := by
  simp only [delivered?]

/-- **No key is lost.**  What was pending and what a call captures is what it delivers and what is
pending then. -/
theorem pending_next (h : e.KeyWait) (hreset : c ≠ .reset) :
    e.machine.pendingKey.toList ++ (c.captured? e).toList =
      ((c.delivered? e).map Prod.snd).toList ++ (c.next e).machine.pendingKey.toList := by
  cases c with
  | reset => exact (hreset rfl).elim
  | keyDown key =>
    rw [next_keyDown]
    by_cases hkey : 0 ≤ key ∧ key < 16
    · rw [if_pos hkey]
      cases hwaiting : e.machine.waiting with
      | false =>
        have hpending := (still_press key hwaiting).keyWait.2
        simp [captured?, delivered?, hwaiting, hpending]
      | true =>
        have hnone := h.exclusive hwaiting
        have hpress := press_of_waiting key hwaiting hnone
        simp [captured?, pressed?, delivered?, hwaiting, hnone, hpress, hkey]
    · simp [captured?, pressed?, delivered?, hkey]
  | cycle delta =>
    have hcaptured : (cycle delta).captured? e = none := by simp [captured?, pressed?]
    rw [hcaptured]
    change e.machine.pendingKey.toList ++ _ =
      _ ++ (e.cycle delta).emulator.machine.pendingKey.toList
    cases Emulator.cycle_wait h delta with
    | rests hnone hafter =>
      rw [delivered?_of_other (by simp [hnone]), hafter.keyWait.2]
      simp
    | works hother hbefore hafter =>
      rw [delivered?_of_other hother, pendingKey_of_not_suspended hbefore,
        pendingKey_of_not_suspended hafter]
      rfl
    | begins ticks x hexecuted hbefore hat hafter =>
      have hnone := pendingKey_of_not_suspended hbefore
      have hticked : Part.keyWait.Same e.machine (e.machine.ticked ticks) :=
        same_ticked ticks e.machine (by decide)
      have hdelivered : (cycle delta).delivered? e = none := by
        simp [delivered?, hexecuted, next_cycle, hafter, awaitKey]
      have hafter : (e.cycle delta).emulator.machine.pendingKey = none := by
        rw [hafter]
        exact hticked.2.trans hnone
      rw [hdelivered, hnone, hafter]
      rfl
    | ends ticks x key hexecuted hbefore hat hafter =>
      have hkey := h.bounded.pendingKey key hbefore
      have hdelivery : e.machine.Delivered x key (e.cycle delta).emulator.machine := by
        rw [hafter]
        exact delivered_takeKey e.machine x ticks hkey
      have hdelivered : (cycle delta).delivered? e = some (x, key) := by
        simp [delivered?, hexecuted, next_cycle, hdelivery.waiting, hdelivery.register]
      rw [hdelivered, hbefore, hdelivery.pendingKey]
      rfl
  | load program | keyUp key | trace on | listen name =>
    rw [(next_same (p := .keyWait) (by simp [touched])).2]
    simp [captured?, pressed?, delivered?]

end Call

namespace Emulator

variable {e : Emulator} {calls : List Call} {x : Register} {key : Int}

/-- **While the machine is suspended, calls that spare it leave it still.** -/
theorem still_after (h : e.KeyWait) (hsuspended : e.machine.Suspended)
    (hcalls : ∀ c ∈ calls, c.Spares e.machine.waiting) :
    e.machine.Still (e.after calls).machine := by
  induction calls generalizing e with
  | nil => exact .refl e.machine
  | cons c calls ih =>
    have hstill := Call.still_next h hsuspended (hcalls c (List.mem_cons_self ..))
    have hsuspended' := (suspended_iff_of_same hstill.keyWait).mpr hsuspended
    have hrest : ∀ c' ∈ calls, c'.Spares (c.next e).machine.waiting := by
      intro c' hc'
      rw [hstill.keyWait.1]
      exact hcalls c' (List.mem_cons_of_mem c hc')
    exact hstill.trans (ih (h.next c) hsuspended' hrest)

theorem keyWait_after (h : e.KeyWait) (calls : List Call) : (e.after calls).KeyWait :=
  after_induction (fun c _ h => h.next c) calls h

/-- A key of the keypad that goes down while one is waited for is captured, and nothing else
moves. -/
theorem capture (h : e.KeyWait) (hwaiting : e.machine.waiting = true) (hkey : 0 ≤ key ∧ key < 16) :
    let held := ((Call.keyDown key).next e).machine
    e.machine.Unmoved held ∧ held.waiting = false ∧ held.pendingKey = some key := by
  have hpress := press_of_waiting key hwaiting (h.exclusive hwaiting)
  rw [Call.next_keyDown, if_pos hkey]
  dsimp only
  rw [hpress]
  refine ⟨?_, rfl, rfl⟩
  intro p hp
  cases p <;> simp_all [Part.Same]

/-- The cycle that gets under way while a key is pending delivers it. -/
theorem deliver (h : e.KeyWait) (hpending : e.machine.pendingKey = some key)
    (hat : e.machine.AtWaitKey x) {delta : Number} {due : Int} (htimed : Timed delta due e) :
    (e.cycle delta).result = .ok () ∧
      e.machine.Delivered x key (e.cycle delta).emulator.machine := by
  have hwaiting : e.machine.waiting = false := by
    cases hwaiting : e.machine.waiting with
    | false => rfl
    | true =>
      rw [h.exclusive hwaiting] at hpending
      cases hpending
  have hsuspended : e.machine.Suspended := .inr (by simp [hpending])
  have hresult : (e.cycle delta).result = .ok () :=
    result_cycle h.toSound htimed hwaiting hat.within hat.ofWord?
  have hexecuted : e.executed? delta = some (.waitKey x) :=
    (executed?_of_ok hresult hwaiting).trans hat.ofWord?
  refine ⟨hresult, ?_⟩
  cases cycle_wait h delta with
  | rests hnone hafter =>
    rw [hexecuted] at hnone
    cases hnone
  | works hother hbefore hafter => exact (hother x hexecuted).elim
  | begins ticks x' hexecuted' hbefore hat' hafter => exact (hbefore hsuspended).elim
  | ends ticks x' key' hexecuted' hbefore hat' hafter =>
    cases hexecuted.symm.trans hexecuted'
    cases hpending.symm.trans hbefore
    rw [hafter]
    exact delivered_takeKey e.machine x ticks (h.bounded.pendingKey key hpending)

/-- Nothing moves while no key of the keypad goes down. -/
theorem unmoved_of_waiting (h : e.KeyWait) (hwaiting : e.machine.waiting = true)
    (hcalls : ∀ c ∈ calls, c ≠ .reset ∧ c.pressed? = none) :
    e.machine.Unmoved (e.after calls).machine ∧ (e.after calls).machine.waiting = true := by
  have hstill : e.machine.Still (e.after calls).machine := by
    refine still_after h (.inl hwaiting) fun c hc => ?_
    rw [hwaiting]
    exact Call.spares_of_waiting (hcalls c hc).1 (hcalls c hc).2
  exact ⟨hstill.unmoved, hstill.keyWait.1.trans hwaiting⟩

/-- Nothing moves while a key is pending and no cycle comes, and the key stays the same. -/
theorem unmoved_of_pending (h : e.KeyWait) (hwaiting : e.machine.waiting = false)
    (hpending : e.machine.pendingKey = some key)
    (hcalls : ∀ c ∈ calls, c ≠ .reset ∧ ∀ delta, c ≠ .cycle delta) :
    e.machine.Unmoved (e.after calls).machine ∧
      (e.after calls).machine.waiting = false ∧
      (e.after calls).machine.pendingKey = some key := by
  have hstill : e.machine.Still (e.after calls).machine := by
    refine still_after h (.inr (by simp [hpending])) fun c hc => ?_
    rw [hwaiting]
    exact Call.spares_of_pending (hcalls c hc).1 (hcalls c hc).2
  exact ⟨hstill.unmoved, hstill.keyWait.1.trans hwaiting, hstill.keyWait.2.trans hpending⟩

/-- **From the wait to the delivery.**  The first key of the keypad that goes down is held until the
next cycle delivers it, to the instruction that began the wait. -/
theorem delivered_of_waiting (h : e.KeyWait) (hwaiting : e.machine.waiting = true)
    (hat : e.machine.AtWaitKey x) {before between : List Call}
    (hbefore : ∀ c ∈ before, c ≠ .reset ∧ c.pressed? = none) (hkey : 0 ≤ key ∧ key < 16)
    (hbetween : ∀ c ∈ between, c ≠ .reset ∧ ∀ delta, c ≠ .cycle delta) :
    let held := e.after (before ++ .keyDown key :: between)
    e.machine.Unmoved held.machine ∧
    held.machine.waiting = false ∧ held.machine.pendingKey = some key ∧
    ∀ delta due, Number.le (.integer 0) delta = true → held.ticksDue delta = .ok due →
      (held.cycle delta).result = .ok () ∧
      e.machine.Delivered x key (held.cycle delta).emulator.machine := by
  obtain ⟨hbeforeSame, hbeforeWaiting⟩ := unmoved_of_waiting h hwaiting hbefore
  have hbeforeWait := keyWait_after h before
  obtain ⟨hcaptureSame, hfree, hcaptured⟩ := capture hbeforeWait hbeforeWaiting hkey
  have hcaptureWait := hbeforeWait.next (.keyDown key)
  obtain ⟨hbetweenSame, hheldFree, hheldPending⟩ :=
    unmoved_of_pending hcaptureWait hfree hcaptured hbetween
  have hsame := (hbeforeSame.trans hcaptureSame).trans hbetweenSame
  have hheldWait := keyWait_after hcaptureWait between
  rw [after_append, after_cons]
  refine ⟨hsame, hheldFree, hheldPending, ?_⟩
  intro delta due hforward hdue
  have hloaded := hheldWait.loaded (.inr (by simp [hheldPending]))
  obtain ⟨hresult, hdelivered⟩ :=
    deliver hheldWait hheldPending (hat.of_unmoved hsame) ⟨hloaded, hforward, hdue⟩
  exact ⟨hresult, hdelivered.of_unmoved hsame⟩

/-- The balance of a run without a reset. -/
theorem pending_after (h : e.KeyWait) (hcalls : ∀ c ∈ calls, c ≠ .reset) :
    e.machine.pendingKey.toList ++ observed Call.captured? calls e =
      (observed Call.delivered? calls e).map Prod.snd ++
        (e.after calls).machine.pendingKey.toList := by
  induction calls generalizing e with
  | nil => simp [observed]
  | cons c calls ih =>
    have hstep := Call.pending_next h (hcalls c (List.mem_cons_self ..))
    have hrest := ih (h.next c) fun c' hc' => hcalls c' (List.mem_cons_of_mem c hc')
    calc
      e.machine.pendingKey.toList ++ observed Call.captured? (c :: calls) e
          = (e.machine.pendingKey.toList ++ (c.captured? e).toList) ++
              observed Call.captured? calls (c.next e) := by
        rw [observed, List.append_assoc]
      _ = ((c.delivered? e).map Prod.snd).toList ++ ((c.next e).machine.pendingKey.toList ++
              observed Call.captured? calls (c.next e)) := by
        rw [hstep, List.append_assoc]
      _ = ((c.delivered? e).map Prod.snd).toList ++
            ((observed Call.delivered? calls (c.next e)).map Prod.snd ++
              ((c.next e).after calls).machine.pendingKey.toList) := by
        rw [hrest]
      _ = (observed Call.delivered? (c :: calls) e).map Prod.snd ++
            (e.after (c :: calls)).machine.pendingKey.toList := by
        rw [observed, List.map_append, List.append_assoc, Option.toList_map, after_cons]

/-- **The wait for a key.**  After any calls to a new emulator:

* a key is waited for or pending, but not both, and the program counter is then at an instruction
  that waits for a key;
* from a wait on, whatever cycles there are and keys go up, nothing moves until a key of the keypad
  goes down; that key is captured, whatever keys go down or up afterwards, and the next cycle puts
  it into the register of that same instruction and goes on behind it;
* as long as there is no reset, the keys that are captured are those that are delivered, in their
  order, but for one that may be pending at the end. -/
theorem keyWait_protocol (random : RandomSource) (hasTone : Bool) (calls : List Call) :
    let e := (new random hasTone).after calls
    ¬(e.machine.waiting = true ∧ e.machine.pendingKey ≠ none) ∧
    (e.machine.waiting = true ∨ e.machine.pendingKey ≠ none → ∃ x, e.machine.AtWaitKey x) ∧
    (∀ x before, e.machine.waiting = true → e.machine.AtWaitKey x →
      (∀ c ∈ before, c ≠ .reset ∧ c.pressed? = none) →
      (e.machine.Unmoved (e.after before).machine ∧ (e.after before).machine.waiting = true) ∧
      ∀ key between, 0 ≤ key ∧ key < 16 →
        (∀ c ∈ between, c ≠ .reset ∧ ∀ delta, c ≠ .cycle delta) →
        let held := e.after (before ++ .keyDown key :: between)
        e.machine.Unmoved held.machine ∧
        held.machine.waiting = false ∧ held.machine.pendingKey = some key ∧
        ∀ delta due, Number.le (.integer 0) delta = true → held.ticksDue delta = .ok due →
          (held.cycle delta).result = .ok () ∧
          e.machine.Delivered x key (held.cycle delta).emulator.machine) ∧
    ∀ more, (∀ c ∈ more, c ≠ .reset) →
      e.machine.pendingKey.toList ++ observed Call.captured? more e =
        (observed Call.delivered? more e).map Prod.snd ++
          (e.after more).machine.pendingKey.toList := by
  have h : ((new random hasTone).after calls).KeyWait :=
    keyWait_after (keyWait_new random hasTone) calls
  intro e
  refine ⟨?_, h.stands, ?_, ?_⟩
  · rintro ⟨hwaiting, hpending⟩
    exact hpending (h.exclusive hwaiting)
  · intro x before hwaiting hat hbefore
    refine ⟨unmoved_of_waiting h hwaiting hbefore, ?_⟩
    intro key between hkey hbetween
    exact delivered_of_waiting h hwaiting hat hbefore hkey hbetween
  · intro more hmore
    exact pending_after h hmore

/-- A program waits for a key, to be put into `V3`.  Of two keys that go down before the next cycle
it is the first that is delivered, although it is up again by then. -/
theorem keyWait_protocol_of_two_keys :
    ∃ e held : Emulator,
      e = (new (.cycle #[]) true).after [.load [0xF3, 0x0A], .cycle (.integer 0)] ∧
      held = e.after [.cycle (.integer 0), .keyDown 7, .keyDown 2, .keyUp 7] ∧
      e.machine.waiting = true ∧ held.machine.pendingKey = some 7 ∧
      (held.cycle (.integer 0)).emulator.machine.value 3 = 7 ∧
      (held.cycle (.integer 0)).emulator.machine.counter = 0x202 := by
  have hprotocol :=
    keyWait_protocol (.cycle #[]) true [.load [0xF3, 0x0A], .cycle (.integer 0)]
  dsimp only at hprotocol
  obtain ⟨e, he⟩ :
      ∃ e, e = (new (.cycle #[]) true).after [.load [0xF3, 0x0A], .cycle (.integer 0)] := ⟨_, rfl⟩
  have hwaiting : e.machine.waiting = true := by
    rw [he]
    decide +kernel
  have hstart : e.machine.counter = 0x200 ∧ e.machine.word = 0xF30A := by
    rw [he]
    decide +kernel
  have hdue : (e.after [.cycle (.integer 0), .keyDown 7, .keyDown 2, .keyUp 7]).ticksDue
      (.integer 0) = .ok 0 := by
    rw [he]
    decide +kernel
  have hat : e.machine.AtWaitKey 3 :=
    ⟨by rw [hstart.1]; decide, hstart.2.trans (by decide)⟩
  rw [← he] at hprotocol
  obtain ⟨-, hdelivered⟩ := hprotocol.2.2.1 3 [.cycle (.integer 0)] hwaiting hat
    (by simp [Call.pressed?])
  obtain ⟨-, -, hpending, hcycle⟩ :=
    hdelivered 7 [.keyDown 2, .keyUp 7] (by decide) (by simp)
  obtain ⟨-, hdelivered⟩ := hcycle (.integer 0) 0 (by decide) hdue
  refine ⟨e, _, he, rfl, hwaiting, hpending, hdelivered.register, ?_⟩
  exact hdelivered.counter.trans (congrArg (· + 2) hstart.1)

end Emulator

end ChipEight
