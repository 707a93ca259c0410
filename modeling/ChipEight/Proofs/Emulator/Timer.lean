import Mathlib.Algebra.Ring.Int.Defs
import ChipEight.Proofs.Emulator.Failure

/-!
# Timers run down with time alone

A cycle takes the ticks that are due off both timers before it does anything else, at most 255 of them.
The limit is never felt, since a timer of eight bits is empty by then, and so a timer loses what is due
and stops at zero.  Only the instruction that sets the timer does more to it (`Timer.of_next`).

What is lost in several calls adds up: stopping at zero in each of them is the same as stopping once at
the end, since what is due is never negative.  So after any calls without a reset a timer is where the
sum of all ticks brings it, whether cycles have waited, failed or succeeded (`Timer.of_after`).
-/

namespace ChipEight

open Machine

/-- Ticks one by one run the timers down. -/
theorem Machine.ticks_toNat {m : Machine} (h : m.Bounded) {due : Int} (hdue : 0 ≤ due) :
    m.ticks due.toNat = m.runDown due := by
  rw [ticks_eq _ m h.delayTimer.1 h.soundTimer.1, runDown, Int.toNat_of_nonneg hdue]

/-- The timers of the machine. -/
inductive Timer where
  | delay
  | sound
  deriving DecidableEq, Repr

namespace Timer

/-- What is on a timer. -/
def of : Timer → Machine → Int
  | delay, m => m.delayTimer
  | sound, m => m.soundTimer

/-- The part of the machine that a timer is. -/
def part : Timer → Part
  | delay => .delayTimer
  | sound => .soundTimer

/-- The register from which an instruction sets a timer. -/
def source? : Timer → Instruction Register → Option Register
  | delay, .setDelay x => some x
  | sound, .setSound x => some x
  | _, _ => none

variable {m n after : Machine} {i : Instruction Register}

theorem of_same {t : Timer} (h : t.part.Same m n) : t.of n = t.of m := by
  cases t <;> exact h

/-- A timer holds a byte. -/
theorem of_bounds (t : Timer) (h : m.Bounded) : 0 ≤ t.of m ∧ t.of m ≤ 255 := by
  cases t
  · exact h.delayTimer
  · exact h.soundTimer

/-- Ticks that are due are taken off a timer, as far as it goes. -/
theorem of_ticks (t : Timer) (h : m.Bounded) {due : Int} (hdue : 0 ≤ due) :
    t.of (m.ticks (min due Emulator.maxTicks).toNat) = max 0 (t.of m - due) := by
  rw [ticks_of_due h hdue]
  cases t <;> rfl

/-- A fetch leaves the timers alone. -/
theorem of_ticked (t : Timer) (k : Nat) (m : Machine) : t.of (m.ticked k) = t.of (m.ticks k) := by
  cases t <;> rfl

/-- Other instructions than those that set a timer do not touch it. -/
theorem untouched_of_source? {t : Timer} (h : t.source? i = none) : t.part ∉ i.touched := by
  cases t <;> cases i <;> simp [part, source?, Instruction.touched] at h ⊢

/-- An instruction sets a timer from a register, or leaves it alone. -/
theorem of_exec (t : Timer) {byte : UInt8} (h : i.exec byte m = .done after) :
    t.of after = ((t.source? i).map m.value).getD (t.of m) := by
  have hmachine : after = (i.exec byte m).machine := by
    rw [h]
    rfl
  rw [hmachine]
  cases hsource : t.source? i with
  | none => exact of_same (Instruction.exec_same byte (untouched_of_source? hsource))
  | some x => cases t <;> cases i <;> cases hsource <;> rfl

end Timer

namespace Call

variable {c : Call} {e : Emulator} {delta : Number} {due : Int}

/-- The whole ticks that are due in a call, if it is a cycle that gets under way. -/
def due? (c : Call) (e : Emulator) : Option Int :=
  match c with
  | cycle delta =>
    if e.loaded ∧ Number.le (.integer 0) delta then (e.ticksDue delta).toOption else none
  | _ => none

/-- What a call sets a timer to, if it executes the instruction that does so. -/
def sets? (t : Timer) (c : Call) (e : Emulator) : Option Int :=
  match c with
  | cycle delta => ((e.executed? delta).bind t.source?).map e.machine.value
  | _ => none

theorem due?_eq_some_iff : (cycle delta).due? e = some due ↔ Emulator.Timed delta due e := by
  have htimed : Emulator.Timed delta due e ↔
      (e.loaded = true ∧ Number.le (.integer 0) delta = true) ∧ e.ticksDue delta = .ok due :=
    ⟨fun h => ⟨⟨h.loaded, h.forward⟩, h.ticks⟩, fun h => ⟨h.1.1, h.1.2, h.2⟩⟩
  rw [htimed, due?]
  cases e.ticksDue delta <;> simp [Except.toOption]

/-- Nothing is due in a cycle that does not get under way. -/
theorem due?_of_idle (hnot : ∀ due, ¬Emulator.Timed delta due e) : (cycle delta).due? e = none :=
  Option.eq_none_iff_forall_ne_some.mpr fun due hdue => hnot due (due?_eq_some_iff.mp hdue)

/-- What is due is not negative. -/
theorem due?_nonneg (hclock : e.accumulator.isNegative = false) (h : c.due? e = some due) :
    0 ≤ due := by
  cases c with
  | cycle delta =>
    have htimed := due?_eq_some_iff.mp h
    exact Emulator.ticksDue_nonneg hclock htimed.forward htimed.ticks
  | _ => cases h

end Call

namespace Emulator

variable {e : Emulator}

/-- What is due in a run is what is due in its first call and in the rest of it. -/
theorem sum_due_cons (c : Call) (calls : List Call) (e : Emulator) :
    (observed Call.due? (c :: calls) e).sum =
      (c.due? e).getD 0 + (observed Call.due? calls (c.next e)).sum := by
  rw [observed]
  cases c.due? e <;> simp

/-- What is due in a run is not negative. -/
theorem sum_due_nonneg (h : e.Sound) (hclock : e.accumulator.isNegative = false)
    (calls : List Call) : 0 ≤ (observed Call.due? calls e).sum := by
  induction calls generalizing e with
  | nil => exact Int.le_refl 0
  | cons c calls ih =>
    have hrest := ih (h.next c) (accumulator_next h.runner hclock c)
    rw [sum_due_cons]
    cases hdue : c.due? e with
    | none => simpa using hrest
    | some due =>
      have hnonneg := Call.due?_nonneg hclock hdue
      rw [Option.getD_some]
      omega

end Emulator

namespace Timer

open Call Emulator

variable {e : Emulator} {delta : Number}

/-- A cycle that does not get under way leaves the timers alone. -/
theorem of_idle (t : Timer) (h : e.Sound) (delta : Number) (hnot : ∀ due, ¬Timed delta due e) :
    t.of e.machine = max 0 (t.of e.machine - ((Call.cycle delta).due? e).getD 0) := by
  have hbounds := t.of_bounds h.bounded
  rw [due?_of_idle hnot, Option.getD_none]
  omega

/-- A cycle that fails has taken what was due off the timers. -/
theorem of_failed (t : Timer) (h : e.Sound) (hclock : e.accumulator.isNegative = false)
    {r : Report Unit} (hcycle : Cycled delta e r) {f : EmulatorFault} (hfail : r.result = .error f) :
    t.of r.emulator.machine =
      max 0 (t.of e.machine - ((Call.cycle delta).due? e).getD 0) := by
  have hbroken {due : Int} {r : Report Unit} (htimed : Timed delta due e)
      (hr : BrokenOff delta due e r) : t.of r.emulator.machine =
        max 0 (t.of e.machine - ((Call.cycle delta).due? e).getD 0) := by
    rw [due?_eq_some_iff.mpr htimed, hr.machine]
    cases t <;> rfl
  cases hcycle with
  | unloaded hloaded =>
    exact of_idle t h delta fun due htimed => by cases htimed.loaded.symm.trans hloaded
  | backwards _ hforward =>
    exact of_idle t h delta fun due htimed => by cases htimed.forward.symm.trans hforward
  | untimed _ _ hdue =>
    exact of_idle t h delta fun due htimed => by cases htimed.ticks.symm.trans hdue
  | unfetched htimed _ hfetch =>
    have hdue := ticksDue_nonneg hclock htimed.forward htimed.ticks
    exact hbroken htimed (failedFetch h hdue hfetch).toBrokenOff
  | refused htimed _ hfetch hrun =>
    have hdue := ticksDue_nonneg hclock htimed.forward htimed.ticks
    obtain ⟨hend, rfl, rfl⟩ := fetch_inv h.bounded hfetch
    exact hbroken htimed (refusedWord h hdue hend hrun).toBrokenOff
  | waited | completed =>
    rw [close_eq] at hfail
    cases hfail

/-- A cycle that succeeds has done so, too, and may then have set a timer. -/
theorem of_completed (t : Timer) (h : e.Sound) (hclock : e.accumulator.isNegative = false)
    (hok : (e.cycle delta).result = .ok ()) :
    t.of (e.cycle delta).emulator.machine =
      (sets? t (.cycle delta) e).getD
        (max 0 (t.of e.machine - ((Call.cycle delta).due? e).getD 0)) := by
  have hcycle := cycle_cases h.runner delta
  have hexecuted := executed?_of_ok hok
  have hnone : e.machine.waiting = true → e.executed? delta = none := executed?_of_waiting
  rw [sets?]
  generalize e.executed? delta = executed? at hexecuted hnone ⊢
  generalize e.cycle delta = r at hcycle hok ⊢
  cases hcycle with
  | unloaded | backwards | untimed | unfetched | refused => cases hok
  | waited htimed hwaiting =>
    have hdue := ticksDue_nonneg hclock htimed.forward htimed.ticks
    rw [hnone hwaiting, due?_eq_some_iff.mpr htimed, close_eq]
    exact of_ticks t h.bounded hdue
  | completed htimed hwaiting hfetch hrun =>
    have hdue := ticksDue_nonneg hclock htimed.forward htimed.ticks
    obtain ⟨-, rfl, rfl⟩ := fetch_inv h.bounded hfetch
    rw [hexecuted hwaiting, due?_eq_some_iff.mpr htimed, close_eq]
    cases hword : Instruction.ofWord? e.machine.word with
    | none =>
      rw [runWord_of_none hword] at hrun
      cases hrun
    | some i =>
      rw [runWord_of_some hword, Instruction.run] at hrun
      rw [of_exec t (congrArg Prod.fst hrun), of_ticked, of_ticks t h.bounded hdue, Option.bind_some]
      cases t.source? i with
      | none => rfl
      | some x => exact value_ticked _ e.machine x

/-- **What a call does to a timer.**  It takes off what is due, unless it sets the timer. -/
theorem of_next (t : Timer) (h : e.Sound) (hclock : e.accumulator.isNegative = false) {c : Call}
    (hreset : c ≠ .reset) :
    t.of (c.next e).machine =
      (c.sets? t e).getD (max 0 (t.of e.machine - (c.due? e).getD 0)) := by
  have hstays (hpart : t.part ∉ c.touched) :
      t.of (c.next e).machine = max 0 (t.of e.machine - 0) := by
    have hbounds := t.of_bounds h.bounded
    rw [of_same (Call.next_same hpart)]
    omega
  cases c with
  | reset => exact absurd rfl hreset
  | load | keyDown | keyUp | trace | listen => exact hstays (by cases t <;> simp [part, touched])
  | cycle delta =>
    cases hresult : (e.cycle delta).result with
    | ok => exact of_completed t h hclock hresult
    | error fault =>
      rw [sets?, executed?_of_error hresult]
      exact of_failed t h hclock (cycle_cases h.runner delta) hresult

/-- A timer that is set holds what it is set to. -/
theorem of_set {t : Timer} {c : Call} {v : Int} (h : e.Sound)
    (hclock : e.accumulator.isNegative = false) (hset : c.sets? t e = some v) :
    t.of (c.next e).machine = v := by
  have hreset : c ≠ .reset := by
    rintro rfl
    cases hset
  rw [of_next t h hclock hreset, hset, Option.getD_some]

/-- **What is due in several calls adds up.**  Stopping at zero in each of them is no different from
stopping at zero once. -/
theorem of_after (t : Timer) {calls : List Call} (h : e.Sound)
    (hclock : e.accumulator.isNegative = false) (hreset : .reset ∉ calls)
    (hsets : observed (sets? t) calls e = []) :
    t.of (e.after calls).machine = max 0 (t.of e.machine - (observed due? calls e).sum) := by
  induction calls generalizing e with
  | nil =>
    have hbounds := t.of_bounds h.bounded
    simp only [after_nil, observed, List.sum_nil]
    omega
  | cons c calls ih =>
    obtain ⟨hc, hcalls⟩ : Call.reset ≠ c ∧ .reset ∉ calls := by simpa using hreset
    obtain ⟨hhead, htail⟩ := List.append_eq_nil_iff.mp hsets
    have hnone : c.sets? t e = none := by simpa using hhead
    have hrest := ih (h.next c) (accumulator_next h.runner hclock c) hcalls htail
    have hnext := of_next t h hclock (Ne.symm hc)
    rw [hnone, Option.getD_none] at hnext
    have hsum := sum_due_nonneg (h.next c) (accumulator_next h.runner hclock c) calls
    rw [after_cons, hrest, hnext, sum_due_cons]
    omega

end Timer

namespace Emulator

open Call Timer

variable {e : Emulator} {delta : Number}

/-- A cycle gets under way if it succeeds or if it is the machine that breaks it off. -/
theorem timed_of_result (h : e.Sound)
    (hresult : (e.cycle delta).result = .ok () ∨
      ∃ f, (e.cycle delta).result = .error (.machine f)) : ∃ due, Timed delta due e := by
  have hcycle := cycle_cases h.runner delta
  generalize e.cycle delta = r at hcycle hresult
  cases hcycle with
  | unloaded | backwards | untimed =>
    obtain hok | ⟨f, hfail⟩ := hresult
    · cases hok
    · cases hfail
  | waited htimed | unfetched htimed | refused htimed | completed htimed => exact ⟨_, htimed⟩

/-- **Timers decay by the ticks that are due, in any run.**  After any calls to a new emulator:

* a cycle that succeeds, or is broken off by the machine, has a whole number of ticks due that is not
  negative, and at most 255 ticks at once do the same as all of them;
* after more calls without a reset, none of which executes the instruction that sets a timer, the
  timer has lost the sum of what was due in the cycles, down to zero;
* if such an instruction is executed, this holds from the value that it sets, with what was due in the
  calls behind it. -/
theorem timers_decay (random : RandomSource) (hasTone : Bool) (calls : List Call) (t : Timer) :
    let e := (new random hasTone).after calls
    (∀ delta, (e.cycle delta).result = .ok () ∨
        (∃ f, (e.cycle delta).result = .error (.machine f)) →
      ∃ due, e.ticksDue delta = .ok due ∧ (Call.cycle delta).due? e = some due ∧ 0 ≤ due ∧
        e.machine.ticks (min due maxTicks).toNat = e.machine.ticks due.toNat) ∧
    (∀ more, .reset ∉ more → observed (sets? t) more e = [] →
      t.of (e.after more).machine = max 0 (t.of e.machine - (observed due? more e).sum)) ∧
    ∀ before c behind v, .reset ∉ behind → c.sets? t (e.after before) = some v →
      observed (sets? t) behind (e.after (before ++ [c])) = [] →
      t.of (e.after (before ++ c :: behind)).machine =
        max 0 (v - (observed due? behind (e.after (before ++ [c]))).sum) := by
  intro e
  have hreached (more : List Call) :
      (e.after more).Sound ∧ (e.after more).accumulator.isNegative = false := by
    have happend : e.after more = (new random hasTone).after (calls ++ more) :=
      (after_append calls more _).symm
    rw [happend]
    exact ⟨sound_after random hasTone _, accumulator_nonneg random hasTone _⟩
  obtain ⟨h, hclock⟩ := hreached []
  refine ⟨?_, fun more => of_after t h hclock, ?_⟩
  · intro delta hresult
    obtain ⟨due, htimed⟩ := timed_of_result h hresult
    have hdue := ticksDue_nonneg hclock htimed.forward htimed.ticks
    refine ⟨due, htimed.ticks, due?_eq_some_iff.mpr htimed, hdue, ?_⟩
    exact (ticks_of_due h.bounded hdue).trans (ticks_toNat h.bounded hdue).symm
  · intro before c behind v hreset hset hlater
    obtain ⟨hbefore, hclockBefore⟩ := hreached before
    obtain ⟨hsound, hclockSet⟩ := hreached (before ++ [c])
    have hv : t.of (e.after (before ++ [c])).machine = v := by
      rw [after_append]
      exact of_set hbefore hclockBefore hset
    have hend := of_after t hsound hclockSet hreset hlater
    rw [hv] at hend
    simpa using hend

/-- A program sets the delay timer to 100 and then only jumps.  A second after that there are 40 ticks
left, while a key has gone down.  Five seconds at once are more ticks than a timer can hold. -/
theorem timers_decay_of_delay :
    ∃ e : Emulator,
      e = (new (.cycle #[]) true).after [.load [0x60, 0x64, 0xF0, 0x15, 0x12, 0x04]] ∧
      e.machine.ticks (min (300 : Int) maxTicks).toNat = e.machine.ticks (300 : Int).toNat ∧
      Timer.delay.of (e.after [.cycle (.integer 5)]).machine = 0 ∧
      Timer.delay.of (e.after ([.cycle (.integer 0)] ++
        .cycle (.integer 0) :: [.keyDown 5, .cycle (.integer 1)])).machine = 40 := by
  have hrun := timers_decay (.cycle #[]) true [.load [0x60, 0x64, 0xF0, 0x15, 0x12, 0x04]] .delay
  dsimp only at hrun
  obtain ⟨e, he⟩ : ∃ e : Emulator,
      e = (new (.cycle #[]) true).after [.load [0x60, 0x64, 0xF0, 0x15, 0x12, 0x04]] := ⟨_, rfl⟩
  rw [← he] at hrun
  obtain ⟨htimed, hdecay, hset⟩ := hrun
  have hevaluated : (e.cycle (.integer 5)).result = .ok () ∧ e.ticksDue (.integer 5) = .ok 300 ∧
      Timer.delay.of e.machine = 0 ∧ observed (sets? .delay) [.cycle (.integer 5)] e = [] ∧
      (Call.cycle (.integer 0)).sets? .delay (e.after [.cycle (.integer 0)]) = some 100 ∧
      observed (sets? .delay) [.keyDown 5, .cycle (.integer 1)]
        (e.after ([.cycle (.integer 0)] ++ [.cycle (.integer 0)])) = [] ∧
      observed due? [.keyDown 5, .cycle (.integer 1)]
        (e.after ([.cycle (.integer 0)] ++ [.cycle (.integer 0)])) = [60] := by
    rw [he]
    decide +kernel
  obtain ⟨hok, hticks, hvalue, hnone, hsets, hbehind, hsixty⟩ := hevaluated
  obtain ⟨due, hdue, hcall, -, hsame⟩ := htimed (.integer 5) (.inl hok)
  cases hticks.symm.trans hdue
  have hempty := hdecay [.cycle (.integer 5)] (by simp) hnone
  have hleft := hset [.cycle (.integer 0)] (.cycle (.integer 0)) [.keyDown 5, .cycle (.integer 1)] 100
    (by simp) hsets hbehind
  rw [hsixty] at hleft
  have hfive : (observed due? [.cycle (.integer 5)] e).sum = 300 := by simp [observed, hcall]
  rw [hvalue, hfive] at hempty
  exact ⟨e, he, hsame, hempty, hleft⟩

end Emulator

end ChipEight
