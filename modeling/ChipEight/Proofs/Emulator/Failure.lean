import ChipEight.Proofs.Emulator.Clock
import ChipEight.Proofs.Emulator.MachineStep
import ChipEight.Proofs.Emulator.Sent

/-!
# What a failing cycle leaves

A cycle that the machine breaks off has done a part of its work, and which part is known exactly.
The timers have run down and the listeners have heard of its beginning; nothing has been done about
the tone, and nobody hears of an end.  `BrokenOff` says so for either place where it can happen.

Where the fetched word is refused, the counter stands behind the word and the word is in the trace:
`RefusedWord`.  Where no word can be fetched, neither has moved: `FailedFetch`.  Then nothing but a
reset helps.  The program counter has run off the end of memory, and `RunOff` is kept by every other
call (`RunOff.next`), while each later cycle fails in the same way and moves only the clock
(`RunOff.cycle`).
-/

namespace ChipEight

namespace Machine

/-- The machine with the timers run down by so many ticks, as far as they go. -/
def runDown (due : Int) (m : Machine) : Machine :=
  { m with
    delayTimer := max 0 (m.delayTimer - due)
    soundTimer := max 0 (m.soundTimer - due) }

/-- The limit on the ticks of a cycle is never felt: a timer is empty by then. -/
theorem ticks_of_due {m : Machine} (h : m.Bounded) {due : Int} (hdue : 0 ≤ due) :
    m.ticks (min due Emulator.maxTicks).toNat = m.runDown due := by
  have hlimit : (Emulator.maxTicks : Int) = 255 := rfl
  have hdelay := h.delayTimer
  have hsound := h.soundTimer
  rw [ticks_eq _ m hdelay.1 hsound.1, hlimit, runDown]
  congr 1 <;> omega

/-- A fetch fails at the end of memory only. -/
theorem fetch_error_inv {m : Machine} (h : m.Bounded) {ticks : Nat} {f : Fault}
    (hfetch : (m.ticks ticks).fetch = .error f) :
    4095 ≤ m.counter ∧ f = .memory (.counter m.counter) := by
  rw [fetch_ticks h] at hfetch
  split at hfetch <;> cases hfetch
  exact ⟨by omega, rfl⟩

end Machine

namespace Emulator

open Machine

variable {e : Emulator} {delta : Number} {due : Int}

/-- The emulator some time later, with all ticks that are due taken off the timers. -/
theorem elapse_eq (h : e.Sound) (hdue : 0 ≤ due) :
    e.elapse delta due =
      { e with accumulator := e.timeLeft delta, machine := e.machine.runDown due } := by
  rw [elapse, ticks_of_due h.bounded hdue]

/-- Until its word is executed, a cycle sends its beginning and the line for the trace. -/
theorem sentPoised_eq (delta : Number) (due word : Int) (fetched : Machine) (e : Emulator) :
    e.sentPoised delta due word fetched =
      e.opening ++
        if e.tracing then (emit .traceLine (.line (traceLine word fetched)) e).events else [] := by
  unfold sentPoised traceWord elapse
  cases e.tracing <;> rfl

/-! ### Where a cycle breaks off -/

/-- A cycle was broken off by the machine, with so many ticks due. -/
structure BrokenOff (delta : Number) (due : Int) (e : Emulator) (r : Report Unit) : Prop where
  /-- In the machine the timers have run down, and else only the counter may have moved. -/
  machine : r.emulator.machine =
    { e.machine.runDown due with counter := r.emulator.machine.counter }
  /-- Beside the machine, only the clock and the trace may be different. -/
  emulator : r.emulator =
    { e with
      machine := r.emulator.machine
      accumulator := e.timeLeft delta
      trace := r.emulator.trace }
  tones : tones r.events = []
  /-- Each listener for the beginning of cycles has been called, once and in order. -/
  opening : heard .beforeCycle r.events =
    (e.listenersFor "before_cycle").map fun n =>
      .heard .beforeCycle n (.address e.machine.counter)
  ending : heard .afterCycle r.events = []

/-- A cycle was broken off before a word was fetched. -/
structure FailedFetch (delta : Number) (due : Int) (f : Fault) (e : Emulator) (r : Report Unit) :
    Prop extends BrokenOff delta due e r where
  fetch : e.machine.fetch = .error f
  fault : f = .memory (.counter e.machine.counter)
  counter : r.emulator.machine.counter = e.machine.counter
  trace : r.emulator.trace = e.trace
  traced : heard .traceLine r.events = []

/-- A cycle was broken off by the word that it had fetched. -/
structure RefusedWord (delta : Number) (due : Int) (f : Fault) (e : Emulator) (r : Report Unit) :
    Prop extends BrokenOff delta due e r where
  run : r.emulator.machine.runWord e.machine.word e.random =
    (.stopped r.emulator.machine f, e.random)
  counter : r.emulator.machine.counter = e.machine.counter + 2
  /-- The trace has one more line, and the oldest one goes if there are too many. -/
  trace : r.emulator.trace.newestFirst =
    if e.tracing then
      (traceLine e.machine.word r.emulator.machine :: e.trace.newestFirst).take 2024
    else e.trace.newestFirst
  /-- Each listener for the trace has been told the line. -/
  traced : heard .traceLine r.events =
    if e.tracing then
      (e.listenersFor "tracelogger").map fun n =>
        .heard .traceLine n (.line (traceLine e.machine.word r.emulator.machine))
    else []

/-- What a cycle leaves if it cannot fetch a word. -/
theorem failedFetch (h : e.Sound) (hdue : 0 ≤ due) {f : Fault}
    (hfetch : (e.elapse delta due).machine.fetch = .error f) :
    FailedFetch delta due f e ⟨e.elapse delta due, e.opening, .error (.machine f)⟩ := by
  obtain ⟨hoff, rfl⟩ := fetch_error_inv h.bounded hfetch
  have hhere : e.machine.fetch = .error (.memory (.counter e.machine.counter)) := by
    rw [fetch_eq h.bounded.counter.1, if_neg (by omega)]
  rw [elapse_eq h hdue]
  exact
    { machine := rfl
      emulator := rfl
      tones := tones_opening e
      opening := (heard_opening .beforeCycle e).trans (opening_eq e)
      ending := heard_opening .afterCycle e
      fetch := hhere
      fault := rfl
      counter := rfl
      trace := rfl
      traced := heard_opening .traceLine e }

/-- What a cycle leaves if the word at the counter is refused. -/
theorem refusedWord (h : e.Sound) (hdue : 0 ≤ due) (hend : e.machine.counter + 1 < 4096)
    {stopped : Machine} {f : Fault} {random : RandomSource}
    (hrun : (e.machine.ticked (min due maxTicks).toNat).runWord e.machine.word e.random =
      (.stopped stopped f, random)) :
    RefusedWord delta due f e
      ⟨{ e.poised delta due e.machine.word (e.machine.ticked (min due maxTicks).toNat) with
          machine := stopped, random },
        e.sentPoised delta due e.machine.word (e.machine.ticked (min due maxTicks).toNat) ++
          (f.notice?.map Event.logged).toList,
        .error (.machine f)⟩ := by
  -- The word leaves the machine as it was fetched, since instructions are atomic.
  have hbounded := (h.bounded.ticked (min due maxTicks).toNat hend).toBounded
  obtain ⟨rfl, rfl⟩ : stopped = e.machine.ticked (min due maxTicks).toNat ∧ random = e.random := by
    obtain ⟨after, hdone⟩ | ⟨fault, hstopped⟩ := runWord_atomic hbounded e.machine.word e.random
    · rw [hrun] at hdone
      cases hdone
    · rw [hrun] at hstopped
      cases hstopped
      exact ⟨rfl, rfl⟩
  have hticked : e.machine.ticked (min due maxTicks).toNat =
      { e.machine.runDown due with counter := e.machine.counter + 2 } := by
    rw [ticked, ticks_of_due h.bounded hdue]
  rw [sentPoised_eq, poised_eq]
  exact
    { machine := by simp only [hticked]
      emulator := rfl
      tones := by split <;> simp
      opening := by split <;> simp [heard_emit, opening_eq]
      ending := by split <;> simp [heard_emit]
      run := hrun
      counter := rfl
      trace := by split <;> rfl
      traced := by split <;> simp [emit_events, Signal.name] }

/-! ### Off the end of memory -/

/-- The program counter has run off the end of memory, and no key is waited for. -/
structure RunOff (counter : Int) (e : Emulator) : Prop where
  sound : e.Sound
  clock : e.accumulator.isNegative = false
  loaded : e.loaded = true
  waiting : e.machine.waiting = false
  here : e.machine.counter = counter
  off : 4095 ≤ counter

namespace RunOff

variable {counter : Int}

/-- Then no word can be fetched, whatever time passes. -/
theorem fetch (h : e.RunOff counter) (ticks : Nat) :
    (e.machine.ticks ticks).fetch = .error (.memory (.counter counter)) := by
  have hoff := h.off
  rw [fetch_ticks h.sound.bounded, h.here, if_neg (by omega)]

/-- **Each cycle fails in the same way**, and moves only the timers and the clock. -/
theorem cycle (h : e.RunOff counter) (htimed : Timed delta due e) :
    0 ≤ due ∧
    e.cycle delta =
      ⟨{ e with accumulator := e.timeLeft delta, machine := e.machine.runDown due },
        (e.listenersFor "before_cycle").map fun n => .heard .beforeCycle n (.address counter),
        .error (.machine (.memory (.counter counter)))⟩ := by
  have hdue := ticksDue_nonneg h.clock htimed.forward htimed.ticks
  have hcycle := cycle_cases h.sound.runner delta
  refine ⟨hdue, ?_⟩
  generalize e.cycle delta = r at hcycle ⊢
  cases hcycle with
  | unloaded hloaded => simp [htimed.loaded] at hloaded
  | backwards _ hforward => simp [htimed.forward] at hforward
  | untimed _ _ hticks => simp [htimed.ticks] at hticks
  | waited _ hwaiting => simp [h.waiting] at hwaiting
  | unfetched htimed' _ hfetch =>
    cases htimed.ticks.symm.trans htimed'.ticks
    cases hfetch.symm.trans (h.fetch _)
    rw [elapse_eq h.sound hdue, opening_eq, h.here]
  | refused _ _ hfetch => cases hfetch.symm.trans (h.fetch _)
  | completed _ _ hfetch => cases hfetch.symm.trans (h.fetch _)

/-- A call does not help if a program is still loaded afterwards, no key is waited for and the
counter has not moved. -/
theorem of_call (h : e.RunOff counter) (c : Call) (hloaded : (c.next e).loaded = e.loaded)
    (hwaiting : (c.next e).machine.waiting = e.machine.waiting)
    (hcounter : (c.next e).machine.counter = e.machine.counter) : RunOff counter (c.next e) where
  sound := h.sound.next c
  clock := accumulator_next h.sound.runner h.clock c
  loaded := hloaded.trans h.loaded
  waiting := hwaiting.trans h.waiting
  here := hcounter.trans h.here
  off := h.off

/-- A cycle does not help: no word is fetched. -/
theorem next_cycle (h : e.RunOff counter) (delta : Number) :
    RunOff counter ((Call.cycle delta).next e) := by
  have hoff : ¬e.machine.counter + 1 < 4096 := by
    have hhere := h.here
    have hoff := h.off
    omega
  obtain ⟨ticks, hafter⟩ : ∃ ticks, (e.cycle delta).emulator.machine = e.machine.ticks ticks := by
    cases machine_step h.sound delta with
    | idle ticks _ hafter => exact ⟨ticks, hafter⟩
    | refused _ _ _ hend => exact absurd hend hoff
    | executed _ _ _ _ hend => exact absurd hend hoff
  refine h.of_call (.cycle delta) (loaded_cycle h.sound.runner delta) ?_ ?_
  · rw [Call.next_cycle, hafter]
    exact (same_ticks (p := .keyWait) ticks e.machine (by decide)).1
  · rw [Call.next_cycle, hafter]
    exact same_ticks (p := .counter) ticks e.machine (by decide)

/-- **Nothing but a reset helps.** -/
theorem next (h : e.RunOff counter) {c : Call} (hc : c ≠ .reset) : RunOff counter (c.next e) := by
  cases c with
  | load program =>
    obtain hnext | ⟨hunloaded, -⟩ := Call.next_load program e
    · rw [hnext]
      exact h
    · simp [h.loaded] at hunloaded
  | reset => exact absurd rfl hc
  | keyDown key =>
    -- No key is waited for, so none is captured.
    have hpress : e.machine.press key =
        { e.machine with keys := e.machine.keys.setIfInBounds key.toNat true } :=
      if_neg (by simp [h.waiting])
    have hnext := Call.next_keyDown key e
    rw [hpress] at hnext
    apply h.of_call <;> rw [hnext] <;> split <;> rfl
  | keyUp key => apply h.of_call <;> rw [Call.next_keyUp] <;> split <;> rfl
  | cycle delta => exact h.next_cycle delta
  | trace on => exact h.of_call (.trace on) rfl rfl rfl
  | listen name => exact h.of_call (.listen name) rfl rfl rfl

/-- Nor does any run without one. -/
theorem after (h : e.RunOff counter) {calls : List Call} (hcalls : .reset ∉ calls) :
    RunOff counter (e.after calls) := by
  induction calls generalizing e with
  | nil => exact h
  | cons c calls ih =>
    obtain ⟨hc, hrest⟩ := List.ne_and_not_mem_of_not_mem_cons hcalls
    exact ih (h.next hc.symm) hrest

end RunOff

/-- A cycle that cannot fetch a word has run off the end of memory. -/
theorem runOff_of_unfetched (h : e.Sound) (hclock : e.accumulator.isNegative = false)
    (htimed : Timed delta due e) (hwaiting : e.machine.waiting = false) {f : Fault}
    (hfetch : (e.elapse delta due).machine.fetch = .error f) :
    RunOff e.machine.counter (e.elapse delta due) where
  sound := ⟨h.runner, h.bounded.ticks _⟩
  clock := timeLeft_nonneg hclock htimed.forward
  loaded := htimed.loaded
  waiting := (waiting_elapse delta due e).trans hwaiting
  here := same_ticks (p := .counter) _ e.machine (by decide)
  off := (fetch_error_inv h.bounded hfetch).1

/-- A cycle that the machine breaks off ends in one of two places. -/
theorem failed_cases (h : e.Sound) (hclock : e.accumulator.isNegative = false) {r : Report Unit}
    (hcycle : Cycled delta e r) {f : Fault} (hfail : r.result = .error (.machine f)) :
    ∃ due, 0 ≤ due ∧ Timed delta due e ∧
      (RefusedWord delta due f e r ∨
        FailedFetch delta due f e r ∧ RunOff e.machine.counter r.emulator) := by
  cases hcycle with
  | unloaded | backwards | untimed => cases hfail
  | waited =>
    rw [close_eq] at hfail
    cases hfail
  | completed =>
    rw [close_eq] at hfail
    cases hfail
  | refused htimed _ hfetch hrun =>
    cases hfail
    have hdue := ticksDue_nonneg hclock htimed.forward htimed.ticks
    obtain ⟨hend, rfl, rfl⟩ := fetch_inv h.bounded hfetch
    exact ⟨_, hdue, htimed, .inl (refusedWord h hdue hend hrun)⟩
  | unfetched htimed hwaiting hfetch =>
    cases hfail
    have hdue := ticksDue_nonneg hclock htimed.forward htimed.ticks
    have hoff := runOff_of_unfetched h hclock htimed hwaiting hfetch
    exact ⟨_, hdue, htimed, .inr ⟨failedFetch h hdue hfetch, hoff⟩⟩

/-- **A failing cycle leaves a precisely known state.**  After any run, a cycle that the machine
breaks off has called every listener for its beginning and taken the ticks that were due off the
timers.  Either it had fetched a word, which was refused: then it leaves the counter behind the
word and a line about it in the trace, and nothing else in the machine is different.  Or it could
not fetch: then it leaves the counter and the trace as well, and until the next reset each cycle
for which the clock has a number of ticks fails with the same fault and moves the timers and the
clock only. -/
theorem failing_cycle (random : RandomSource) (hasTone : Bool) (calls : List Call) (delta : Number)
    {f : Fault}
    (hfail : (((new random hasTone).after calls).cycle delta).result = .error (.machine f)) :
    let e := (new random hasTone).after calls
    let r := e.cycle delta
    ∃ due, 0 ≤ due ∧ Timed delta due e ∧
      (RefusedWord delta due f e r ∨
        FailedFetch delta due f e r ∧
          ∀ later, .reset ∉ later → ∀ delta' due',
            let e' := r.emulator.after later
            Number.le (.integer 0) delta' = true → e'.ticksDue delta' = .ok due' →
              0 ≤ due' ∧
              e'.cycle delta' =
                ⟨{ e' with
                    accumulator := e'.timeLeft delta', machine := e'.machine.runDown due' },
                  (e'.listenersFor "before_cycle").map fun n =>
                    .heard .beforeCycle n (.address e.machine.counter),
                  .error (.machine f)⟩) := by
  have h := sound_after random hasTone calls
  have hclock := accumulator_nonneg random hasTone calls
  intro e r
  obtain ⟨due, hdue, htimed, hrefused | ⟨hfailed, hoff⟩⟩ :=
    failed_cases h hclock (cycle_cases h.runner delta) hfail
  · exact ⟨due, hdue, htimed, .inl hrefused⟩
  · refine ⟨due, hdue, htimed, .inr ⟨hfailed, ?_⟩⟩
    intro later hlater delta' due' e' hforward hticks
    have hstill := hoff.after hlater
    rw [hfailed.fault]
    exact hstill.cycle ⟨hstill.loaded, hforward, hticks⟩

/-- Two cycles that fail.  With tracing on and listeners for both signals, a word that names nothing
leaves its line.  A jump to the last byte of memory leaves no word to fetch, and pressing a key does
not help. -/
theorem failing_cycle_of_unknown_word_and_at_end_of_memory :
    let line := "0200: opcode: 800F ???              | I: 0000 | SP: 00 | DT: 00 | ST: 00" ++
      " | V: 00 00 00 00 00 00 00 00 00 00 00 00 00 00 00 00"
    let traced := (new (.cycle #[]) true).after
      [.listen "tracelogger", .listen "before_cycle", .trace true, .load [0x80, 0x0F]]
    let refused := traced.cycle (.integer 0)
    let ended := (new (.cycle #[]) true).after
      [.listen "before_cycle", .load [0x1F, 0xFF], .cycle (.integer 0)]
    let stuck := (ended.cycle (.integer 0)).emulator.after [.keyDown 5]
    (refused.result = .error (.machine (.unknownOpcode 0x800F 0x202 (List.replicate 16 0))) ∧
      refused.emulator.machine.counter = 0x202 ∧
      refused.emulator.trace.newestFirst = [line] ∧
      heard .beforeCycle refused.events = [.heard .beforeCycle 2 (.address 0x200)] ∧
      heard .traceLine refused.events = [.heard .traceLine 1 (.line line)]) ∧
    (ended.cycle (.integer 0)).result = .error (.machine (.memory (.counter 0xFFF))) ∧
    heard .beforeCycle (ended.cycle (.integer 0)).events =
      [.heard .beforeCycle 1 (.address 0xFFF)] ∧
    (stuck.cycle (.integer 0)).events = [.heard .beforeCycle 1 (.address 0xFFF)] ∧
    (stuck.cycle (.integer 0)).result = .error (.machine (.memory (.counter 0xFFF))) := by
  intro line traced refused ended stuck
  constructor
  · have hfail : refused.result =
        .error (.machine (.unknownOpcode 0x800F 0x202 (List.replicate 16 0))) := by decide +kernel
    have hline : traceLine traced.machine.word refused.emulator.machine = line := by decide +kernel
    have hbefore : traced.machine.counter = 0x200 ∧ traced.tracing = true ∧
        traced.trace.newestFirst = [] := by decide +kernel
    have hnumbers : traced.listenersFor "before_cycle" = [2] ∧
        traced.listenersFor "tracelogger" = [1] := by decide +kernel
    obtain ⟨due, -, -, hrefused | ⟨hfailed, -⟩⟩ := failing_cycle (.cycle #[]) true
      [.listen "tracelogger", .listen "before_cycle", .trace true, .load [0x80, 0x0F]] (.integer 0)
      hfail
    · refine ⟨hfail, ?_, ?_, ?_, ?_⟩
      · rw [hrefused.counter, hbefore.1]
        rfl
      · rw [hrefused.trace, if_pos hbefore.2.1, hline, hbefore.2.2]
        rfl
      · rw [hrefused.opening, hnumbers.1, hbefore.1]
        rfl
      · rw [hrefused.traced, if_pos hbefore.2.1, hline, hnumbers.2]
        rfl
    · exact absurd hfailed.fault (by simp)
  · have hfail : (ended.cycle (.integer 0)).result =
        .error (.machine (.memory (.counter 0xFFF))) := by decide +kernel
    have hhere : (ended.cycle (.integer 0)).emulator.machine.counter ≠ ended.machine.counter + 2 := by
      decide +kernel
    have hticks : stuck.ticksDue (.integer 0) = .ok 0 := by decide +kernel
    have hcounter : ended.machine.counter = 0xFFF := by decide +kernel
    have hnumbers : ended.listenersFor "before_cycle" = [1] ∧
        stuck.listenersFor "before_cycle" = [1] := by decide +kernel
    obtain ⟨due, -, -, hrefused | ⟨hfailed, hstuck⟩⟩ := failing_cycle (.cycle #[]) true
      [.listen "before_cycle", .load [0x1F, 0xFF], .cycle (.integer 0)] (.integer 0) hfail
    · unfold ended at hhere
      exact absurd hrefused.counter hhere
    · have hcycle := hstuck [.keyDown 5] (by simp) (.integer 0) 0 (by decide) hticks
      refine ⟨hfail, ?_, ?_⟩
      · rw [hfailed.opening, hnumbers.1, hcounter]
        rfl
      · rw [hcycle.2, hnumbers.2, hcounter]
        exact ⟨rfl, rfl⟩

end Emulator

end ChipEight
