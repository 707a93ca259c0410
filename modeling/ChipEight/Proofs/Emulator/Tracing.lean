import ChipEight.Proofs.Emulator.Timer
import ChipEight.Proofs.Emulator.Untraced

/-!
# What tracing records

A `TraceEntry` is what a line of the trace is about: a fetched word, the address that it was fetched
from, and the registers as they are before the word is executed.  `Call.entry?` tells from the
outside whether a call leaves an entry, and which: a cycle does so if tracing is on, no key is waited
for and a word can be fetched, whatever becomes of the word.  By then the ticks that are due have been
taken off the timers.

The lines about these entries are all that is recorded.  A listener for the trace is told each of them
once, in order, and nothing else (`told_sent`); and the trace holds the newest of them since the
emulator was new or reset, as many as there is room for (`newestFirst_after`).
-/

namespace ChipEight

/-- What a line of the trace is about. -/
structure TraceEntry where
  /-- Where the word was fetched. -/
  address : Int
  word : Int
  index : Int
  stackPointer : Int
  delayTimer : Int
  soundTimer : Int
  registers : List Int

/-- The line about an entry. -/
def TraceEntry.line (t : TraceEntry) : String :=
  let hex := Text.Hex.padded
  hex 4 t.address ++ ": opcode: " ++ hex 4 t.word ++ " " ++ padRight 16 (mnemonic t.word)
    ++ " | I: " ++ hex 4 t.index
    ++ " | SP: " ++ hex 2 t.stackPointer
    ++ " | DT: " ++ hex 2 t.delayTimer
    ++ " | ST: " ++ hex 2 t.soundTimer
    ++ " | V: " ++ " ".intercalate (t.registers.map (hex 2))

namespace Trace

variable {t : Trace} {older : List String}

/-- A line that is added drives out the oldest one, if there is no room. -/
theorem newestFirst_push (h : t.newestFirst = older.take limit) (line : String) :
    (t.push line).newestFirst = (line :: older).take limit := by
  have hroom (n : Nat) : (line :: older.take n).take n = (line :: older).take n := by
    cases n with
    | zero => rfl
    | succ n => simp [List.take_take]
  rw [push, h, hroom]

/-- So only the newest of several lines are kept. -/
theorem newestFirst_foldl (h : t.newestFirst = older.take limit) (lines : List String) :
    (lines.foldl (fun t line => t.push line) t).newestFirst =
      (lines.reverse ++ older).take limit := by
  induction lines generalizing t older with
  | nil => exact h
  | cons line lines ih =>
    rw [List.foldl_cons, ih (newestFirst_push h line), List.reverse_cons, List.append_assoc]
    rfl

end Trace

namespace Event

/-- What a listener is told, if the event is a call of this listener. -/
def told? (listener : Nat) : Event → Option (Signal × Argument)
  | heard signal l argument => if l = listener then some (signal, argument) else none
  | tone _ | word _ | logged _ => none

end Event

/-- All that a listener is told, in order. -/
def told (listener : Nat) (events : List Event) : List (Signal × Argument) :=
  events.filterMap (Event.told? listener)

@[simp] theorem told_nil (listener : Nat) : told listener [] = [] := rfl

@[simp] theorem told_append (listener : Nat) (events more : List Event) :
    told listener (events ++ more) = told listener events ++ told listener more :=
  List.filterMap_append

@[simp] theorem told_notice (listener : Nat) (f : Fault) :
    told listener (f.notice?.map Event.logged).toList = [] := by
  cases f.notice? <;> rfl

/-- The entry about a word that the machine fetches when so many ticks are due. -/
def Machine.entry (due word : Int) (m : Machine) : TraceEntry where
  address := m.counter
  word := word
  index := m.index
  stackPointer := m.stackPointer
  delayTimer := max 0 (m.delayTimer - due)
  soundTimer := max 0 (m.soundTimer - due)
  registers := m.registerValues

/-- When its line is written, the counter stands behind the word. -/
theorem Machine.line_entry (due word : Int) (m : Machine) :
    (m.entry due word).line = traceLine word { m.runDown due with counter := m.counter + 2 } := by
  have hback : m.counter + 2 - 2 = m.counter := by omega
  unfold traceLine
  dsimp only
  rw [hback]
  rfl

namespace Call

/-- The entry that a call leaves in the trace. -/
def entry? (c : Call) (e : Emulator) : Option TraceEntry :=
  match c.due? e, e.machine.fetch with
  | some due, .ok (word, _) =>
    if e.tracing ∧ ¬e.machine.waiting then some (e.machine.entry due word) else none
  | _, _ => none

/-- The line that a call adds to the trace. -/
def lines (c : Call) (e : Emulator) : List String :=
  ((c.entry? e).map TraceEntry.line).toList

/-- Without time that is due there is no line, -/
theorem lines_of_not_due {c : Call} {e : Emulator} (h : c.due? e = none) : c.lines e = [] := by
  unfold lines entry?
  rw [h]
  rfl

/-- so that only cycles add lines. -/
theorem lines_of_other {c : Call} (hc : ∀ delta, c ≠ .cycle delta) (e : Emulator) :
    c.lines e = [] := by
  apply lines_of_not_due
  cases c with
  | cycle delta => exact absurd rfl (hc delta)
  | load | reset | keyDown | keyUp | trace | listen => rfl

end Call

namespace Emulator

open Machine

variable {e : Emulator} {delta : Number} {due : Int}

/-- All lines that are added to the trace in a run, in order. -/
def recorded (calls : List Call) (e : Emulator) : List String :=
  (observed Call.entry? calls e).map TraceEntry.line

theorem recorded_cons (c : Call) (calls : List Call) (e : Emulator) :
    recorded (c :: calls) e = c.lines e ++ recorded calls (c.next e) := by
  unfold recorded Call.lines
  rw [observed, List.map_append]
  cases c.entry? e <;> rfl

/-! ### The lines of one call -/

/-- A cycle that does not get under way adds no line. -/
theorem lines_of_idle (hnot : ∀ due, ¬Timed delta due e) : (Call.cycle delta).lines e = [] :=
  Call.lines_of_not_due (Call.due?_of_idle hnot)

/-- Nor does one that waits for a key, -/
theorem lines_of_waiting (hwaiting : e.machine.waiting = true) (c : Call) : c.lines e = [] := by
  unfold Call.lines Call.entry?
  split
  · simp [hwaiting]
  · rfl

/-- or one that finds no word. -/
theorem lines_of_unfetched {f : Fault} (hfetch : e.machine.fetch = .error f) (c : Call) :
    c.lines e = [] := by
  unfold Call.lines Call.entry?
  rw [hfetch]
  cases c.due? e <;> rfl

/-- A cycle that finds a word adds the line about it if tracing is on. -/
theorem lines_of_fetched (h : e.Sound) (hdue : 0 ≤ due) (htimed : Timed delta due e)
    (hwaiting : e.machine.waiting = false) (hend : e.machine.counter + 1 < 4096) :
    (Call.cycle delta).lines e =
      if e.tracing then
        [traceLine e.machine.word (e.machine.ticked (min due maxTicks).toNat)]
      else [] := by
  have hfetch : e.machine.fetch =
      .ok (e.machine.word, { e.machine with counter := e.machine.counter + 2 }) := by
    rw [fetch_eq h.bounded.counter.1, if_pos hend]
  have hdue? : (Call.cycle delta).due? e = some due := Call.due?_eq_some_iff.mpr htimed
  unfold Call.lines Call.entry?
  rw [hfetch, hdue?, ticked, ticks_of_due h.bounded hdue]
  cases e.tracing with
  | false => rfl
  | true => simp [hwaiting, line_entry, runDown]

/-! ### Who is told -/

/-- Of calls of listeners, one is told as often as it is called. -/
theorem told_map (signal : Signal) (argument : Argument) (listener : Nat) (numbers : List Nat) :
    told listener (numbers.map fun n => .heard signal n argument) =
      List.replicate (numbers.count listener) (signal, argument) := by
  induction numbers with
  | nil => rfl
  | cons n numbers ih =>
    rw [told] at ih ⊢
    by_cases h : n = listener <;> simp [h, ih, Event.told?, List.replicate_succ]

/-- A listener is told of the signals that it has asked for. -/
theorem told_emit (signal : Signal) (argument : Argument) (e : Emulator) (n : Nat) :
    told (n + 1) (emit signal argument e).events =
      if e.listeners[n]? = some signal.name then [(signal, argument)] else [] := by
  rw [emit_events, told_map, (nodup_listenersFor signal.name e).count]
  simp only [mem_listenersFor]
  split <;> rfl

/-- The switch of the tone is no call of a listener. -/
@[simp] theorem told_setTone (listener : Nat) (playing : Bool) (e : Emulator) :
    told listener (setTone playing e).events = [] := by
  unfold setTone
  split
  · rfl
  · cases e.hasTone <;> rfl

section Listener

variable {n : Nat} (hname : e.listeners[n]? = some "tracelogger")
include hname

/-- A listener for the trace is not told when a cycle begins, -/
theorem told_opening : told (n + 1) e.opening = [] := by
  simp [opening, told_emit, hname, Signal.name]

/-- but when a word is traced, -/
theorem told_sentPoised (delta : Number) (due word : Int) (fetched : Machine) :
    told (n + 1) (e.sentPoised delta due word fetched) =
      if e.tracing then [(.traceLine, .line (traceLine word fetched))] else [] := by
  rw [sentPoised_eq, told_append, told_opening hname]
  cases e.tracing <;> simp [told_emit, hname, Signal.name]

/-- and not when the cycle ends. -/
theorem told_close (sent : List Event) : told (n + 1) (e.close sent).events = told (n + 1) sent := by
  unfold close
  rw [Report.andThen_of_ok (a := ()) (by rw [setTone_eq]), setTone_eq]
  simp [told_emit, hname, Signal.name]

end Listener

/-! ### The record of a run -/

/-- What a call records: these lines are added to the trace, and each listener for the trace is told
them and nothing else. -/
structure Records {α : Type} (lines : List String) (e : Emulator) (r : Report α) : Prop where
  trace : r.emulator.trace = lines.foldl (fun t line => t.push line) e.trace
  told {n : Nat} (hname : e.listeners[n]? = some "tracelogger") :
    told (n + 1) r.events = lines.map fun line => (.traceLine, .line line)

/-- **A cycle records its line.** -/
theorem records_cycle (h : e.Sound) (hclock : e.accumulator.isNegative = false) (delta : Number) :
    Records ((Call.cycle delta).lines e) e (e.cycle delta) := by
  have hcycle := cycle_cases h.runner delta
  generalize e.cycle delta = r at hcycle ⊢
  cases hcycle with
  | unloaded hloaded =>
    rw [lines_of_idle fun due htimed => by cases htimed.loaded.symm.trans hloaded]
    exact ⟨rfl, fun _ => rfl⟩
  | backwards _ hforward =>
    rw [lines_of_idle fun due htimed => by cases htimed.forward.symm.trans hforward]
    exact ⟨rfl, fun _ => rfl⟩
  | untimed _ _ hdue =>
    rw [lines_of_idle fun due htimed => by cases htimed.ticks.symm.trans hdue]
    exact ⟨rfl, fun hname => told_opening hname⟩
  | @waited due htimed hwaiting =>
    rw [lines_of_waiting hwaiting]
    refine ⟨by rw [close_eq]; rfl, fun hname => ?_⟩
    exact (told_close (e := e.elapse delta due) hname e.opening).trans (told_opening hname)
  | unfetched htimed hwaiting hfetch =>
    have hdue := ticksDue_nonneg hclock htimed.forward htimed.ticks
    rw [lines_of_unfetched (failedFetch h hdue hfetch).fetch]
    exact ⟨rfl, fun hname => told_opening hname⟩
  | refused htimed hwaiting hfetch hrun =>
    have hdue := ticksDue_nonneg hclock htimed.forward htimed.ticks
    obtain ⟨hend, rfl, rfl⟩ := fetch_inv h.bounded hfetch
    rw [lines_of_fetched h hdue htimed hwaiting hend]
    refine ⟨?_, fun hname => ?_⟩
    · rw [poised_eq]
      cases e.tracing <;> rfl
    · rw [told_append, told_sentPoised hname, told_notice]
      cases e.tracing <;> rfl
  | @completed due _ _ done random htimed hwaiting hfetch hrun =>
    have hdue := ticksDue_nonneg hclock htimed.forward htimed.ticks
    obtain ⟨hend, rfl, rfl⟩ := fetch_inv h.bounded hfetch
    rw [lines_of_fetched h hdue htimed hwaiting hend]
    refine ⟨?_, fun hname => ?_⟩
    · rw [close_eq, poised_eq]
      cases e.tracing <;> rfl
    · rw [told_close (by rw [poised_eq]; exact hname), told_sentPoised hname]
      cases e.tracing <;> rfl

/-- Other calls tell no listener anything. -/
theorem told_of_other {c : Call} (hc : ∀ delta, c ≠ .cycle delta) (listener : Nat) :
    told listener (c.report e).events = [] := by
  cases c with
  | load program =>
    simp only [Call.report, load]
    split
    · rfl
    · cases e.machine.load program <;> rfl
  | reset =>
    have hevents : (Call.reset.report e).events =
        [.logged (.info "Resetting emulator...")] ++ (setTone false e).events :=
      congrArg Report.events (Call.reset_eq e)
    rw [hevents, told_append, told_setTone]
    rfl
  | keyDown key =>
    simp only [Call.report, keyDown]
    split
    · split <;> rfl
    · rfl
  | keyUp key =>
    simp only [Call.report, keyUp]
    split <;> rfl
  | cycle delta => exact absurd rfl (hc delta)
  | trace on => rfl
  | listen name => rfl

/-- They leave the trace alone, except for a reset. -/
theorem trace_of_other {c : Call} (hc : ∀ delta, c ≠ .cycle delta) (hreset : c ≠ .reset) :
    (c.next e).trace = e.trace := by
  cases c with
  | load program => obtain hnext | ⟨-, _, -, hnext⟩ := Call.next_load program e <;> rw [hnext]
  | reset => exact absurd rfl hreset
  | keyDown key =>
    rw [Call.next_keyDown]
    split <;> rfl
  | keyUp key =>
    rw [Call.next_keyUp]
    split <;> rfl
  | cycle delta => exact absurd rfl (hc delta)
  | trace on => rfl
  | listen name => rfl

/-- A listener remains registered. -/
theorem listener_next (h : e.Sound) {n : Nat} {name : String} (hname : e.listeners[n]? = some name)
    (c : Call) : (c.next e).listeners[n]? = some name := by
  cases hfits : c.fits with
  | false => rw [(fittedAs_next h.runner hfits).listeners, hname]
  | true =>
    cases c with
    | trace on => exact hname
    | listen added =>
      obtain ⟨hlt, -⟩ := List.getElem?_eq_some_iff.mp hname
      rw [Call.next_listen, List.getElem?_append_left hlt, hname]
    | load | reset | keyDown | keyUp | cycle => cases hfits

/-- **Each listener for the trace is told the lines of a run**, once each, in order, and nothing
else. -/
theorem told_sent (h : e.Sound) (hclock : e.accumulator.isNegative = false) {n : Nat}
    (hname : e.listeners[n]? = some "tracelogger") (calls : List Call) :
    told (n + 1) (sent calls e) = (recorded calls e).map fun line => (.traceLine, .line line) := by
  induction calls generalizing e with
  | nil => rfl
  | cons c calls ih =>
    have hcall : told (n + 1) (c.report e).events =
        (c.lines e).map fun line => (.traceLine, .line line) := by
      by_cases hc : ∃ delta, c = .cycle delta
      · obtain ⟨delta, rfl⟩ := hc
        exact (records_cycle h hclock delta).told hname
      · rw [not_exists] at hc
        rw [told_of_other hc, Call.lines_of_other hc]
        rfl
    have hrest := ih (h.next c) (accumulator_next h.runner hclock c) (listener_next h hname c)
    rw [sent, told_append, hcall, hrest, recorded_cons, List.map_append]

/-- **The trace holds the newest lines of a run**, and behind them those that were there before, as
far as there is room. -/
theorem newestFirst_after (h : e.Sound) (hclock : e.accumulator.isNegative = false)
    {older : List String} (holder : e.trace.newestFirst = older.take Trace.limit)
    {calls : List Call} (hcalls : .reset ∉ calls) :
    (e.after calls).trace.newestFirst = ((recorded calls e).reverse ++ older).take Trace.limit := by
  induction calls generalizing e older with
  | nil => exact holder
  | cons c calls ih =>
    obtain ⟨hreset, hrest⟩ : Call.reset ≠ c ∧ .reset ∉ calls := by simpa using hcalls
    have hcall : (c.next e).trace = (c.lines e).foldl (fun t line => t.push line) e.trace := by
      by_cases hc : ∃ delta, c = .cycle delta
      · obtain ⟨delta, rfl⟩ := hc
        exact (records_cycle h hclock delta).trace
      · rw [not_exists] at hc
        rw [trace_of_other hc hreset.symm, Call.lines_of_other hc]
        rfl
    have hnewest := Trace.newestFirst_foldl holder (c.lines e)
    rw [← hcall] at hnewest
    rw [after_cons, ih (h.next c) (accumulator_next h.runner hclock c) hnewest hrest, recorded_cons,
      List.reverse_append, List.append_assoc]

/-- The trace is empty at the beginning and after a reset. -/
theorem trace_of_start {before : List Call} (hstart : before = [] ∨ before.getLast? = some .reset)
    (random : RandomSource) (hasTone : Bool) :
    ((new random hasTone).after before).trace = {} := by
  rcases hstart with rfl | hlast
  · rfl
  · obtain ⟨earlier, rfl⟩ := List.getLast?_eq_some_iff.mp hlast
    rw [after_append, after_cons, Call.next_reset]
    rfl

/-- **Tracing observes without interfering**, and records exactly what is fetched.

* Two runs of a new emulator that differ only in how tracing is switched look the same, call by call,
  if the trace and the calls of its listeners are left out; so all results, machines and clocks are the
  same, and the same is sent about the tone.
* From its registration on, a listener for the trace is called once for each entry of the run, in
  order, with the line about it, and is not called otherwise.
* The trace holds the lines about the last 2024 entries since the emulator was new or reset, or about
  all of them if there are fewer. -/
theorem tracing_observes (random : RandomSource) (hasTone : Bool) :
    (∀ calls calls', unswitched calls = unswitched calls' →
      observed Call.seen? calls (new random hasTone) =
          observed Call.seen? calls' (new random hasTone) ∧
        tones (sent calls (new random hasTone)) = tones (sent calls' (new random hasTone)) ∧
        ((new random hasTone).after calls).untraced =
          ((new random hasTone).after calls').untraced) ∧
    (∀ before calls,
      let e := (new random hasTone).after before
      let (listening, number) := e.listen "tracelogger"
      told number (sent calls listening) =
        (observed Call.entry? calls listening).map fun t => (.traceLine, .line t.line)) ∧
    (∀ before since, before = [] ∨ before.getLast? = some .reset → .reset ∉ since →
      let e := (new random hasTone).after before
      let lines := (observed Call.entry? since e).map TraceEntry.line
      (e.after since).trace.lines = lines.drop (lines.length - 2024)) := by
  refine ⟨fun calls calls' h => run_untraced h _, ?_, ?_⟩
  · intro before calls e
    have hname : (e.listen "tracelogger").1.listeners[e.listeners.length]? = some "tracelogger" :=
      List.getElem?_concat_length
    have hsound := (sound_after random hasTone before).next (.listen "tracelogger")
    have hclock : (e.listen "tracelogger").1.accumulator.isNegative = false :=
      accumulator_nonneg random hasTone before
    have htold := told_sent hsound hclock hname calls
    rw [recorded, List.map_map] at htold
    exact htold
  · intro before since hstart hsince e lines
    have htrace : e.trace.newestFirst = ([] : List String).take Trace.limit := by
      rw [show e.trace = {} from trace_of_start hstart random hasTone]
      rfl
    have hnewest := newestFirst_after (sound_after random hasTone before)
      (accumulator_nonneg random hasTone before) htrace hsince
    rw [List.append_nil] at hnewest
    calc (e.after since).trace.lines
        = (lines.reverse.take 2024).reverse := by rw [Trace.lines, hnewest]; rfl
      _ = lines.drop (lines.length - 2024) := by rw [List.take_reverse, List.reverse_reverse]

/-- A word is refused after tracing has been switched off and on again.  Nothing else shows that it has
been traced, and both words are told and kept. -/
theorem tracing_observes_of_refused_word :
    let program := [0x60, 0x0A, 0x80, 0x0F]
    let calls := [.trace true, .load program, .cycle (.integer 0), .trace false, .trace true,
      .cycle (.integer 0)]
    let quiet := [.load program, .cycle (.integer 0), .cycle (.integer 0)]
    let e := new (.cycle #[]) true
    let listening := (e.listen "tracelogger").1
    let lines := [
      "0200: opcode: 600A LD V0, 0x0A      | I: 0000 | SP: 00 | DT: 00 | ST: 00" ++
        " | V: 00 00 00 00 00 00 00 00 00 00 00 00 00 00 00 00",
      "0202: opcode: 800F ???              | I: 0000 | SP: 00 | DT: 00 | ST: 00" ++
        " | V: 0A 00 00 00 00 00 00 00 00 00 00 00 00 00 00 00"]
    observed Call.seen? calls e = observed Call.seen? quiet e ∧
      told 1 (sent calls listening) = lines.map (fun line => (.traceLine, .line line)) ∧
      (listening.after calls).trace.lines = lines := by
  intro program calls quiet e listening lines
  obtain ⟨hsame, htold, htrace⟩ := tracing_observes (.cycle #[]) true
  have hlines : (observed Call.entry? calls listening).map TraceEntry.line = lines := by
    decide +kernel
  refine ⟨(hsame calls quiet rfl).1, ?_, ?_⟩
  · rw [← hlines, List.map_map]
    exact htold [] calls
  · have hnone : Call.entry? (.listen "tracelogger") e = none := rfl
    have hrecorded : (observed Call.entry? (.listen "tracelogger" :: calls) e).map TraceEntry.line =
        lines := by
      rw [observed, hnone, Option.toList_none, List.nil_append]
      exact hlines
    have hroom : ∀ recorded, recorded = lines → recorded.drop (recorded.length - 2024) = lines := by
      rintro recorded rfl
      rw [Nat.sub_eq_zero_of_le (by decide), List.drop_zero]
    have hkept := htrace [] (.listen "tracelogger" :: calls) (.inl rfl) (by simp [calls])
    exact hkept.trans (hroom _ hrecorded)

end Emulator

end ChipEight
