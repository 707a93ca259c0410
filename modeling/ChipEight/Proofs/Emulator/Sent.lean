import Mathlib.Data.List.Induction
import Mathlib.Data.List.Nodup
import ChipEight.Proofs.Emulator.Cycle

/-!
# What a run sends

Whatever an emulator sends is about the tone, or a call of a listener, or a record for the log.
`tones` and `heard` pick out the first two, and `Emulator.sent` joins what the calls of a run send.
How the calls are answered is listed by `Emulator.answers`.

The lemmas say what each part of a cycle adds to either selection.  A signal calls every listener that
asked for it, once and in order (`emit_events`).  Only `Emulator.setTone` sends anything about the tone,
and it sends changes only (`tones_setTone`).
-/

namespace ChipEight

namespace Event

/-- Whether the tone is to start or to stop, if the event is about the tone. -/
def tone? : Event → Option Bool
  | tone playing => some playing
  | heard .. | word _ | logged _ => none

/-- Whether the event is a call of a listener for the signal. -/
def calls (signal : Signal) : Event → Bool
  | heard s _ _ => s = signal
  | tone _ | word _ | logged _ => false

end Event

/-- The starts and the stops of the tone, in order. -/
def tones (events : List Event) : List Bool :=
  events.filterMap Event.tone?

/-- The calls of the listeners for one signal, in order. -/
def heard (signal : Signal) (events : List Event) : List Event :=
  events.filter (Event.calls signal)

@[simp] theorem tones_append (events more : List Event) :
    tones (events ++ more) = tones events ++ tones more :=
  List.filterMap_append

@[simp] theorem heard_append (signal : Signal) (events more : List Event) :
    heard signal (events ++ more) = heard signal events ++ heard signal more :=
  List.filter_append ..

/-- The record of a refused word is neither. -/
@[simp] theorem tones_notice (f : Fault) :
    tones (f.notice?.map Event.logged).toList = [] := by
  cases f.notice? <;> rfl

@[simp] theorem heard_notice (signal : Signal) (f : Fault) :
    heard signal (f.notice?.map Event.logged).toList = [] := by
  cases f.notice? <;> rfl

namespace Emulator

/-- What the calls of a run send, in order. -/
def sent : List Call → Emulator → List Event
  | [], _ => []
  | c :: rest, e => (c.report e).events ++ sent rest (c.next e)

/-- How the calls of a run are answered, in order. -/
def answers : List Call → Emulator → List (Except EmulatorFault Answer)
  | [], _ => []
  | c :: rest, e => (c.report e).result :: answers rest (c.next e)

/-- The numbers of the listeners for a name, in the order in which they came. -/
def listenersFor (name : String) (e : Emulator) : List Nat :=
  ((List.range e.listeners.length).filter fun k => e.listeners[k]? = some name).map (· + 1)

/-- The places of a name in a list are those at which the name stands. -/
theorem places_zipIdx (name : String) (names : List String) :
    (names.zipIdx.filter fun l => l.1 = name).map Prod.snd =
      (List.range names.length).filter fun k => names[k]? = some name := by
  induction names using List.reverseRecOn with
  | nil => rfl
  | append_singleton names last ih =>
    have hbefore : ∀ k ∈ List.range names.length,
        decide ((names ++ [last])[k]? = some name) = decide (names[k]? = some name) := by
      intro k hk
      rw [List.getElem?_append_left (List.mem_range.mp hk)]
    have hhere : (names ++ [last])[names.length]? = some last := List.getElem?_concat_length
    rw [List.zipIdx_append, List.filter_append, List.map_append, ih, List.length_append,
      List.length_singleton, List.range_succ, List.filter_append, List.filter_congr hbefore,
      Nat.zero_add]
    by_cases hlast : last = name <;> simp [hlast]

/-- These are all that have asked for it, -/
theorem mem_listenersFor {name : String} {e : Emulator} {k : Nat} :
    k + 1 ∈ e.listenersFor name ↔ e.listeners[k]? = some name := by
  simp only [listenersFor, List.mem_map, List.mem_filter, List.mem_range, decide_eq_true_eq,
    Nat.add_right_cancel_iff, exists_eq_right, and_iff_right_iff_imp]
  exact fun h => (List.getElem?_eq_some_iff.mp h).1

/-- and each has a number of its own. -/
theorem nodup_listenersFor (name : String) (e : Emulator) : (e.listenersFor name).Nodup :=
  (List.nodup_range.filter _).map fun _ _ => Nat.succ.inj

variable (signal : Signal) (argument : Argument) (e : Emulator)

/-- **A signal calls each listener for its name**, once and in order, with the argument. -/
theorem emit_events :
    (emit signal argument e).events =
      (e.listenersFor signal.name).map fun n => .heard signal n argument := by
  simp only [emit, listenersFor, ← places_zipIdx, List.map_map, Function.comp_def]

/-- So the beginning of a cycle is told to each listener for it, with the program counter. -/
theorem opening_eq :
    e.opening = (e.listenersFor "before_cycle").map fun n =>
      .heard .beforeCycle n (.address e.machine.counter) :=
  emit_events .beforeCycle _ e

@[simp] theorem tones_emit : tones (emit signal argument e).events = [] := by
  simp [tones, emit, Event.tone?]

/-- Whatever is sent then is a call for that signal. -/
theorem calls_of_mem_emit {event : Event} (h : event ∈ (emit signal argument e).events)
    (other : Signal) : event.calls other = decide (signal = other) := by
  rw [emit_events] at h
  obtain ⟨listener, -, rfl⟩ := List.mem_map.mp h
  rfl

/-- Among calls of listeners for one signal, those for another are none. -/
@[simp] theorem heard_map (other : Signal) (numbers : List Nat) :
    heard other (numbers.map fun n => .heard signal n argument) =
      if signal = other then numbers.map fun n => .heard signal n argument else [] := by
  induction numbers with
  | nil => simp [heard]
  | cons n numbers ih =>
    by_cases h : signal = other <;> simp_all [heard, Event.calls]

/-- A signal calls the listeners for it only. -/
theorem heard_emit (other : Signal) :
    heard other (emit signal argument e).events =
      if signal = other then (emit signal argument e).events else [] := by
  rw [emit_events, heard_map]

@[simp] theorem tones_opening : tones e.opening = [] :=
  tones_emit ..

@[simp] theorem heard_opening :
    heard signal e.opening = if .beforeCycle = signal then e.opening else [] :=
  heard_emit ..

@[simp] theorem tones_traceWord (word : Int) : tones (e.traceWord word).events = [] := by
  unfold traceWord
  split
  · exact tones_emit ..
  · rfl

/-- **Only changes of the tone are sent**, and only to something that plays it. -/
theorem tones_setTone (playing : Bool) :
    tones (setTone playing e).events =
      if e.hasTone ∧ playing ≠ e.tonePlaying then [playing] else [] := by
  unfold setTone
  split
  next hsame => simp [Report.pure, tones, hsame]
  next hchange =>
    simp only [ne_eq, hchange, not_false_eq_true, and_true]
    cases e.hasTone <;> rfl

/-- The end of a cycle sends the change of the tone after all that was sent before. -/
theorem tones_close (sent : List Event) :
    tones (e.close sent).events =
      tones sent ++ tones (setTone (0 < e.machine.soundTimer) e).events := by
  unfold close
  rw [Report.andThen_of_ok (a := ()) (by rw [setTone_eq])]
  simp

end Emulator

end ChipEight
