import ChipEight.Proofs.Emulator.KeyDelivery
import ChipEight.Proofs.Emulator.Sent
import ChipEight.Proofs.Emulator.View
import ChipEight.Proofs.Machine.KeyRead

/-!
# When it matters at which moment a key moves

A key that goes up or down right before a cycle might as well do so right after it, unless the cycle
looks: it executes a skip on this very key (`Emulator.looksAt?`), or, where the key goes down, it begins
to wait for one (`Emulator.BeginsWait`).  It does not matter whether the cycle succeeds, waits or fails.

An emulator with another position of a key is a view of the emulator, and a cycle that does not look at
the key goes through this view (`View.through_cycle_withKey`).  To move the key is to take the view, so
the two calls commute (`Call.commute_of_through`).
-/

namespace ChipEight

/-- The view of an emulator with a key up or down. -/
def View.withKey (key : Int) (down : Bool) : View :=
  ⟨fun e => { e with machine := e.machine.setKey key down }, fun _ => true⟩

/-- Two calls come to the same in either order. -/
structure Call.Commute (c d : Call) (e : Emulator) : Prop where
  after : e.after [c, d] = e.after [d, c]
  result_left : (c.report (d.next e)).result = (c.report e).result
  result_right : (d.report (c.next e)).result = (d.report e).result
  sent : Emulator.sent [c, d] e = Emulator.sent [d, c] e

namespace Emulator

/-- The key that a cycle looks at, if it executes an instruction that does so. -/
def looksAt? (delta : Number) (e : Emulator) : Option Int :=
  (e.executed? delta).bind (Instruction.looksAt? e.machine)

/-- A cycle begins to wait for a key: it executes the instruction for that while no key is pending. -/
def BeginsWait (delta : Number) (e : Emulator) : Prop :=
  ∃ x, e.executed? delta = some (.waitKey x) ∧ e.machine.pendingKey = none

end Emulator

namespace View

open Machine

variable {α : Type} {e : Emulator} {key : Int} {down : Bool} {delta : Number}

/-- In this view all events are shown. -/
theorem report_withKey (r : Report α) :
    (withKey key down).report r = { r with emulator := (withKey key down).emulator r.emulator } := by
  have hall : r.events.filter (withKey key down).shows = r.events :=
    List.filter_eq_self.mpr fun _ _ => rfl
  unfold report
  rw [hall]

theorem through_setTone_withKey (playing : Bool) (e : Emulator) :
    (withKey key down).Through (Emulator.setTone playing) e := by
  simp only [Through, Emulator.setTone, apply_ite (withKey key down).report, report_withKey]
  rfl

theorem through_advanceClock_withKey (delta : Number) (e : Emulator) :
    (withKey key down).Through (Emulator.advanceClock delta) e := by
  have hticks : ((withKey key down).emulator e).ticksDue delta = e.ticksDue delta := rfl
  have helapse (due : Int) : ((withKey key down).emulator e).elapse delta due =
      (withKey key down).emulator (e.elapse delta due) := by
    simp only [withKey, Emulator.elapse, ticks_setKey]
    rfl
  unfold Through
  rw [report_withKey, Emulator.advanceClock_eq, Emulator.advanceClock_eq, hticks]
  cases e.ticksDue delta with
  | error f => rfl
  | ok due =>
    simp only [helapse]
    rfl

/-- Around its step a cycle does not look at the keys. -/
theorem plain_withKey : (withKey key down).Plain where
  loaded _ := rfl
  waiting _ := rfl
  counter _ := rfl
  soundTimer _ := rfl
  emit _ argument e := by
    unfold Through
    rw [report_withKey]
    rfl
  advanceClock := through_advanceClock_withKey
  setTone := through_setTone_withKey

theorem through_traceWord_withKey (word : Int) (e : Emulator) :
    (withKey key down).Through (Emulator.traceWord word) e := by
  simp only [Through, Emulator.traceWord, apply_ite (withKey key down).report, report_withKey]
  rfl

/-- A word that does not look at the key is executed in the same way. -/
theorem through_runWord_withKey (hkey : 0 ≤ key) {word : Int}
    (h : ∀ i, Instruction.ofWord? word = some i → i.looksAt? e.machine ≠ some key) :
    (withKey key down).Through (Emulator.runWord word) e := by
  have hrun : (e.machine.setKey key down).runWord word e.random = _ :=
    runWord_setKey hkey h e.random
  rcases hword : e.machine.runWord word e.random with ⟨outcome, random⟩
  rw [hword] at hrun
  unfold Through Emulator.runWord
  rw [report_withKey]
  cases hrunner : e.runner with
  | report => simp only [withKey, hrunner]
  | execute =>
    simp only [withKey, hrunner, hrun, hword]
    cases outcome <;> rfl

/-- So is a step, if the instruction at the counter does not look at the key. -/
theorem through_step_withKey (hkey : 0 ≤ key) (hlow : 0 ≤ e.machine.counter)
    (h : e.machine.counter + 1 < 4096 → ∀ i, Instruction.ofWord? e.machine.word = some i →
      i.looksAt? e.machine ≠ some key) :
    (withKey key down).Through Emulator.step e := by
  have hfetch : ((withKey key down).emulator e).machine.fetch =
      e.machine.fetch.map fun fetched => (fetched.1, fetched.2.setKey key down) := fetch_setKey hlow
  unfold Through Emulator.step
  rw [hfetch, fetch_eq hlow]
  by_cases hend : e.machine.counter + 1 < 4096
  · rw [if_pos hend]
    refine Through.andThen (through_traceWord_withKey e.machine.word
      { e with machine := { e.machine with counter := e.machine.counter + 2 } }) fun _ _ => ?_
    refine through_runWord_withKey hkey fun i hi hlook => h hend i hi ?_
    rw [Emulator.traceWord_eq, Emulator.traced_machine] at hlook
    exact (looksAt?_of_same (m := e.machine) rfl i).symm.trans hlook
  · rw [if_neg hend, report_withKey]
    rfl

/-- **A cycle that does not look at the key goes through.** -/
theorem through_cycle_withKey (h : e.Sound) (hkey : 0 ≤ key ∧ key < 16)
    (hlooks : e.looksAt? delta ≠ some key) :
    (withKey key down).Through (Emulator.cycle delta) e := by
  refine plain_withKey.cycle fun due htimed hwaiting => ?_
  have hbounded := h.bounded.ticks (min due Emulator.maxTicks).toNat
  refine through_step_withKey hkey.1 hbounded.counter.1 fun hend i hi hlook => hlooks ?_
  have hcounter : (e.elapse delta due).machine.counter = e.machine.counter :=
    same_ticks (p := .counter) _ e.machine (by decide)
  have hword : Instruction.ofWord? e.machine.word = some i :=
    (congrArg _ (word_ticks _ _)).symm.trans hi
  have hlook' : i.looksAt? e.machine = some key :=
    (looksAt?_of_same (same_ticks _ e.machine (by decide)) i).symm.trans hlook
  -- A key of the keypad is never refused, so the instruction is executed.
  have haccepted : i.refusal (e.machine.ticked (min due Emulator.maxTicks).toNat) = none :=
    refusal_of_looksAt?
      ((looksAt?_of_same (same_ticked _ e.machine (by decide)) i).trans hlook') hkey.2
  rw [hcounter] at hend
  rw [Emulator.looksAt?, Emulator.executed?_eq h htimed hwaiting hend hword, if_pos haccepted]
  exact hlook'

end View

namespace Call

open View

variable {e : Emulator} {key : Int} {delta : Number}

/-- To release a key is to look through the view. -/
theorem report_keyUp (hkey : 0 ≤ key ∧ key < 16) (e : Emulator) :
    (keyUp key).report e = .pure ((withKey key false).emulator e) .nothing := by
  have hcount : (keyCount : Int) = 16 := rfl
  simp only [report, Emulator.keyUp, hcount, if_pos hkey]
  rfl

/-- So it is to press one, unless a key is waited for. -/
theorem report_keyDown (hkey : 0 ≤ key ∧ key < 16) (hwaiting : e.machine.waiting = false) :
    (keyDown key).report e = .pure ((withKey key true).emulator e) .nothing := by
  have hcount : (keyCount : Int) = 16 := rfl
  simp only [report, Emulator.keyDown, hcount, if_pos hkey]
  rw [if_neg (by simp [hwaiting])]
  rfl

/-- A call that does no more than look through the view commutes with a cycle that goes through it. -/
theorem commute_of_through {c : Call} {down : Bool}
    (hbefore : c.report e = .pure ((withKey key down).emulator e) .nothing)
    (hbehind : c.report (e.cycle delta).emulator =
      .pure ((withKey key down).emulator (e.cycle delta).emulator) .nothing)
    (hthrough : (withKey key down).Through (Emulator.cycle delta) e) :
    c.Commute (.cycle delta) e := by
  have hfirst : c.next e = (withKey key down).emulator e := congrArg Report.emulator hbefore
  have hcycle : (c.next e).cycle delta =
      { e.cycle delta with emulator := (withKey key down).emulator (e.cycle delta).emulator } := by
    rw [hfirst]
    exact hthrough.trans (report_withKey _)
  have hlast : c.next (e.cycle delta).emulator = ((c.next e).cycle delta).emulator := by
    rw [hcycle]
    exact congrArg Report.emulator hbehind
  exact
    { after := hlast.symm
      result_left := by
        rw [next_cycle, hbefore, hbehind]
        rfl
      result_right := by
        show ((c.next e).cycle delta).result.map _ = (e.cycle delta).result.map _
        rw [hcycle]
      sent := by
        have hevents : ((c.next e).cycle delta).events = (e.cycle delta).events := by rw [hcycle]
        have hquiet : (c.report e).events = [] := by rw [hbefore]; rfl
        have hquiet' : (c.report (e.cycle delta).emulator).events = [] := by rw [hbehind]; rfl
        simp only [Emulator.sent, next_cycle, hquiet, hquiet', List.append_nil, List.nil_append]
        exact hevents }

end Call

namespace Emulator

open Call View

variable {e : Emulator} {key : Int} {delta : Number}

/-- A cycle that begins no wait ends without one. -/
theorem waiting_cycle (h : e.KeyWait) (hwaiting : e.machine.waiting = false)
    (hbegins : ¬e.BeginsWait delta) : (e.cycle delta).emulator.machine.waiting = false := by
  cases cycle_wait h delta with
  | rests hnone hstill => exact hstill.keyWait.1.trans hwaiting
  | works hother hbefore hafter =>
    simpa using (not_or.mp hafter).1
  | begins ticks x hexecuted hbefore hat hafter =>
    exact absurd ⟨x, hexecuted, Machine.pendingKey_of_not_suspended hbefore⟩ hbegins
  | ends ticks x pending hexecuted hbefore hat hafter =>
    rw [hafter]
    rfl

/-- **Keys commute with cycles that do not look at them.**  After any calls to a new emulator, let a
cycle be about to come that does not execute a skip on some key.  Then releasing this key before the
cycle comes to the same as releasing it afterwards: the emulator that is left, how either call is
answered, and all that is sent.  If no key is waited for, and the cycle does not begin to wait for one,
the same is true of pressing it. -/
theorem keys_commute_with_cycles (random : RandomSource) (hasTone : Bool) (calls : List Call)
    {key : Int} (hkey : 0 ≤ key ∧ key < 16) (delta : Number)
    (hlooks : ((new random hasTone).after calls).looksAt? delta ≠ some key) :
    let e := (new random hasTone).after calls
    Call.Commute (.keyUp key) (.cycle delta) e ∧
      (e.machine.waiting = false → ¬e.BeginsWait delta →
        Call.Commute (.keyDown key) (.cycle delta) e) := by
  intro e
  have hwait : e.KeyWait := keyWait_after (keyWait_new random hasTone) calls
  constructor
  · exact commute_of_through (report_keyUp hkey e) (report_keyUp hkey _)
      (through_cycle_withKey hwait.toSound hkey hlooks)
  · intro hwaiting hbegins
    exact commute_of_through (report_keyDown hkey hwaiting)
      (report_keyDown hkey (waiting_cycle hwait hwaiting hbegins))
      (through_cycle_withKey hwait.toSound hkey hlooks)

/-- A skip on one key leaves it open when another one moves. -/
theorem keys_commute_with_cycles_of_skip :
    let e := (new (.cycle #[]) true).after [.load [0xE0, 0x9E], .keyDown 0]
    e.looksAt? (.integer 0) = some 0 ∧
      Call.Commute (.keyUp 5) (.cycle (.integer 0)) e ∧
      Call.Commute (.keyDown 5) (.cycle (.integer 0)) e := by
  intro e
  have hexecuted : e.executed? (.integer 0) = some (.skipIfKey 0) := by decide +kernel
  have hlooks : e.looksAt? (.integer 0) = some 0 := by
    rw [looksAt?, hexecuted]
    decide +kernel
  have hbegins : ¬e.BeginsWait (.integer 0) := by
    rintro ⟨x, hx, -⟩
    cases hexecuted.symm.trans hx
  have hkey : (0 : Int) ≤ 5 ∧ (5 : Int) < 16 := by decide
  obtain ⟨hup, hdown⟩ := keys_commute_with_cycles (.cycle #[]) true [.load [0xE0, 0x9E], .keyDown 0]
    hkey (.integer 0) (by rw [hlooks]; decide)
  exact ⟨hlooks, hup, hdown (by decide +kernel) hbegins⟩

end Emulator

end ChipEight
