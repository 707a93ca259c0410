import ChipEight.Proofs.Emulator.Access
import ChipEight.Proofs.Session.Program

/-!
# How the loop of a session ends

The loop is a walk through its rounds, a round begins with a walk through its input, and then it goes
through its cycles.  Whatever comes first to an end, ends it, and everything before has gone well: so an
end of the loop is an end of one round, which is either an event of the user's or a cycle.

`Session.upToInput` is the loop up to a moment in the input of a round, and `Session.upToCycle` is the loop
up to a moment between two cycles.  With them the two ends that a session is made for are told apart.  The
user has left exactly if there is an event for it (`Session.rounds_eq_left`), and the program has stopped
exactly if one of its instructions is to blame (`Session.rounds_eq_stopped`).
-/

namespace ChipEight

open Emulator

namespace Turn

variable {α β : Type} {t : Turn α} {next : Stage → α → Turn β} {halt : Halt}

/-- What follows a success decides how both together end. -/
theorem andThen_ends {a : α} {u : Turn β} (h : t.result = .ok a) (hnext : next t.stage a = u) :
    (t.andThen next).result = u.result ∧ (t.andThen next).stage = u.stage := by
  rw [andThen_of_ok h, hnext]
  exact ⟨rfl, rfl⟩

/-- A second piece that always goes well does not end the session. -/
theorem andThen_eq_error_of_ok (hnext : ∀ s a, ∃ b, (next s a).result = .ok b) :
    (t.andThen next).result = .error halt ↔ t.result = .error halt := by
  cases hresult : t.result with
  | error h => simp [andThen_of_error hresult]
  | ok a =>
    obtain ⟨b, hgood⟩ := hnext t.stage a
    rw [(andThen_ends hresult rfl).1, hgood]
    simp

variable {t : Turn Unit} {next : Stage → Unit → Turn β} {u : Turn β}

/-- Of two pieces of a session, the first ends it or the second does. -/
theorem andThen_eq_error (hnext : next t.stage () = u) : (t.andThen next).result = .error halt ↔
    t.result = .error halt ∨ t.result = .ok () ∧ u.result = .error halt := by
  cases hresult : t.result with
  | error h => simp [andThen_of_error hresult]
  | ok _ => simp [(andThen_ends hresult hnext).1]

/-- Two pieces of a session go well if each does. -/
theorem andThen_eq_ok (hnext : next t.stage () = u) {b : β} :
    (t.andThen next).result = .ok b ↔ t.result = .ok () ∧ u.result = .ok b := by
  cases hresult : t.result with
  | error h => simp [andThen_of_error hresult]
  | ok _ => simp [(andThen_ends hresult hnext).1]

/-- A piece of a session for each element of a list, in order. -/
def walk (piece : β → Stage → Turn Unit) : List β → Stage → Turn Unit
  | [], s => .pure s ()
  | b :: rest, s => (piece b s).andThen fun s _ => walk piece rest s

/-- **A walk ends at an element**, and then everything before it has gone well. -/
theorem walk_eq_error {piece : β → Stage → Turn Unit} {l : List β} {s : Stage} :
    (walk piece l s).result = .error halt ↔
      ∃ before b behind, l = before ++ b :: behind ∧ (walk piece before s).result = .ok () ∧
        (piece b (walk piece before s).stage).result = .error halt := by
  induction l generalizing s with
  | nil =>
    constructor
    · intro hends
      cases hends
    · rintro ⟨before, b, behind, hsplit, -⟩
      simp at hsplit
  | cons first rest ih =>
    have hwalk (l : List β) :
        walk piece (first :: l) s = (piece first s).andThen fun s _ => walk piece l s := rfl
    constructor
    · intro hends
      rw [hwalk, andThen_eq_error rfl] at hends
      rcases hends with hfirst | ⟨hfirst, hrest⟩
      · exact ⟨[], first, rest, rfl, rfl, hfirst⟩
      · obtain ⟨before, b, behind, rfl, hbefore, hend⟩ := ih.mp hrest
        refine ⟨first :: before, b, behind, rfl, ?_, ?_⟩
        · rw [hwalk, (andThen_ends hfirst rfl).1]
          exact hbefore
        · rw [hwalk, (andThen_ends hfirst rfl).2]
          exact hend
    · rintro ⟨before, b, behind, hsplit, hbefore, hend⟩
      rw [hwalk, andThen_eq_error rfl]
      cases before with
      | nil =>
        obtain ⟨rfl, -⟩ := List.cons.inj hsplit
        exact .inl hend
      | cons _ before =>
        obtain ⟨rfl, rfl⟩ := List.cons.inj hsplit
        rw [hwalk, andThen_eq_ok rfl] at hbefore
        obtain ⟨hfirst, hbefore⟩ := hbefore
        rw [hwalk, (andThen_ends hfirst rfl).2] at hend
        exact .inr ⟨hfirst, ih.mpr ⟨before, b, behind, rfl, hbefore, hend⟩⟩

end Turn

namespace Stage

variable {s : Stage} {f : EmulatorFault} {cause : Fault}

/-- What the emulator does ends a session if it fails, in a way that depends on the fault. -/
theorem perform_eq_error {α : Type} {operation : Emulator → Report α} {halt : Halt} :
    (s.perform operation).result = .error halt ↔
      ∃ f, (operation s.emulator).result = .error f ∧ haltOf f = halt := by
  have hresult : (s.perform operation).result = (operation s.emulator).result.mapError haltOf := rfl
  rw [hresult]
  cases (operation s.emulator).result with
  | error f => simp [mapError_error]
  | ok a => simp

theorem perform_eq_ok {α : Type} {operation : Emulator → Report α} {a : α} :
    (s.perform operation).result = .ok a ↔ (operation s.emulator).result = .ok a := by
  have hresult : (s.perform operation).result = (operation s.emulator).result.mapError haltOf := rfl
  rw [hresult]
  cases (operation s.emulator).result with
  | error f => simp [mapError_error]
  | ok a => simp

/-- No fault is taken for the user leaving. -/
theorem haltOf_ne_left : haltOf f ≠ .left := by
  intro hleft
  cases f with
  | machine cause => cases cause <;> cases hleft
  | _ => cases hleft

/-- A program stops with the faults that a program can cause. -/
theorem haltOf_eq_stopped : haltOf f = .stopped cause ↔ f = .machine cause ∧ cause.OfProgram := by
  constructor
  · intro hstopped
    cases f with
    | machine fault =>
      cases fault with
      | cell => cases hstopped
      | unknownOpcode | flow | memory | input =>
        cases hstopped
        exact ⟨rfl, trivial⟩
    | _ => cases hstopped
  · rintro ⟨rfl, hprogram⟩
    cases cause with
    | cell => cases hprogram
    | unknownOpcode | flow | memory | input => rfl

end Stage

/-- Several cycles fail as the first of them does that fails. -/
theorem Emulator.cycles_eq_error {delta : Number} {n : Nat} {e : Emulator} {f : EmulatorFault} :
    (e.cycles delta n).result = .error f ↔
      ∃ k < n, (e.cycles delta k).result = .ok () ∧
        ((e.cycles delta k).emulator.cycle delta).result = .error f := by
  induction n generalizing e with
  | zero =>
    constructor
    · intro hfails
      cases hfails
    · rintro ⟨k, hk, -⟩
      exact absurd hk k.not_lt_zero
  | succ n ih =>
    have hcycles (n : Nat) :
        e.cycles delta (n + 1) = (e.cycle delta).andThen fun e _ => e.cycles delta n := rfl
    cases hfirst : (e.cycle delta).result with
    | error g =>
      rw [hcycles, Report.andThen_of_error hfirst]
      constructor
      · intro hfails
        exact ⟨0, n.succ_pos, rfl, hfirst.trans hfails⟩
      · rintro ⟨k, -, hbefore, hfails⟩
        cases k with
        | zero => exact hfirst.symm.trans hfails
        | succ k =>
          rw [hcycles, Report.andThen_of_error hfirst] at hbefore
          cases hbefore
    | ok _ =>
      rw [hcycles, Report.andThen_of_ok hfirst]
      constructor
      · intro hfails
        obtain ⟨k, hk, hbefore, hend⟩ := ih.mp hfails
        refine ⟨k + 1, Nat.succ_lt_succ hk, ?_, ?_⟩
        · rw [hcycles, Report.andThen_of_ok hfirst]
          exact hbefore
        · rw [hcycles, Report.andThen_of_ok hfirst]
          exact hend
      · rintro ⟨k, hk, hbefore, hend⟩
        cases k with
        | zero => cases hfirst.symm.trans hend
        | succ k =>
          rw [hcycles, Report.andThen_of_ok hfirst] at hbefore hend
          exact ih.mpr ⟨k, Nat.lt_of_succ_lt_succ hk, hbefore, hend⟩

namespace Session

variable {session : Session} {s : Stage}

/-- The loop up to a moment in the input of a round. -/
def upToInput (session : Session) (before : List Round) (pressed : List InputEvent) (s : Stage) :
    Turn Unit :=
  (session.rounds before s).andThen fun s _ => session.handleAll pressed s

/-- The loop up to a moment between two cycles of a round, each of which takes some time. -/
def upToCycle (session : Session) (before : List Round) (r : Round) (time : Number) (n : Nat)
    (s : Stage) : Turn Unit :=
  (session.upToInput before r.input s).andThen fun s _ => s.perform (·.cycles time n)

theorem handleAll_eq_walk (events : List InputEvent) (s : Stage) :
    session.handleAll events s = Turn.walk session.handle events s := by
  induction events generalizing s with
  | nil => rfl
  | cons event events ih =>
    rw [handleAll, Turn.walk]
    congr 1
    funext s _
    exact ih s

theorem rounds_eq_walk (rounds : List Round) (s : Stage) :
    session.rounds rounds s = Turn.walk session.round rounds s := by
  induction rounds generalizing s with
  | nil => rfl
  | cons r rounds ih =>
    rw [Session.rounds, Turn.walk]
    congr 1
    funext s _
    exact ih s

/-! ### The user leaves -/

/-- An event that neither leaves nor restarts fails only with the emulator. -/
theorem handle_eq_error {event : InputEvent} {halt : Halt}
    (hstays : ¬(event = .quit ∨ event = .keyDown KeyName.leave))
    (hgoes : event ≠ .keyDown KeyName.restart) :
    (session.handle event s).result = .error halt ↔
      ∃ f, (session.keypad.handle event s.emulator).result = .error f ∧ Stage.haltOf f = halt := by
  have hdone (s : Stage) (_ : Bool) : ∃ b, (Turn.pure s ()).result = .ok b := ⟨(), rfl⟩
  unfold Session.handle
  rw [if_neg hstays, if_neg hgoes, Turn.andThen_eq_error_of_ok hdone]
  exact Stage.perform_eq_error

/-- An event ends the session as the user's wish only if it is one of two. -/
theorem handle_eq_left (hsize : session.rom.bytes.length ≤ maxProgramSize) {event : InputEvent} :
    (session.handle event s).result = .error .left ↔
      event = .quit ∨ event = .keyDown KeyName.leave := by
  constructor
  · intro hleft
    refine Decidable.byContradiction fun hstays => ?_
    by_cases hrestart : event = .keyDown KeyName.restart
    · rw [hrestart, restart_eq_ok hsize] at hleft
      cases hleft
    · obtain ⟨f, -, hhalt⟩ := (handle_eq_error hstays hrestart).mp hleft
      exact Stage.haltOf_ne_left hhalt
  · intro hleaves
    unfold Session.handle
    rw [if_pos hleaves]
    rfl

/-- Nothing of what the user does stops the program. -/
theorem handle_ne_stopped (hsize : session.rom.bytes.length ≤ maxProgramSize) (event : InputEvent)
    {cause : Fault} : (session.handle event s).result ≠ .error (.stopped cause) := by
  intro hstopped
  by_cases hleaves : event = .quit ∨ event = .keyDown KeyName.leave
  · cases ((handle_eq_left hsize).mpr hleaves).symm.trans hstopped
  by_cases hrestart : event = .keyDown KeyName.restart
  · rw [hrestart, restart_eq_ok hsize] at hstopped
    cases hstopped
  · obtain ⟨f, hfault, hhalt⟩ := (handle_eq_error hleaves hrestart).mp hstopped
    obtain ⟨rfl, -⟩ := Stage.haltOf_eq_stopped.mp hhalt
    exact handle_ne (fun _ h => by cases h) _ _ _ hfault

theorem handleAll_ne_stopped (hsize : session.rom.bytes.length ≤ maxProgramSize)
    (events : List InputEvent) {cause : Fault} :
    (session.handleAll events s).result ≠ .error (.stopped cause) := by
  rw [handleAll_eq_walk, Ne, Turn.walk_eq_error]
  rintro ⟨before, event, behind, -, -, hstopped⟩
  exact handle_ne_stopped hsize event hstopped

/-- The cycles of a round end the session if their time cannot be told, or if they fail. -/
theorem runCycles_eq_error {milliseconds : Int} {halt : Halt} :
    (session.runCycles milliseconds s).result = .error halt ↔
      (∃ f, session.cycleTime milliseconds = .error f ∧ halt = .failed (.time f)) ∨
        ∃ time, session.cycleTime milliseconds = .ok time ∧
          ∃ f, (s.emulator.cycles time session.cyclesPerFrame).result = .error f ∧
            Stage.haltOf f = halt := by
  unfold Session.runCycles Turn.ofResult
  cases htime : session.cycleTime milliseconds with
  | error f =>
    have hfails : (⟨s, [], .error (.failed (.time f))⟩ : Turn Number).result =
        .error (.failed (.time f)) := rfl
    rw [mapError_error, Function.comp_apply, Turn.andThen_of_error hfails]
    simp [eq_comm]
  | ok time =>
    rw [(Turn.andThen_ends (a := time) rfl rfl).1, Stage.perform_eq_error]
    simp

/-- A round ends while its input is handled, or while its cycles run. -/
theorem round_eq_error {r : Round} {halt : Halt} :
    (session.round r s).result = .error halt ↔
      (session.handleAll r.input s).result = .error halt ∨
        (session.handleAll r.input s).result = .ok () ∧
          (session.runCycles r.milliseconds (session.handleAll r.input s).stage).result =
            .error halt := by
  have hshow (s : Stage) (_ : Unit) :
      ∃ b, (Turn.send s [.presented s.emulator.machine.display]).result = .ok b := ⟨(), rfl⟩
  have hstage (s : Stage) : (Turn.send s [.ticked frameRate]).stage = s := rfl
  unfold Session.round
  rw [Turn.andThen_eq_error rfl, (Turn.andThen_ends (a := ()) rfl rfl).1,
    Turn.andThen_eq_error_of_ok hshow, hstage]

/-- **The user has left** exactly if an event says so and all before it has gone well. -/
theorem rounds_eq_left (hsize : session.rom.bytes.length ≤ maxProgramSize) {rounds : List Round} :
    (session.rounds rounds s).result = .error .left ↔
      ∃ before pressed event input milliseconds behind,
        rounds = before ++ ⟨pressed ++ event :: input, milliseconds⟩ :: behind ∧
        (event = .quit ∨ event = .keyDown KeyName.leave) ∧
        (session.upToInput before pressed s).result = .ok () := by
  rw [rounds_eq_walk, Turn.walk_eq_error]
  constructor
  · rintro ⟨before, ⟨events, milliseconds⟩, behind, rfl, hbefore, hend⟩
    rw [← rounds_eq_walk] at hbefore hend
    rcases round_eq_error.mp hend with hinput | ⟨-, hcycles⟩
    · rw [handleAll_eq_walk, Turn.walk_eq_error] at hinput
      obtain ⟨pressed, event, input, rfl, hpressed, hevent⟩ := hinput
      refine ⟨before, pressed, event, input, milliseconds, behind, rfl,
        (handle_eq_left hsize).mp hevent, ?_⟩
      rw [upToInput, (Turn.andThen_ends hbefore rfl).1, handleAll_eq_walk]
      exact hpressed
    · rcases runCycles_eq_error.mp hcycles with ⟨_, -, hleft⟩ | ⟨_, -, f, -, hleft⟩
      · cases hleft
      · exact absurd hleft Stage.haltOf_ne_left
  · rintro ⟨before, pressed, event, input, milliseconds, behind, rfl, hleaves, hupTo⟩
    obtain ⟨hbefore, hpressed⟩ := (Turn.andThen_eq_ok rfl).mp hupTo
    refine ⟨before, _, behind, rfl, ?_, ?_⟩
    · rw [← rounds_eq_walk]
      exact hbefore
    · rw [← rounds_eq_walk]
      refine round_eq_error.mpr (.inl ?_)
      rw [handleAll_eq_walk] at hpressed ⊢
      exact Turn.walk_eq_error.mpr
        ⟨pressed, event, input, rfl, hpressed, (handle_eq_left hsize).mpr hleaves⟩

/-! ### The program stops -/

/-- The program stops in a round exactly if one of the cycles of the round fails through its fault. -/
theorem runCycles_eq_stopped {milliseconds : Int} {cause : Fault} :
    (session.runCycles milliseconds s).result = .error (.stopped cause) ↔
      ∃ time, session.cycleTime milliseconds = .ok time ∧ ∃ n < session.cyclesPerFrame,
        (s.perform (·.cycles time n)).result = .ok () ∧
        ((s.perform (·.cycles time n)).stage.emulator.cycle time).result = .error (.machine cause) ∧
        cause.OfProgram := by
  rw [runCycles_eq_error]
  constructor
  · rintro (⟨_, -, hhalt⟩ | ⟨time, htime, f, hfault, hhalt⟩)
    · cases hhalt
    · obtain ⟨rfl, hprogram⟩ := Stage.haltOf_eq_stopped.mp hhalt
      obtain ⟨n, hn, hbefore, hfails⟩ := cycles_eq_error.mp hfault
      exact ⟨time, htime, n, hn, Stage.perform_eq_ok.mpr hbefore, hfails, hprogram⟩
  · rintro ⟨time, htime, n, hn, hbefore, hfails, hprogram⟩
    exact .inr ⟨time, htime, .machine cause,
      cycles_eq_error.mpr ⟨n, hn, Stage.perform_eq_ok.mp hbefore, hfails⟩,
      Stage.haltOf_eq_stopped.mpr ⟨rfl, hprogram⟩⟩

/-- **The program has stopped** exactly if a cycle fails through its fault and all before it has gone
well. -/
theorem rounds_eq_stopped (hsize : session.rom.bytes.length ≤ maxProgramSize) {rounds : List Round}
    {cause : Fault} :
    (session.rounds rounds s).result = .error (.stopped cause) ↔
      ∃ before r behind time n, rounds = before ++ r :: behind ∧
        session.cycleTime r.milliseconds = .ok time ∧ n < session.cyclesPerFrame ∧
        (session.upToCycle before r time n s).result = .ok () ∧
        ((session.upToCycle before r time n s).stage.emulator.cycle time).result =
          .error (.machine cause) ∧ cause.OfProgram := by
  rw [rounds_eq_walk, Turn.walk_eq_error]
  constructor
  · rintro ⟨before, r, behind, rfl, hbefore, hend⟩
    rw [← rounds_eq_walk] at hbefore hend
    rcases round_eq_error.mp hend with hinput | ⟨hinput, hcycles⟩
    · exact absurd hinput (handleAll_ne_stopped hsize _)
    · obtain ⟨time, htime, n, hn, hdone, hfails, hprogram⟩ := runCycles_eq_stopped.mp hcycles
      have hupTo : (session.upToInput before r.input s).result = .ok () ∧
          (session.upToInput before r.input s).stage = _ :=
        ⟨(Turn.andThen_eq_ok rfl).mpr ⟨hbefore, hinput⟩, (Turn.andThen_ends hbefore rfl).2⟩
      refine ⟨before, r, behind, time, n, rfl, htime, hn, ?_, ?_, hprogram⟩
      · rw [upToCycle, (Turn.andThen_ends hupTo.1 rfl).1, hupTo.2]
        exact hdone
      · rw [upToCycle, (Turn.andThen_ends hupTo.1 rfl).2, hupTo.2]
        exact hfails
  · rintro ⟨before, r, behind, time, n, rfl, htime, hn, hdone, hfails, hprogram⟩
    obtain ⟨hinput, hdone⟩ := (Turn.andThen_eq_ok rfl).mp hdone
    rw [upToCycle, (Turn.andThen_ends hinput rfl).2] at hfails
    obtain ⟨hbefore, hhandled⟩ := (Turn.andThen_eq_ok rfl).mp hinput
    rw [upToInput, (Turn.andThen_ends hbefore rfl).2] at hfails hdone
    refine ⟨before, r, behind, rfl, ?_, ?_⟩
    · rw [← rounds_eq_walk]
      exact hbefore
    · rw [← rounds_eq_walk]
      exact round_eq_error.mpr
        (.inr ⟨hhandled, runCycles_eq_stopped.mpr ⟨time, htime, n, hn, hdone, hfails, hprogram⟩⟩)

end Session

end ChipEight
