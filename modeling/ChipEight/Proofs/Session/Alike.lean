import ChipEight.Proofs.Emulator.Alike
import ChipEight.Session.Run

/-!
# Sessions that cannot be told apart

Two stages are alike if they have the same tone and emulators that are alike.  Every piece of a
session does the same on either: it sends the same, comes to the same result and leaves stages that
are alike again.  `Stage.Alike.loop` carries that along the rounds of a session to its end.

The lemmas on `Turn.andThen` say how a session is taken apart into pieces: what follows a success,
that nothing follows an end, and that pieces can be grouped in any way.
-/

namespace ChipEight

open Emulator

/-- Two stages have the same tone, and emulators that are alike. -/
structure Stage.Alike (s t : Stage) : Prop where
  emulator : s.emulator.Alike t.emulator
  tone : t.tone = s.tone

/-- Two pieces of a session send the same, come to the same, and leave stages that are alike. -/
structure Turn.Alike {α : Type} (t u : Turn α) : Prop where
  stage : t.stage.Alike u.stage
  sent : u.sent = t.sent
  result : u.result = t.result

namespace Turn

variable {α β γ : Type} {t u : Turn α}

/-- What follows a success goes on from the stage as it was left. -/
theorem andThen_of_ok {a : α} (h : t.result = .ok a) (next : Stage → α → Turn β) :
    t.andThen next = { next t.stage a with sent := t.sent ++ (next t.stage a).sent } := by
  simp only [andThen, h]

/-- Nothing follows when the session goes on no longer. -/
theorem andThen_of_error {halt : Halt} (h : t.result = .error halt) (next : Stage → α → Turn β) :
    t.andThen next = ⟨t.stage, t.sent, .error halt⟩ := by
  simp only [andThen, h]

/-- Pieces of a session can be grouped in any way. -/
theorem andThen_assoc (t : Turn α) (next : Stage → α → Turn β) (last : Stage → β → Turn γ) :
    (t.andThen next).andThen last = t.andThen fun s a => (next s a).andThen last := by
  cases hresult : t.result with
  | error halt => rw [andThen_of_error hresult, andThen_of_error rfl, andThen_of_error hresult]
  | ok a =>
    rw [andThen_of_ok hresult, andThen_of_ok hresult]
    cases hnext : (next t.stage a).result with
    | error halt => rw [andThen_of_error (by exact hnext), andThen_of_error hnext]
    | ok b => rw [andThen_of_ok (by exact hnext), andThen_of_ok hnext, List.append_assoc]

namespace Alike

/-- What follows on alike pieces of a session is alike. -/
theorem andThen (h : t.Alike u) {next : Stage → α → Turn β}
    (hnext : ∀ {s s'}, s.Alike s' → ∀ a, (next s a).Alike (next s' a)) :
    (t.andThen next).Alike (u.andThen next) := by
  cases hresult : t.result with
  | error halt =>
    rw [andThen_of_error hresult, andThen_of_error (h.result.trans hresult)]
    exact ⟨h.stage, h.sent, rfl⟩
  | ok a =>
    have hrest := hnext h.stage a
    rw [andThen_of_ok hresult, andThen_of_ok (h.result.trans hresult)]
    exact ⟨hrest.stage, by simp only [h.sent, hrest.sent], hrest.result⟩

end Alike

end Turn

namespace Stage.Alike

variable {s t : Stage} {session : Session}

theorem pure {α : Type} (h : s.Alike t) (a : α) : (Turn.pure s a).Alike (.pure t a) :=
  ⟨h, rfl, rfl⟩

theorem halt {α : Type} (h : s.Alike t) (halt : Halt) :
    (Turn.halt s halt : Turn α).Alike (.halt t halt) :=
  ⟨h, rfl, rfl⟩

theorem send (h : s.Alike t) (events : List SessionEvent) :
    (Turn.send s events).Alike (.send t events) :=
  ⟨h, rfl, rfl⟩

theorem ofResult {ε α : Type} (h : s.Alike t) (halt : ε → Halt) (result : Except ε α) :
    (Turn.ofResult halt s result).Alike (.ofResult halt t result) :=
  ⟨h, rfl, rfl⟩

/-- What emulators that are alike do is passed on alike. -/
theorem perform {α : Type} (h : s.Alike t) {operation : Emulator → Report α}
    (hoperation : ∀ {e f}, e.Alike f → (operation e).Alike (operation f)) :
    (s.perform operation).Alike (t.perform operation) := by
  obtain ⟨hemulator, hevents, hresult⟩ := hoperation h.emulator
  simp only [Stage.perform, hevents, hresult, h.tone]
  exact ⟨⟨hemulator, rfl⟩, rfl, rfl⟩

theorem load (h : s.Alike t) : (session.load s).Alike (session.load t) := by
  refine (h.perform fun h => .of_blind (blind_load _) h).andThen fun h loaded => ?_
  cases loaded with
  | ok length => exact h.pure ()
  | error cause => exact h.halt _

theorem handle (h : s.Alike t) (event : InputEvent) :
    (session.handle event s).Alike (session.handle event t) := by
  unfold Session.handle
  split
  · exact h.halt _
  split
  · exact (h.perform fun h => h.reset).andThen fun h _ => h.load
  · exact (h.perform fun h => h.handle session.keypad event).andThen fun h _ => h.pure ()

theorem handleAll (h : s.Alike t) (events : List InputEvent) :
    (session.handleAll events s).Alike (session.handleAll events t) := by
  induction events generalizing s t with
  | nil => exact h.pure ()
  | cons event events ih => exact (h.handle event).andThen fun h _ => ih h

theorem runCycles (h : s.Alike t) (milliseconds : Int) :
    (session.runCycles milliseconds s).Alike (session.runCycles milliseconds t) := by
  unfold Session.runCycles
  refine (h.ofResult _ _).andThen fun h time => ?_
  exact h.perform fun h => h.cycles time session.cyclesPerFrame

theorem round (h : s.Alike t) (r : Round) : (session.round r s).Alike (session.round r t) := by
  unfold Session.round
  refine (h.handleAll r.input).andThen fun h _ => ?_
  refine (h.send _).andThen fun h _ => ?_
  refine (h.runCycles r.milliseconds).andThen fun h _ => ?_
  rw [h.emulator.machine_eq]
  exact h.send _

theorem rounds (h : s.Alike t) (rounds : List Round) :
    (session.rounds rounds s).Alike (session.rounds rounds t) := by
  induction rounds generalizing s t with
  | nil => exact h.pure ()
  | cons r rounds ih => exact (h.round r).andThen fun h _ => ih h

/-- **Sessions on stages that are alike send the same and end in the same way.** -/
theorem loop (h : s.Alike t) (rounds : List Round) : session.loop rounds t = session.loop rounds s := by
  obtain ⟨hstage, hsent, hresult⟩ : (session.rounds rounds s).Alike (session.rounds rounds t) :=
    h.rounds rounds
  have hclose : (session.rounds rounds t).stage.close.2 = (session.rounds rounds s).stage.close.2 := by
    unfold Stage.close
    rw [hstage.tone]
    cases (session.rounds rounds s).stage.tone <;> rfl
  simp only [Session.loop, Session.finish, hsent, hresult, hclose]

end Stage.Alike

end ChipEight
