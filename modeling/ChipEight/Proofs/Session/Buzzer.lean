import ChipEight.Proofs.Session.Outcome
import ChipEight.Proofs.Session.Restart

/-!
# The buzzer is never left on

Two parts of a session take note of whether the tone plays: the emulator, which sends only changes, and the
tone, which asks the mixer only for changes.  The tone is the last before the mixer.  Whatever the emulator
sends, the tone begins where it has been left, so what is asked of the mixer is a play and a stop in turn
(`Stage.plays_perform`), and with that nothing is said about the emulator.  Pieces of a session put their
requests together in the same way, so this holds of a session up to any moment.

At the end, however it has come about, the tone is closed.  It asks for the stop that is still due, if there
is one, and then for the end of the mixer (`Session.mixed_loop`).  `Session.buzzer_is_silenced` adds that all
the while the tone and the emulator agree, and how the two exit codes come about.
-/

namespace ChipEight

open Emulator

/-- What is asked of the mixer among what is sent. -/
def mixed (events : List SessionEvent) : List MixerEvent :=
  events.filterMap fun event =>
    match event with
    | .mixer request => some request
    | _ => none

@[simp] theorem mixed_append (events more : List SessionEvent) :
    mixed (events ++ more) = mixed events ++ mixed more :=
  List.filterMap_append

@[simp] theorem mixed_map_mixer (requests : List MixerEvent) :
    mixed (requests.map .mixer) = requests := by
  simp [mixed, List.filterMap_map]

@[simp] theorem mixed_map_logged (records : List (Log.Record SessionCause)) :
    mixed (records.map .logged) = [] := by
  simp [mixed, List.filterMap_map]

/-- Requests to play and to stop come in turn, between two moments at which the tone plays or not. -/
inductive Alternates : Bool → List MixerEvent → Bool → Prop
  | nil (playing : Bool) : Alternates playing [] playing
  | play {requests : List MixerEvent} {playing : Bool} (h : Alternates true requests playing) :
    Alternates false (.play :: requests) playing
  | stop {requests : List MixerEvent} {playing : Bool} (h : Alternates false requests playing) :
    Alternates true (.stop :: requests) playing

namespace Alternates

variable {first last : Bool} {requests more : List MixerEvent}

theorem append {between : Bool} (h : Alternates first requests between)
    (h' : Alternates between more last) : Alternates first (requests ++ more) last := by
  induction h with
  | nil => exact h'
  | play _ ih => exact .play (ih h')
  | stop _ ih => exact .stop (ih h')

/-- With a stop if one is due, the tone is silent. -/
theorem silenced (h : Alternates first requests last) :
    Alternates first (requests ++ if last then [.stop] else []) false := by
  refine h.append ?_
  cases last with
  | false => exact .nil false
  | true => exact .stop (.nil false)

/-- What ends with silence is made of pairs of a play and a stop, behind a stop if one is due. -/
theorem eq_pairs (h : Alternates first requests last) (hsilent : last = false) :
    ∃ k, requests = (if first then [.stop] else []) ++ (List.replicate k [.play, .stop]).flatten := by
  induction h with
  | nil playing =>
    rw [hsilent]
    exact ⟨0, rfl⟩
  | play _ ih =>
    obtain ⟨k, hrest⟩ := ih hsilent
    refine ⟨k + 1, ?_⟩
    rw [hrest, List.replicate_succ, List.flatten_cons]
    rfl
  | stop _ ih =>
    obtain ⟨k, hrest⟩ := ih hsilent
    refine ⟨k, ?_⟩
    rw [hrest]
    rfl

end Alternates

/-- Whether the tone of a stage plays. -/
def Stage.playing (s : Stage) : Bool :=
  s.tone.any (·.playing)

/-- What a piece of a session asks of the mixer leads, play and stop in turn, from what the tone did to what
it does then. -/
def Turn.Plays {α : Type} (s : Stage) (t : Turn α) : Prop :=
  Alternates s.playing (mixed t.sent) t.stage.playing

namespace Turn

variable {α β : Type} {s : Stage}

/-- A piece of a session that has nothing to do with the tone. -/
theorem plays_of_quiet {t : Turn α} (htone : t.stage.tone = s.tone) (hsent : mixed t.sent = []) :
    t.Plays s := by
  have hsame : t.stage.playing = s.playing := congrArg (Option.any _) htone
  rw [Plays, hsent, hsame]
  exact .nil _

theorem Plays.andThen {t : Turn α} (h : t.Plays s) {next : Stage → α → Turn β}
    (hnext : ∀ s a, (next s a).Plays s) : (t.andThen next).Plays s := by
  cases hresult : t.result with
  | error halt =>
    rw [andThen_of_error hresult]
    exact h
  | ok a =>
    rw [andThen_of_ok hresult, Plays, mixed_append]
    exact h.append (hnext t.stage a)

theorem plays_walk {piece : β → Stage → Turn Unit} (h : ∀ b s, (piece b s).Plays s) (l : List β) :
    (walk piece l s).Plays s := by
  induction l generalizing s with
  | nil => exact plays_of_quiet rfl rfl
  | cons b l ih => exact (h b s).andThen fun _ _ => ih

end Turn

namespace Stage

variable {s : Stage}

/-- A tone that is set asks for a change only. -/
theorem alternates_set (playing : Bool) (t : Tone) :
    Alternates t.playing (t.set playing).2 (t.set playing).1.playing := by
  obtain ⟨wave, channels, was, mixerOpen⟩ := t
  cases playing with
  | true =>
    cases was with
    | true => exact .nil true
    | false => exact .play (.nil true)
  | false =>
    cases was with
    | true => exact .stop (.nil false)
    | false => exact .nil false

theorem alternates_relay (tone : Option Tone) (event : Event) :
    Alternates (tone.any (·.playing)) (mixed (relay tone event).2)
      ((relay tone event).1.any (·.playing)) := by
  cases event with
  | tone playing =>
    cases tone with
    | none => exact .nil false
    | some t =>
      have hrelay : relay (some t) (.tone playing) =
          (some (t.set playing).1, (t.set playing).2.map .mixer) := rfl
      rw [hrelay, mixed_map_mixer]
      exact alternates_set playing t
  | heard signal listener argument =>
    cases argument with
    | line text => exact .nil _
    | address a => exact .nil _
  | word w => exact .nil _
  | logged record => exact .nil _

theorem alternates_relayAll (tone : Option Tone) (events : List Event) :
    Alternates (tone.any (·.playing)) (mixed (relayAll tone events).2)
      ((relayAll tone events).1.any (·.playing)) := by
  induction events generalizing tone with
  | nil => exact .nil _
  | cons event events ih =>
    have hrelay : relayAll tone (event :: events) =
        ((relayAll (relay tone event).1 events).1,
          (relay tone event).2 ++ (relayAll (relay tone event).1 events).2) := rfl
    rw [hrelay, mixed_append]
    exact (alternates_relay tone event).append (ih _)

/-- **Whatever the emulator does**, the mixer is asked to play and to stop in turn. -/
theorem plays_perform {α : Type} (operation : Emulator → Report α) : (s.perform operation).Plays s :=
  alternates_relayAll s.tone (operation s.emulator).events

end Stage

namespace Session

variable {session : Session} {s : Stage}

theorem plays_load : (session.load s).Plays s := by
  refine (Stage.plays_perform _).andThen fun s loaded => ?_
  cases loaded with
  | ok length => exact Turn.plays_of_quiet rfl rfl
  | error cause => exact Turn.plays_of_quiet rfl rfl

theorem plays_handle (event : InputEvent) : (session.handle event s).Plays s := by
  unfold Session.handle
  split
  · exact Turn.plays_of_quiet rfl rfl
  split
  · exact (Stage.plays_perform _).andThen fun _ _ => plays_load
  · exact (Stage.plays_perform _).andThen fun _ _ => Turn.plays_of_quiet rfl rfl

theorem plays_round (r : Round) : (session.round r s).Plays s := by
  have hinput : (session.handleAll r.input s).Plays s := by
    rw [handleAll_eq_walk]
    exact Turn.plays_walk (fun event _ => plays_handle event) r.input
  have hcycles (s : Stage) : (session.runCycles r.milliseconds s).Plays s := by
    have htime : (Turn.ofResult (.failed ∘ .time) s (session.cycleTime r.milliseconds)).Plays s :=
      Turn.plays_of_quiet rfl rfl
    exact htime.andThen fun _ _ => Stage.plays_perform _
  unfold Session.round
  refine hinput.andThen fun s _ => ?_
  refine Turn.Plays.andThen (t := .send s [.ticked frameRate]) (Turn.plays_of_quiet rfl rfl) fun s _ => ?_
  exact (hcycles s).andThen fun s _ => Turn.plays_of_quiet rfl rfl

/-- **Rounds** ask the mixer to play and to stop in turn, whether they end the session or not. -/
theorem plays_rounds (rounds : List Round) : (session.rounds rounds s).Plays s := by
  rw [rounds_eq_walk]
  exact Turn.plays_walk (fun r _ => plays_round r) rounds

theorem plays_setUp {settings : Settings} {rom : Rom} {computer : Computer} :
    (setUp settings rom computer s).Plays s := by
  have hwindow : (openWindow settings rom computer s).Plays s := by
    unfold openWindow
    dsimp only
    split
    · exact Turn.plays_of_quiet rfl rfl
    · exact Turn.plays_of_quiet rfl rfl
  have hkeypad (s : Stage) : (layKeypad settings computer s).Plays s :=
    Turn.plays_of_quiet rfl (mixed_map_logged _)
  unfold setUp
  refine hwindow.andThen fun s _ => (hkeypad s).andThen fun s keypad => ?_
  exact plays_load.andThen fun s _ => Turn.plays_of_quiet rfl rfl

/-! ### The end -/

/-- A tone whose mixer is open is closed with a stop, if one is due, and then the mixer is ended. -/
theorem mixed_close {t : Tone} (htone : s.tone = some t) (hopen : t.mixerOpen = true) :
    mixed s.close.2 = (if s.playing then [.stop] else []) ++ [.quit] := by
  have hplaying : s.playing = t.playing := by rw [Stage.playing, htone, Option.any_some]
  obtain ⟨wave, channels, playing, mixerOpen⟩ := t
  cases hopen
  rw [hplaying, Stage.close, htone]
  cases playing with
  | true => rfl
  | false => rfl

theorem mixed_farewell (halt : Halt) : mixed (farewell halt).1 = [] := by
  cases halt with
  | left => rfl
  | stopped cause => rfl
  | failed cause => rfl

/-- How the loop ends, if rounds do. -/
def endOf (result : Except Halt Unit) : Halt :=
  match result with
  | .ok () => .left
  | .error halt => halt

theorem loop_eq (rounds : List Round) (s : Stage) :
    session.loop rounds s =
      ((session.rounds rounds s).sent ++
          (finish (endOf (session.rounds rounds s).result) (session.rounds rounds s).stage).1,
        (finish (endOf (session.rounds rounds s).result) (session.rounds rounds s).stage).2) := rfl

/-- **The loop ends in silence.**  Whatever comes, the mixer has been asked to play and to stop in turn, the
last time to stop, when it is ended. -/
theorem mixed_loop {rounds : List Round} {t : Tone}
    (htone : (session.rounds rounds s).stage.tone = some t) (hopen : t.mixerOpen = true) :
    ∃ requests, Alternates s.playing requests false ∧
      mixed (session.loop rounds s).1 = requests ++ [.quit] := by
  have hplays : (session.rounds rounds s).Plays s := plays_rounds rounds
  refine ⟨_, hplays.silenced, ?_⟩
  rw [loop_eq, finish]
  dsimp only
  rw [mixed_append, mixed_append, mixed_farewell, mixed_close htone hopen, List.nil_append,
    List.append_assoc]

/-- The exit code is `0` exactly if the user has left, or if there are no more rounds. -/
theorem loop_eq_exit_zero {rounds : List Round} :
    (session.loop rounds s).2 = .exit 0 ↔
      (session.rounds rounds s).result = .ok () ∨ (session.rounds rounds s).result = .error .left := by
  rw [loop_eq]
  cases (session.rounds rounds s).result with
  | ok _ => exact ⟨fun _ => .inl rfl, fun _ => rfl⟩
  | error halt =>
    cases halt with
    | left => exact ⟨fun _ => .inr rfl, fun _ => rfl⟩
    | stopped cause => simp [endOf, finish, farewell]
    | failed cause => simp [endOf, finish, farewell]

/-- The exit code is `1` exactly if the program has stopped. -/
theorem loop_eq_exit_one {rounds : List Round} :
    (session.loop rounds s).2 = .exit 1 ↔
      ∃ cause, (session.rounds rounds s).result = .error (.stopped cause) := by
  rw [loop_eq]
  cases (session.rounds rounds s).result with
  | ok _ => simp [endOf, finish, farewell]
  | error halt =>
    cases halt with
    | left => simp [endOf, finish, farewell]
    | stopped cause => exact ⟨fun _ => ⟨cause, rfl⟩, fun _ => rfl⟩
    | failed cause => simp [endOf, finish, farewell]

/-! ### The beginning -/

theorem openTone_inv {settings : Settings} {computer : Computer} {asked : List SessionEvent}
    {t : Tone} (h : openTone settings computer = (asked, .ok (some t))) :
    mixed asked = computer.mixer.asked ∧ t.playing = false ∧ t.mixerOpen = true := by
  unfold openTone at h
  split at h
  · cases h
  rcases hmake : Tone.make (α := SessionCause) computer.room computer.mixer settings.frequency
      settings.volume with
    ⟨requests, ⟨cause⟩ | ⟨made, record⟩⟩
  · rw [hmake] at h
    cases cause <;> cases h
  · rw [hmake] at h
    cases h
    obtain ⟨hasked, hsilent, hopen⟩ := make_inv hmake
    refine ⟨?_, hsilent, hopen⟩
    rw [mixed_append, mixed_map_mixer, hasked]
    exact List.append_nil _

/-- A session with a tone begins with a silent tone, an open mixer, and requests that end in silence. -/
theorem prepare_opens {settings : Settings} {rom : Rom} {computer : Computer} {random : RandomSource}
    {prepared : List SessionEvent} {first : Stage} {t : Tone}
    (h : prepare settings rom computer random = (prepared, .ok (session, first)))
    (htone : first.tone = some t) :
    t.mixerOpen = true ∧ first.playing = false ∧
      ∃ requests, Alternates false requests false ∧ mixed prepared = computer.mixer.asked ++ requests := by
  rcases hopen : openTone settings computer with ⟨asked, ⟨cause⟩ | tone⟩
  · simp only [prepare, hopen] at h
    cases h
  obtain hfailed | ⟨sent, made, m, -, -, hmade⟩ := setUp_cases settings rom computer tone
  · obtain ⟨halt, hhalt⟩ := hfailed random
    simp only [prepare, hopen, hhalt] at h
    cases h
  have hplays : (setUp settings rom computer (firstStage settings random tone)).Plays _ := plays_setUp
  rw [prepare_of_ok hopen (hmade random)] at h
  cases h
  cases htone
  obtain ⟨hasked, hsilent, hmixer⟩ := openTone_inv hopen
  have hfirst : (firstStage settings random (some t)).playing = false := hsilent
  have hleft : (loadedStage settings (some t) m random).playing = false := hsilent
  rw [Turn.Plays, hmade, hfirst, hleft] at hplays
  refine ⟨hmixer, hleft, mixed sent, hplays, ?_⟩
  rw [mixed_append, hasked]

/-- The size of a program for which a session has been prepared. -/
theorem length_of_prepare {settings : Settings} {rom : Rom} {computer : Computer} {random : RandomSource}
    {prepared : List SessionEvent} {first : Stage}
    (h : prepare settings rom computer random = (prepared, .ok (session, first))) :
    session.rom.bytes.length ≤ maxProgramSize := by
  obtain ⟨tone, m, hload, hrom, -⟩ := prepare_inv h
  rw [hrom]
  by_cases hsize : rom.bytes.length ≤ maxProgramSize
  · exact hsize
  · rw [Machine.load, if_neg hsize] at hload
    cases hload

/-- **The buzzer is never left on.**  Let a session be prepared with a tone.  At every moment of its loop,
between two events of the user's or between two cycles, whether the session goes on or not, the tone plays
exactly if the emulator has switched it on.

However the loop ends, the mixer is opened unless it is open already, then asked to play and to stop in
turn, the last time to stop, and then ended, once.  The exit code is `0` exactly if the user has left, by one
of two events, or if nothing more has come.  It is `1` exactly if an instruction has failed. -/
theorem buzzer_is_silenced {settings : Settings} {rom : Rom} {computer : Computer} {random : RandomSource}
    {prepared : List SessionEvent} {session : Session} {first : Stage} {t : Tone}
    (hprepare : prepare settings rom computer random = (prepared, .ok (session, first)))
    (htone : first.tone = some t) :
    (∀ before pressed,
      let s := (session.upToInput before pressed first).stage
      s.tone = some { t with playing := s.emulator.tonePlaying }) ∧
    (∀ before r time n,
      let s := (session.upToCycle before r time n first).stage
      s.tone = some { t with playing := s.emulator.tonePlaying }) ∧
    ∀ rounds,
      let requests := mixed (prepared ++ (session.loop rounds first).1)
      let ending := (session.loop rounds first).2
      (∃ k, requests = computer.mixer.asked ++ (List.replicate k [.play, .stop]).flatten ++ [.quit]) ∧
      (ending = .exit 0 ↔ (session.rounds rounds first).result = .ok () ∨
        ∃ before pressed event input milliseconds behind,
          rounds = before ++ ⟨pressed ++ event :: input, milliseconds⟩ :: behind ∧
          (event = .quit ∨ event = .keyDown KeyName.leave) ∧
          (session.upToInput before pressed first).result = .ok ()) ∧
      (ending = .exit 1 ↔ ∃ before r behind time n cause, rounds = before ++ r :: behind ∧
        session.cycleTime r.milliseconds = .ok time ∧ n < session.cyclesPerFrame ∧
        (session.upToCycle before r time n first).result = .ok () ∧
        ((session.upToCycle before r time n first).stage.emulator.cycle time).result =
          .error (.machine cause) ∧ cause.OfProgram) := by
  have hsize := length_of_prepare hprepare
  obtain ⟨hopen, hsilent, opened, hopened, hasked⟩ := prepare_opens hprepare htone
  have htune : first.InTune first := by
    obtain ⟨tone, m, -, -, hmade, rfl, -⟩ := prepare_inv hprepare
    exact inTune_loadedStage hmade
  have hplaying {s : Stage} (h : first.InTune s) :
      s.tone = some { t with playing := s.emulator.tonePlaying } := by
    rw [h.tone, htone]
    rfl
  have hinput (before : List Round) (pressed : List InputEvent) :
      (session.upToInput before pressed first).Leaves first.InTune :=
    (htune.rounds before).andThen fun _ _ h => h.handleAll pressed
  refine ⟨fun before pressed => hplaying (hinput before pressed), fun before r time n => ?_, ?_⟩
  · exact hplaying ((hinput before r.input).andThen fun _ _ h => h.perform (.cycles h.runner time n))
  intro rounds
  refine ⟨?_, ?_, ?_⟩
  · have hend : (session.rounds rounds first).stage.tone = _ := hplaying (htune.rounds rounds)
    obtain ⟨requests, hrequests, hloop⟩ := mixed_loop hend hopen
    rw [hsilent] at hrequests
    obtain ⟨k, hpairs⟩ := (hopened.append hrequests).eq_pairs rfl
    refine ⟨k, ?_⟩
    rw [mixed_append, hasked, hloop, List.append_assoc, ← List.append_assoc opened, hpairs,
      ← List.append_assoc]
    rfl
  · rw [loop_eq_exit_zero, rounds_eq_left hsize]
  · rw [loop_eq_exit_one]
    constructor
    · rintro ⟨cause, hstopped⟩
      obtain ⟨before, r, behind, time, n, hsplit, hfails⟩ := (rounds_eq_stopped hsize).mp hstopped
      exact ⟨before, r, behind, time, n, cause, hsplit, hfails⟩
    · rintro ⟨before, r, behind, time, n, cause, hsplit, hfails⟩
      exact ⟨cause, (rounds_eq_stopped hsize).mpr ⟨before, r, behind, time, n, hsplit, hfails⟩⟩

/-- A program that starts the tone and then returns from nowhere. -/
def astray : Rom where
  bytes := [0x60, 0xFF, 0xF0, 0x18, 0x00, 0xEE]

/-- A program fails in the middle of a round, while its tone plays. -/
theorem buzzer_is_silenced_of_return :
    ∃ prepared session first t,
      prepare plainSettings astray (.usual {}) (.cycle #[]) = (prepared, .ok (session, first)) ∧
      first.tone = some t ∧
      (session.upToInput [⟨[], 0⟩] [] first).stage.tone = some { t with playing := true } ∧
      (∃ k, mixed (prepared ++ (session.loop [⟨[], 0⟩, ⟨[], 0⟩] first).1) =
        [.opening ⟨44100, -16, 1⟩ 512] ++ (List.replicate k [.play, .stop]).flatten ++ [.quit]) ∧
      (session.loop [⟨[], 0⟩, ⟨[], 0⟩] first).2 = .exit 1 := by
  have hname : astray.name = "untitled" := rfl
  obtain ⟨prepared, hprepared⟩ := prepare_plain hname rfl
  have hprepare := hprepared (.cycle #[])
  generalize hsession : onKeypad plainSettings astray {} = session at hprepare
  generalize hfirst : loadedStage plainSettings _ _ _ = first at hprepare
  have htone : first.tone = some { wave := ⟨100, 32767⟩, channels := 1 } := by
    rw [← hfirst]
    rfl
  obtain ⟨hinput, -, hloop⟩ := buzzer_is_silenced hprepare htone
  obtain ⟨hpairs, -, hstopped⟩ := hloop [⟨[], 0⟩, ⟨[], 0⟩]
  have hasked : (Computer.usual {}).mixer.asked = [.opening ⟨44100, -16, 1⟩ 512] := rfl
  rw [hasked] at hpairs
  have hplaying : (session.upToInput [⟨[], 0⟩] [] first).stage.emulator.tonePlaying = true := by
    rw [← hsession, ← hfirst]
    decide +kernel
  have htime : session.cycleTime 0 = .ok (.real .zero) := by
    rw [← hsession]
    decide +kernel
  have hfails : (session.upToCycle [⟨[], 0⟩] ⟨[], 0⟩ (.real .zero) 0 first).result = .ok () ∧
      ((session.upToCycle [⟨[], 0⟩] ⟨[], 0⟩ (.real .zero) 0 first).stage.emulator.cycle
        (.real .zero)).result = .error (.machine (.flow .emptyStack)) := by
    rw [← hsession, ← hfirst]
    decide +kernel
  have hcycles : 0 < session.cyclesPerFrame := by
    rw [← hsession]
    decide
  refine ⟨prepared, session, first, _, hprepare, htone, ?_, hpairs, hstopped.mpr ?_⟩
  · rw [hinput [⟨[], 0⟩] [], hplaying]
  · exact ⟨[⟨[], 0⟩], ⟨[], 0⟩, [], .real .zero, 0, .flow .emptyStack, rfl, htime, hcycles, hfails.1,
      hfails.2, trivial⟩

end Session

end ChipEight
