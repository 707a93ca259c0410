import ChipEight.Computer.Usual
import ChipEight.Proofs.Session.Setup
import ChipEight.Proofs.Session.Tone

/-!
# A restart is a fresh start

A reset leaves nothing of what happened before.  After any run, what it leaves is alike to a new
emulator with the same listeners and the same tracing, so nothing that is asked of either from then
on tells them apart (`Emulator.alike_reset` and `Emulator.Alike.run`).

In a session the reset is followed by loading the program once more.  As the tone is in step with the
emulator, it is silent then, and the whole stage is alike to the one with which the session began
(`Session.alike_restart`).  What remains of the session is what a session that begins at that moment
would send, and it ends in the same way: `Session.loop_restart`.  Both are put together in
`reset_starts_over`.
-/

namespace ChipEight

open Emulator

namespace Session

variable {session : Session}

theorem handleAll_append (events more : List InputEvent) (s : Stage) :
    session.handleAll (events ++ more) s =
      (session.handleAll events s).andThen fun s _ => session.handleAll more s := by
  induction events generalizing s with
  | nil => rfl
  | cons event events ih =>
    rw [List.cons_append, handleAll, handleAll, Turn.andThen_assoc]
    congr 1
    funext s _
    exact ih s

theorem rounds_append (rounds more : List Round) (s : Stage) :
    session.rounds (rounds ++ more) s =
      (session.rounds rounds s).andThen fun s _ => session.rounds more s := by
  induction rounds generalizing s with
  | nil => rfl
  | cons r rounds ih =>
    rw [List.cons_append, Session.rounds, Session.rounds, Turn.andThen_assoc]
    congr 1
    funext s _
    exact ih s

/-- A round can be split in the middle of its input. -/
theorem round_append (events more : List InputEvent) (milliseconds : Int) (s : Stage) :
    session.round ⟨events ++ more, milliseconds⟩ s =
      (session.handleAll events s).andThen fun s _ => session.round ⟨more, milliseconds⟩ s := by
  unfold Session.round
  rw [handleAll_append, Turn.andThen_assoc]

theorem round_cons (event : InputEvent) (events : List InputEvent) (milliseconds : Int)
    (s : Stage) :
    session.round ⟨event :: events, milliseconds⟩ s =
      (session.handle event s).andThen fun s _ => session.round ⟨events, milliseconds⟩ s := by
  unfold Session.round
  rw [handleAll, Turn.andThen_assoc]

/-- Rounds that begin with something that goes well are left to the loop from there on. -/
theorem loop_of_ok {rounds rest : List Round} {s : Stage} {turn : Turn Unit}
    (hsplit : session.rounds rounds s = turn.andThen fun s _ => session.rounds rest s)
    (hok : turn.result = .ok ()) :
    session.loop rounds s =
      (turn.sent ++ (session.loop rest turn.stage).1, (session.loop rest turn.stage).2) := by
  rw [Turn.andThen_of_ok hok] at hsplit
  simp only [loop, hsplit, List.append_assoc]

/-- The stage with which the loop begins is in tune. -/
theorem inTune_loadedStage {settings : Settings} {tone : Option Tone} {m : Machine}
    {random : RandomSource} (hsilent : (tone.map fun t => { t with playing := false }) = tone) :
    (loadedStage settings tone m random).InTune (loadedStage settings tone m random) :=
  ⟨hsilent.symm, rfl, rfl, .refl _⟩

/-- **The key that starts the program over** leaves a stage that is alike to the one with which the
loop began, up to the random bytes. -/
theorem alike_restart {settings : Settings} {tone : Option Tone} {m : Machine}
    {random other : RandomSource} {s : Stage}
    (hload : Machine.load session.rom.bytes {} = .ok m)
    (hsilent : (tone.map fun t => { t with playing := false }) = tone)
    (h : (loadedStage settings tone m random).InTune s)
    (hagree : s.emulator.random.Agree other) :
    (session.handle (.keyDown KeyName.restart) s).result = .ok () ∧
      (session.handle (.keyDown KeyName.restart) s).stage.Alike
        (loadedStage settings tone m other) := by
  obtain ⟨hreset, hemulator⟩ := perform_reset s
  have htone := (h.perform (.reset h.runner)).tone
  rw [hemulator, Call.next_reset] at htone
  have halike := alike_reset h.runner hagree
  rw [h.hasTone, h.fitted.tracing, h.fitted.listeners] at halike
  rw [handle_restart, Turn.andThen_of_ok hreset, load_of_ok (m := m) (by rw [hemulator, Call.next_reset])
    (by rw [hemulator, Call.next_reset]; exact hload)]
  refine ⟨rfl, ?_, ?_⟩
  · exact halike.update (fun e => { e with machine := m, loaded := true }) fun _ _ => rfl
  · exact (htone.trans hsilent).symm

/-- **A restart in the loop is a fresh start.**  Take rounds and a part of the input of the next one
that go well, and let the key that starts the program over be pressed then.  What the loop sends from
there on, and how it ends, is what the loop of a session would that is prepared at that moment, with
the random bytes that are still to come. -/
theorem loop_restart {settings : Settings} {rom : Rom} {computer : Computer}
    {random other : RandomSource}
    {prepared : List SessionEvent} {first : Stage}
    (hprepare : prepare settings rom computer random = (prepared, .ok (session, first)))
    {before : List Round} {pressed : List InputEvent} {turn : Turn Unit}
    (hturn : ((session.rounds before first).andThen fun s _ => session.handleAll pressed s) = turn)
    (hok : turn.result = .ok ()) (hagree : turn.stage.emulator.random.Agree other) :
    ∃ fresh, prepare settings rom computer other = (prepared, .ok (session, fresh)) ∧
      ∀ input milliseconds behind,
        let restart := session.handle (.keyDown KeyName.restart) turn.stage
        let rest := session.loop (⟨input, milliseconds⟩ :: behind) fresh
        session.loop
            (before ++ ⟨pressed ++ .keyDown KeyName.restart :: input, milliseconds⟩ :: behind) first =
          (turn.sent ++ restart.sent ++ rest.1, rest.2) := by
  obtain ⟨tone, m, hload, rfl, hsilent, rfl, hfresh⟩ := prepare_inv hprepare
  have htune : (loadedStage settings tone m random).InTune turn.stage := by
    rw [← hturn]
    exact ((inTune_loadedStage hsilent).rounds before).andThen fun _ _ h => h.handleAll pressed
  obtain ⟨hrestart, halike⟩ := alike_restart hload hsilent htune hagree
  refine ⟨_, hfresh other, fun input milliseconds behind => ?_⟩
  -- The loop up to the key, the key, and the rounds from there on are three pieces in a row.
  have hsplit : session.rounds
      (before ++ ⟨pressed ++ .keyDown KeyName.restart :: input, milliseconds⟩ :: behind)
        (loadedStage settings tone m random) =
      (turn.andThen fun s _ => session.handle (.keyDown KeyName.restart) s).andThen
        fun s _ => session.rounds (⟨input, milliseconds⟩ :: behind) s := by
    rw [rounds_append, ← hturn, Turn.andThen_assoc, Turn.andThen_assoc]
    congr 1
    funext s _
    rw [Session.rounds, round_append, Turn.andThen_assoc]
    congr 1
    funext s _
    rw [round_cons, Turn.andThen_assoc]
    rfl
  have hgone : (turn.andThen fun s _ => session.handle (.keyDown KeyName.restart) s).result =
      .ok () := by
    rw [Turn.andThen_of_ok hok]
    exact hrestart
  rw [loop_of_ok hsplit hgone, Turn.andThen_of_ok hok]
  dsimp only
  rw [halike.loop]

/-- **A reset erases all history.**  Let an emulator have been through any calls, which may have
failed, and be reset, and let a new one be fitted out in the same way, with a source from which the
same random bytes are still to come.  The reset sends a stop exactly if the tone was on, and then no
calls tell the two from each other: they send the same, are answered in the same way, and leave
emulators that are the same but for the place where their sources stand.

In particular the key that starts the program over does so: the rest of the loop sends what a session
would that is prepared at that moment, and ends in the same way. -/
theorem reset_starts_over :
    (∀ (random other : RandomSource) (hasTone : Bool) (calls : List Call),
      let e := (new random hasTone).after calls
      let fresh : Emulator :=
        { new other hasTone with tracing := e.tracing, listeners := e.listeners }
      e.random.Agree other →
        tones (Call.reset.report e).events = (if hasTone ∧ e.tonePlaying then [false] else []) ∧
        ∀ more, sent more fresh = sent more (Call.reset.next e) ∧
          answers more fresh = answers more (Call.reset.next e) ∧
          ((Call.reset.next e).after more).Alike (fresh.after more)) ∧
    ∀ (settings : Settings) (rom : Rom) (computer : Computer) (random other : RandomSource)
      (prepared : List SessionEvent) (session : Session) (first : Stage) (before : List Round)
      (pressed : List InputEvent),
      let turn := (session.rounds before first).andThen fun s _ => session.handleAll pressed s
      prepare settings rom computer random = (prepared, .ok (session, first)) →
      turn.result = .ok () →
      turn.stage.emulator.random.Agree other →
      ∃ fresh, prepare settings rom computer other = (prepared, .ok (session, fresh)) ∧
        ∀ input milliseconds behind,
          let restart := session.handle (.keyDown KeyName.restart) turn.stage
          let rest := session.loop (⟨input, milliseconds⟩ :: behind) fresh
          session.loop
              (before ++ ⟨pressed ++ .keyDown KeyName.restart :: input, milliseconds⟩ :: behind)
              first =
            (turn.sent ++ restart.sent ++ rest.1, rest.2) := by
  refine ⟨?_, ?_⟩
  · intro random other hasTone calls e fresh hagree
    have hrunner : e.runner = .execute := (sound_after random hasTone calls).runner
    have htone : e.hasTone = hasTone := hasTone_after (e := new random hasTone) rfl calls
    have halike := alike_reset hrunner hagree
    rw [htone] at halike
    refine ⟨?_, fun more => halike.run more⟩
    rw [Call.tones_reset, tones_setTone, htone]
    cases e.tonePlaying <;> simp
  · intro settings rom computer random other prepared session first before pressed turn
      hprepare hok hagree
    exact loop_restart hprepare rfl hok hagree

/-- A session with a tone, two cycles for each picture, and no keys. -/
def plainSettings : Settings where
  cyclesPerSecond := 120
  scale := 8
  hasAudio := true
  frequency := .integer 440
  volume := .integer 1
  foreground := "#FFFFFF"
  background := "#000000"
  keyboard := []
  tracing := false

/-- With plain settings a program without a name is prepared on a usual computer, if it can be loaded. -/
theorem prepare_plain {rom : Rom} {m : Machine} (hname : rom.name = "untitled")
    (hload : Machine.load rom.bytes {} = .ok m) :
    ∃ prepared, ∀ random, prepare plainSettings rom (.usual {}) random =
      (prepared, .ok (onKeypad plainSettings rom {},
        loadedStage plainSettings (some { wave := ⟨100, 32767⟩, channels := 1 }) m random)) := by
  have hopen : openTone plainSettings (.usual {}) =
      ([.mixer (.opening ⟨44100, -16, 1⟩ 512),
        .logged (.debug "Tone ready: 440 Hz at 44100 Hz, 1 channel(s)")],
        .ok (some { wave := ⟨100, 32767⟩, channels := 1 })) := by decide +kernel
  have hwindow : Window.make (Computer.usual {}).window plainSettings.scale plainSettings.foreground
      plainSettings.background (programTitle ++ " - " ++ rom.name) =
        .ok ⟨512, 256, ⟨255, 255, 255⟩, ⟨0, 0, 0⟩, "PyChip8 - untitled"⟩ := by
    have htitle : programTitle ++ " - " ++ rom.name = "PyChip8 - untitled" := by
      rw [hname]
      decide +kernel
    have hzero : "PyChip8 - untitled".contains (Char.ofNat 0) = false := by
      rw [String.contains_char_eq]
      decide +kernel
    have hforeground : Color.ofText plainSettings.foreground = .ok ⟨255, 255, 255⟩ := by
      decide +kernel
    have hbackground : Color.ofText plainSettings.background = .ok ⟨0, 0, 0⟩ := by decide +kernel
    have hsize : (Computer.usual {}).window (displayWidth * plainSettings.scale)
        (displayHeight * plainSettings.scale) = .ok (512, 256) := by decide +kernel
    rw [htitle, Window.make, hforeground, hbackground, hsize, hzero]
    rfl
  have hsetUp := setUp_of_load hwindow rfl hload (some { wave := ⟨100, 32767⟩, channels := 1 })
  exact ⟨_, fun random => prepare_of_ok hopen (hsetUp random)⟩

/-- A program that starts the tone and then waits. -/
def tonal : Rom where
  bytes := [0x60, 0xFF, 0xF0, 0x18, 0x12, 0x04]

/-- A reset, and then the key that starts the program over, while the tone of this program plays. -/
theorem reset_starts_over_of_tone :
    let calls := [.load tonal.bytes, .cycle (.integer 0), .cycle (.integer 0)]
    let e := (new (.cycle #[]) true).after calls
    (e.tonePlaying = true ∧ e.random.Agree e.random.rest ∧
      tones (Call.reset.report e).events = [false]) ∧
    ∃ prepared session first, prepare plainSettings tonal (.usual {}) (.cycle #[]) =
        (prepared, .ok (session, first)) ∧
      let turn := (session.rounds [⟨[], 0⟩] first).andThen fun s _ => session.handleAll [] s
      turn.stage.emulator.tonePlaying = true ∧ turn.result = .ok () ∧
      ∃ fresh, prepare plainSettings tonal (.usual {}) turn.stage.emulator.random.rest =
          (prepared, .ok (session, fresh)) ∧
        session.loop [⟨[], 0⟩, ⟨[.keyDown KeyName.restart], 0⟩] first =
          (turn.sent ++ (session.handle (.keyDown KeyName.restart) turn.stage).sent ++
            (session.loop [⟨[], 0⟩] fresh).1, (session.loop [⟨[], 0⟩] fresh).2) := by
  have hname : tonal.name = "untitled" := rfl
  obtain ⟨prepared, hprepared⟩ := prepare_plain hname rfl
  have hprepare := hprepared (.cycle #[])
  have htone : ((new (.cycle #[]) true).after
      [.load tonal.bytes, .cycle (.integer 0), .cycle (.integer 0)]).tonePlaying = true := by
    decide +kernel
  obtain ⟨hstop, -⟩ := reset_starts_over.1 (.cycle #[]) _ true
    [.load tonal.bytes, .cycle (.integer 0), .cycle (.integer 0)] (RandomSource.agree_rest _)
  rw [if_pos ⟨rfl, htone⟩] at hstop
  obtain ⟨fresh, hfresh, hloop⟩ := reset_starts_over.2 plainSettings tonal (.usual {}) (.cycle #[]) _
    prepared _ _ [⟨[], 0⟩] [] hprepare (by decide +kernel) (RandomSource.agree_rest _)
  exact ⟨⟨htone, RandomSource.agree_rest _, hstop⟩, _, _, _, hprepare, by decide +kernel,
    by decide +kernel, fresh, hfresh, hloop [] 0 []⟩

end Session

end ChipEight
