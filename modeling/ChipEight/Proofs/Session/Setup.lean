import ChipEight.Proofs.Session.Alike

/-!
# Setting up a session

Before the loop begins, the tone is opened, the window and the keypad are made and the program is
loaded.  Any of these can fail.  If none does, the session begins on `Session.loadedStage`: a silent
tone, and an emulator that is new but for its program.  `Session.prepare_inv` says so, and that the
random bytes have no say in it: with any others the same would be set up in the same way.
-/

namespace ChipEight

/-- What is asked of a mixer when a tone is made: it is opened, unless it is open already. -/
def Mixer.asked (mixer : Mixer) : List MixerEvent :=
  if mixer.running.isSome then [] else [.opening (Tone.wantedFormat Tone.usualRate) Tone.bufferSize]

namespace Session

variable {session : Session}

/-- The stage with which the loop begins. -/
def loadedStage (settings : Settings) (tone : Option Tone) (m : Machine) (random : RandomSource) :
    Stage where
  emulator :=
    { (firstStage settings random tone).emulator with machine := m, loaded := true }
  tone := tone

/-- Loading a program into a new machine goes well or not, whatever the random bytes. -/
theorem load_of_ok {s : Stage} {m : Machine} (hloaded : s.emulator.loaded = false)
    (hload : s.emulator.machine.load session.rom.bytes = .ok m) :
    session.load s =
      ⟨{ s with emulator := { s.emulator with machine := m, loaded := true } },
        [.logged (.info s!"Loaded program: {session.rom.bytes.length} bytes")], .ok ()⟩ := by
  have hreport : s.emulator.load session.rom.bytes =
      ⟨{ s.emulator with machine := m, loaded := true },
        [.logged (.info s!"Loaded program: {session.rom.bytes.length} bytes")],
        .ok (.ok session.rom.bytes.length)⟩ := by
    unfold Emulator.load
    rw [if_neg (by simp [hloaded]), hload]
    rfl
  simp only [Session.load, Stage.perform, hreport]
  rfl

theorem load_of_error {s : Stage} {f : LoadFault} (hloaded : s.emulator.loaded = false)
    (hload : s.emulator.machine.load session.rom.bytes = .error f) :
    (session.load s).result = .error (.failed (.load f)) := by
  have hresult : (s.emulator.load session.rom.bytes).result = .ok (.error f) := by
    unfold Emulator.load
    rw [if_neg (by simp [hloaded]), hload]
    rfl
  have hperform : (s.perform (·.load session.rom.bytes)).result = .ok (.error f) :=
    congrArg (Except.mapError Stage.haltOf) hresult
  unfold Session.load
  rw [Turn.andThen_of_ok hperform]
  rfl

/-- The key that starts the program over resets the emulator, which always goes well, and loads the program
once more. -/
theorem handle_restart (s : Stage) :
    session.handle (.keyDown KeyName.restart) s =
      (s.perform Emulator.reset).andThen fun s _ => session.load s := by
  unfold Session.handle
  rw [if_neg (by decide), if_pos rfl]

theorem perform_reset (s : Stage) :
    (s.perform Emulator.reset).result = .ok () ∧
      (s.perform Emulator.reset).stage.emulator = Call.reset.next s.emulator :=
  ⟨congrArg (fun r : Report Unit => r.result.mapError Stage.haltOf) (Call.reset_eq s.emulator), rfl⟩

/-- The session that is set up on a keypad. -/
def onKeypad (settings : Settings) (rom : Rom) (keypad : Keypad) : Session where
  rom := rom
  keypad := keypad
  cyclesPerFrame := cyclesPerFrameAt settings.cyclesPerSecond

/-- With a window and a keypad, setting up ends as the loading of the program does. -/
theorem setUp_of_ok {settings : Settings} {rom : Rom} {computer : Computer} {keypad : Keypad} {s : Stage}
    {opened warned : List SessionEvent} (hopen : openWindow settings rom computer s = .send s opened)
    (hlay : layKeypad settings computer s = ⟨s, warned, .ok keypad⟩) :
    setUp settings rom computer s =
      { ((onKeypad settings rom keypad).load s).andThen fun s _ =>
          .pure s (onKeypad settings rom keypad) with
        sent := opened ++ (warned ++ ((onKeypad settings rom keypad).load s).sent) } := by
  rw [setUp, hopen, Turn.andThen_of_ok rfl]
  dsimp only [Turn.send]
  rw [hlay, Turn.andThen_of_ok rfl]
  cases hload : ((onKeypad settings rom keypad).load s).result with
  | error halt =>
    unfold onKeypad at hload ⊢
    simp only [Turn.andThen_of_error hload]
  | ok _ =>
    unfold onKeypad at hload ⊢
    simp only [Turn.andThen_of_ok hload, Turn.pure, List.append_nil]

theorem openWindow_of_ok {settings : Settings} {rom : Rom} {computer : Computer} {window : Window}
    (h : Window.make computer.window settings.scale settings.foreground settings.background
      (programTitle ++ " - " ++ rom.name) = .ok window) (s : Stage) :
    openWindow settings rom computer s = .send s [.opened window] := by
  unfold openWindow
  dsimp only
  rw [h]

theorem layKeypad_eq {settings : Settings} {computer : Computer}
    {warnings : List (Log.Record SessionCause)}
    {laid : Except String Keypad}
    (h : Keypad.ofBindings computer.keyCode? settings.keyboard = (warnings, laid)) (s : Stage) :
    layKeypad settings computer s =
      ⟨s, warnings.map .logged, laid.mapError fun text => .failed (.machineKey text)⟩ := by
  unfold layKeypad
  rw [h]

/-- If the program can be loaded too, setting up leaves the stage with which the loop begins. -/
theorem setUp_of_load {settings : Settings} {rom : Rom} {computer : Computer} {window : Window}
    {keypad : Keypad}
    {warnings : List (Log.Record SessionCause)} {m : Machine}
    (hwindow : Window.make computer.window settings.scale settings.foreground settings.background
      (programTitle ++ " - " ++ rom.name) = .ok window)
    (hkeypad : Keypad.ofBindings computer.keyCode? settings.keyboard = (warnings, .ok keypad))
    (hload : Machine.load rom.bytes {} = .ok m) (tone : Option Tone) (random : RandomSource) :
    setUp settings rom computer (firstStage settings random tone) =
      ⟨loadedStage settings tone m random,
        [.opened window] ++ (warnings.map .logged ++
          [.logged (.info s!"Loaded program: {rom.bytes.length} bytes")]),
        .ok (onKeypad settings rom keypad)⟩ := by
  have hdone : (onKeypad settings rom keypad).load (firstStage settings random tone) =
      ⟨loadedStage settings tone m random,
        [.logged (.info s!"Loaded program: {rom.bytes.length} bytes")], .ok ()⟩ :=
    load_of_ok rfl hload
  rw [setUp_of_ok (openWindow_of_ok hwindow _) (layKeypad_eq hkeypad _), hdone]
  rfl

/-- Setting up fails, or it leaves the stage with which the loop begins.  The random bytes have no
say in it. -/
theorem setUp_cases (settings : Settings) (rom : Rom) (computer : Computer) (tone : Option Tone) :
    (∀ random, ∃ halt, (setUp settings rom computer (firstStage settings random tone)).result = .error halt) ∨
    ∃ sent session m, Machine.load rom.bytes {} = .ok m ∧ session.rom = rom ∧
      ∀ random, setUp settings rom computer (firstStage settings random tone) =
        ⟨loadedStage settings tone m random, sent, .ok session⟩ := by
  cases hwindow : Window.make computer.window settings.scale settings.foreground settings.background
      (programTitle ++ " - " ++ rom.name) with
  | error cause =>
    refine .inl fun random => ⟨.failed (.window cause), ?_⟩
    have hopen : openWindow settings rom computer (firstStage settings random tone) =
        .halt (firstStage settings random tone) (.failed (.window cause)) := by
      unfold openWindow
      dsimp only
      rw [hwindow]
    rw [setUp, hopen, Turn.andThen_of_error rfl]
  | ok window =>
    have hopen := openWindow_of_ok hwindow
    rcases hkeypad : Keypad.ofBindings computer.keyCode? settings.keyboard with ⟨warnings, laid⟩
    have hlay := layKeypad_eq hkeypad
    cases laid with
    | error text =>
      refine .inl fun random => ⟨.failed (.machineKey text), ?_⟩
      have hunlaid : (layKeypad settings computer (firstStage settings random tone)).result =
          .error (.failed (.machineKey text)) := congrArg Turn.result (hlay _)
      rw [setUp, hopen, Turn.andThen_of_ok rfl]
      dsimp only [Turn.send]
      rw [Turn.andThen_of_error hunlaid]
    | ok keypad =>
      cases hload : Machine.load rom.bytes {} with
      | error f =>
        refine .inl fun random => ⟨.failed (.load f), ?_⟩
        have hfailed : ((onKeypad settings rom keypad).load
            (firstStage settings random tone)).result = .error (.failed (.load f)) :=
          load_of_error rfl hload
        rw [setUp_of_ok (hopen _) (hlay _), Turn.andThen_of_error hfailed]
      | ok m =>
        exact .inr ⟨_, onKeypad settings rom keypad, m, rfl, rfl,
          setUp_of_load hwindow hkeypad hload tone⟩

/-- A tone that is made is silent, and its mixer is open.  The mixer has been asked for that, unless it was
open already. -/
theorem make_inv {α : Type} {room : Room} {mixer : Mixer} {frequency volume : Number} {asked : List MixerEvent}
    {t : Tone} {record : Log.Record α}
    (h : Tone.make room mixer frequency volume = (asked, .ok (t, record))) :
    asked = mixer.asked ∧ t.playing = false ∧ t.mixerOpen = true := by
  unfold Tone.make at h
  unfold Mixer.asked
  dsimp only at h
  cases hrunning : mixer.running with
  | some format =>
    rw [hrunning] at h
    dsimp only at h
    split at h
    · cases h
    split at h
    · cases h
    · cases h
      exact ⟨rfl, rfl, rfl⟩
  | none =>
    rw [hrunning] at h
    dsimp only at h
    split at h
    · cases h
    split at h
    · cases h
    split at h
    · cases h
    · cases h
      exact ⟨rfl, rfl, rfl⟩

theorem silent_of_openTone {settings : Settings} {computer : Computer} {asked : List SessionEvent}
    {tone : Option Tone} (h : openTone settings computer = (asked, .ok tone)) :
    (tone.map fun t => { t with playing := false }) = tone := by
  unfold openTone at h
  split at h
  · cases h
    rfl
  rcases hmake : Tone.make computer.room computer.mixer settings.frequency settings.volume with ⟨events, made⟩
  rw [hmake] at h
  dsimp only at h
  split at h
  · cases h
    have hsilent := (make_inv hmake).2.1
    rw [Option.map_some, ← hsilent]
  · cases h
    rfl
  all_goals cases h

theorem prepare_of_ok {settings : Settings} {rom : Rom} {computer : Computer} {random : RandomSource}
    {tone : Option Tone} {asked more : List SessionEvent} {s : Stage}
    (hopen : openTone settings computer = (asked, .ok tone))
    (hsetUp : setUp settings rom computer (firstStage settings random tone) = ⟨s, more, .ok session⟩) :
    prepare settings rom computer random = (asked ++ more, .ok (session, s)) := by
  simp only [prepare, hopen, hsetUp]

/-- All that is needed is set up in the same way whatever the random bytes. -/
theorem prepare_inv {settings : Settings} {rom : Rom} {computer : Computer} {random : RandomSource}
    {sent : List SessionEvent} {s : Stage}
    (h : prepare settings rom computer random = (sent, .ok (session, s))) :
    ∃ tone m, Machine.load rom.bytes {} = .ok m ∧ session.rom = rom ∧
      (tone.map fun t => { t with playing := false }) = tone ∧
      s = loadedStage settings tone m random ∧
      ∀ other, prepare settings rom computer other =
        (sent, .ok (session, loadedStage settings tone m other)) := by
  rcases hopen : openTone settings computer with ⟨asked, opened⟩
  cases opened with
  | error cause =>
    simp only [prepare, hopen] at h
    cases h
  | ok tone =>
    obtain hfailed | ⟨more, made, m, hload, hrom, hmade⟩ := setUp_cases settings rom computer tone
    · obtain ⟨halt, hhalt⟩ := hfailed random
      simp only [prepare, hopen, hhalt] at h
      cases h
    · have hprepare (other : RandomSource) : prepare settings rom computer other =
          (asked ++ more, .ok (made, loadedStage settings tone m other)) :=
        prepare_of_ok hopen (hmade other)
      rw [hprepare] at h
      cases h
      exact ⟨tone, m, hload, hrom, silent_of_openTone hopen, rfl, hprepare⟩

end Session

end ChipEight
