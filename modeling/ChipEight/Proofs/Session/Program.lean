import ChipEight.Proofs.Machine.Store
import ChipEight.Proofs.Machine.StraightLine
import ChipEight.Proofs.Sequencing
import ChipEight.Proofs.Session.Setup

/-!
# The program of a session can always be loaded

An image is accepted by its size alone (`Rom.exists_ofBytes_iff`), and a machine takes a program by its size
alone too.  The two sizes are checked in different places, and never by one another: what a session loads,
first and again after every restart, it takes to be loaded.  As the limits are the same, and as nothing else
can be in the way of an emulator without a program, it is right to do so (`Session.run_loads`).

What loading does is said for every emulator without a program, whatever has been done to it before
(`Emulator.load_cases`): the bytes of the program are in their place, and the program counter is in front of
them, and all else is as it was.  A program that is too long changes nothing.
-/

namespace ChipEight

open Emulator

namespace Rom

variable {b : List UInt8} {rom : Rom}

/-- What is accepted is kept as it is. -/
theorem eq_of_ofBytes (h : ofBytes b = .ok rom) : rom = { bytes := b } := by
  unfold ofBytes at h
  split at h
  · cases h
  split at h
  · cases h
  · exact (Except.ok.inj h).symm

theorem exists_ofBytes_iff : (∃ rom, ofBytes b = .ok rom) ↔ 0 < b.length ∧ b.length ≤ maxProgramSize := by
  rw [← isOk_ofBytes]
  refine ⟨?_, fun h => ⟨_, h⟩⟩
  rintro ⟨rom, h⟩
  rwa [← eq_of_ofBytes h]

/-- A program that has been read is not too long. -/
theorem length_of_ofReading {name : String} {reading : Except FileFault (List UInt8)}
    (h : ofReading name reading = .ok rom) : rom.bytes.length ≤ maxProgramSize := by
  unfold ofReading at h
  split at h
  · cases h
  split at h
  · cases h
  next b =>
    obtain ⟨image, himage, rfl⟩ := ok_of_map_ok h
    have hsize := (exists_ofBytes_iff.mp ⟨image, himage⟩).2
    rwa [eq_of_ofBytes himage]

end Rom

namespace Emulator

open Machine

variable {e loaded : Emulator} {program : List UInt8}

/-- An emulator is left with a program in its place, and else as it was. -/
structure Loads (program : List UInt8) (e loaded : Emulator) : Prop where
  bytes : ∀ k (h : k < program.length), loaded.machine.byteAt (0x200 + k) = program[k]
  memory : ∀ a, a < 0x200 ∨ 0x200 + program.length ≤ a → loaded.machine.byteAt a = e.machine.byteAt a
  others : loaded =
    { e with
      loaded := true
      machine := { e.machine with memory := loaded.machine.memory, counter := 0x200 } }

/-- **Loading** depends on the size of the program alone. -/
theorem load_cases (h : e.loaded = false) (program : List UInt8) :
    (program.length ≤ 3584 →
        (e.load program).result = .ok (.ok program.length) ∧ Loads program e (e.load program).emulator) ∧
      (3584 < program.length →
        (e.load program).result = .ok (.error ⟨program.length⟩) ∧ (e.load program).emulator = e) := by
  have hunloaded : ¬e.loaded = true := by simp [h]
  constructor
  · intro hsize
    have hload : e.machine.load program =
        .ok { e.machine with
          memory := Cells.write e.machine.memory programStart program
          counter := programStart } := if_pos hsize
    have hreport : (e.load program).result = .ok (.ok program.length) ∧ (e.load program).emulator =
        { e with
          loaded := true
          machine := { e.machine with
            memory := Cells.write e.machine.memory programStart program
            counter := programStart } } := by
      unfold load
      rw [if_neg hunloaded, hload]
      exact ⟨rfl, rfl⟩
    refine ⟨hreport.1, ?_⟩
    rw [hreport.2]
    refine ⟨(holds_load hload).1, fun a houtside => ?_, rfl⟩
    exact byteAt_of_write rfl houtside
  · intro hsize
    have hload : e.machine.load program = .error ⟨program.length⟩ := if_neg (Nat.not_le.mpr hsize)
    unfold load
    rw [if_neg hunloaded, hload]
    exact ⟨rfl, rfl⟩

/-! ### What can fail beside loading -/

/-- A sequence of two operations fails in some way only if one of them does. -/
theorem andThen_ne {α β : Type} {r : Report α} {next : Emulator → α → Report β} {f : EmulatorFault}
    (h : r.result ≠ .error f) (hnext : ∀ e a, (next e a).result ≠ .error f) :
    (r.andThen next).result ≠ .error f := by
  cases hresult : r.result with
  | error g =>
    rw [Report.andThen_of_error hresult]
    rw [hresult] at h
    exact fun hfails => h (congrArg Except.error (Except.error.inj hfails))
  | ok a =>
    rw [Report.andThen_of_ok hresult]
    exact hnext r.emulator a

theorem pure_ne {α : Type} {f : EmulatorFault} (e : Emulator) (a : α) :
    (Report.pure e a).result ≠ .error f :=
  nofun

/-- A cycle never complains of a program. -/
theorem cycle_ne (delta : Number) (e : Emulator) : (e.cycle delta).result ≠ .error .alreadyLoaded := by
  have hclock (e : Emulator) : (e.advanceClock delta).result ≠ .error .alreadyLoaded := by
    rw [advanceClock_eq]
    split <;> nofun
  have hword (word : Int) (e : Emulator) : (e.runWord word).result ≠ .error .alreadyLoaded := by
    unfold runWord
    split
    · nofun
    · dsimp only
      split <;> nofun
  have hstep (e : Emulator) : e.step.result ≠ .error .alreadyLoaded := by
    unfold step
    split
    · nofun
    · refine andThen_ne ?_ fun e _ => hword _ e
      rw [traceWord_eq]
      nofun
  unfold cycle
  split
  · nofun
  split
  · nofun
  refine andThen_ne nofun fun e _ => andThen_ne (hclock e) fun e _ => andThen_ne ?_ fun e _ => ?_
  · split
    · nofun
    · exact hstep e
  · refine andThen_ne ?_ fun e _ => nofun
    rw [setTone_eq]
    nofun

theorem cycles_ne (delta : Number) (n : Nat) (e : Emulator) :
    (e.cycles delta n).result ≠ .error .alreadyLoaded := by
  induction n generalizing e with
  | zero => nofun
  | succ n ih => exact andThen_ne (cycle_ne delta e) fun e _ => ih e

/-- The keypad complains of nothing but a key. -/
theorem handle_ne {f : EmulatorFault} (hf : ∀ key, f ≠ .invalidKey key) (keypad : Keypad)
    (event : InputEvent) (e : Emulator) : (keypad.handle event e).result ≠ .error f := by
  have hinvalid (key : Int) (e : Emulator) :
      (Report.fail e (.invalidKey key) : Report Unit).result ≠ .error f :=
    fun hfails => hf key (Except.error.inj hfails).symm
  have hdown (key : Int) : (e.keyDown key).result ≠ .error f := by
    unfold keyDown
    split
    · dsimp only
      split <;> nofun
    · exact hinvalid key e
  have hup (key : Int) : (e.keyUp key).result ≠ .error f := by
    unfold keyUp
    split
    · nofun
    · exact hinvalid key e
  cases event with
  | keyDown code =>
    unfold Keypad.handle
    dsimp only
    split
    · exact andThen_ne (hdown _) fun e _ => pure_ne e true
    · exact pure_ne e false
  | keyUp code =>
    unfold Keypad.handle
    dsimp only
    split
    · exact andThen_ne (hup _) fun e _ => pure_ne e true
    · exact pure_ne e false
  | quit | other => exact pure_ne e false

end Emulator

/-! ### Sessions -/

/-- A fault that comes of loading a program: it does not fit, or there is one already. -/
def SessionFault.OfLoading : SessionFault → Prop
  | load _ | emulator .alreadyLoaded => True
  | _ => False

/-- A piece of a session does not fail with loading a program. -/
def Turn.LoadsWell {α : Type} (t : Turn α) : Prop :=
  ∀ cause, t.result = .error (.failed cause) → ¬cause.OfLoading

namespace Turn

variable {α β : Type} {t : Turn α} {s : Stage}

theorem loadsWell_of_ok {a : α} (h : t.result = .ok a) : t.LoadsWell := by
  intro cause hfails
  rw [h] at hfails
  cases hfails

/-- Two pieces of a session load well if each does. -/
theorem LoadsWell.andThen (h : t.LoadsWell) {next : Stage → α → Turn β}
    (hnext : ∀ a, (next t.stage a).LoadsWell) : (t.andThen next).LoadsWell := by
  cases hresult : t.result with
  | error halt =>
    rw [andThen_of_error hresult]
    intro cause hfails
    cases hfails
    exact h cause hresult
  | ok a =>
    rw [andThen_of_ok hresult]
    exact hnext a

/-- Only a program that is there already makes an operation fail with loading. -/
theorem loadsWell_perform {operation : Emulator → Report α}
    (h : (operation s.emulator).result ≠ .error .alreadyLoaded) : (s.perform operation).LoadsWell := by
  intro cause hfails hloading
  have hresult : (s.perform operation).result = (operation s.emulator).result.mapError Stage.haltOf := rfl
  rw [hresult] at hfails
  cases hoperation : (operation s.emulator).result with
  | ok a =>
    rw [hoperation] at hfails
    cases hfails
  | error f =>
    rw [hoperation] at hfails h
    have hhalt : Stage.haltOf f = .failed cause := Except.error.inj hfails
    cases f with
    | alreadyLoaded => exact h rfl
    | notLoaded | negativeStep | invalidKey | clock =>
      cases hhalt
      exact hloading
    | machine fault =>
      cases fault with
      | cell =>
        cases hhalt
        exact hloading
      | unknownOpcode | flow | memory | input => cases hhalt

end Turn

namespace Session

variable {session : Session} {s : Stage}

/-- **A restart goes well**, wherever it happens. -/
theorem restart_eq_ok (hsize : session.rom.bytes.length ≤ maxProgramSize) :
    (session.handle (.keyDown KeyName.restart) s).result = .ok () := by
  obtain ⟨hreset, hemulator⟩ := perform_reset s
  rw [Call.next_reset] at hemulator
  have hload : session.load (s.perform reset).stage = _ :=
    load_of_ok (by rw [hemulator]) (if_pos hsize)
  rw [handle_restart, Turn.andThen_of_ok hreset, hload]

/-- Nothing that the user does makes loading fail. -/
theorem handle_loadsWell (hsize : session.rom.bytes.length ≤ maxProgramSize) (event : InputEvent) :
    (session.handle event s).LoadsWell := by
  by_cases hrestart : event = .keyDown KeyName.restart
  · rw [hrestart]
    exact Turn.loadsWell_of_ok (restart_eq_ok hsize)
  · unfold Session.handle
    split
    · intro cause hleft
      cases hleft
    exact (Turn.loadsWell_perform (handle_ne (fun _ h => by cases h) _ _ _)).andThen fun _ => Turn.loadsWell_of_ok rfl

theorem handleAll_loadsWell (hsize : session.rom.bytes.length ≤ maxProgramSize)
    (events : List InputEvent) : (session.handleAll events s).LoadsWell := by
  induction events generalizing s with
  | nil => exact Turn.loadsWell_of_ok rfl
  | cons event events ih => exact (handle_loadsWell hsize event).andThen fun _ => ih

theorem round_loadsWell (hsize : session.rom.bytes.length ≤ maxProgramSize) (r : Round) :
    (session.round r s).LoadsWell := by
  unfold Session.round
  refine (handleAll_loadsWell hsize r.input).andThen fun _ => ?_
  refine (Turn.loadsWell_of_ok rfl).andThen fun _ => ?_
  refine Turn.LoadsWell.andThen ?_ fun _ => Turn.loadsWell_of_ok rfl
  unfold Session.runCycles
  refine Turn.LoadsWell.andThen ?_ fun time => Turn.loadsWell_perform (cycles_ne _ _ _)
  intro cause hfails
  unfold Turn.ofResult at hfails
  cases htime : session.cycleTime r.milliseconds with
  | ok time =>
    rw [htime] at hfails
    cases hfails
  | error f =>
    rw [htime] at hfails
    cases hfails
    exact id

/-- **The rounds of a session** never fail with loading. -/
theorem rounds_loadsWell (hsize : session.rom.bytes.length ≤ maxProgramSize) (rounds : List Round) :
    (session.rounds rounds s).LoadsWell := by
  induction rounds generalizing s with
  | nil => exact Turn.loadsWell_of_ok rfl
  | cons r rounds ih => exact (round_loadsWell hsize r).andThen fun _ => ih

/-! ### Before the loop -/

variable {settings : Settings} {rom : Rom} {computer : Computer}

/-- Setting up does not fail with loading. -/
theorem setUp_loadsWell (hsize : rom.bytes.length ≤ maxProgramSize) (hunloaded : s.emulator.loaded = false) :
    (setUp settings rom computer s).LoadsWell := by
  have hopen : (openWindow settings rom computer s).LoadsWell ∧ (openWindow settings rom computer s).stage = s := by
    unfold openWindow
    dsimp only
    split
    · refine ⟨fun cause hfails => ?_, rfl⟩
      cases hfails
      exact id
    · exact ⟨Turn.loadsWell_of_ok rfl, rfl⟩
  have hlay : (layKeypad settings computer s).LoadsWell ∧ (layKeypad settings computer s).stage = s := by
    unfold layKeypad
    rcases Keypad.ofBindings computer.keyCode? settings.keyboard with ⟨warnings, laid⟩
    refine ⟨fun cause hfails => ?_, rfl⟩
    cases laid <;> cases hfails
    exact id
  unfold setUp
  refine hopen.1.andThen fun _ => ?_
  rw [hopen.2]
  refine hlay.1.andThen fun keypad => ?_
  rw [hlay.2]
  have hload : (Session.mk rom keypad (cyclesPerFrameAt settings.cyclesPerSecond)).load s = _ :=
    load_of_ok hunloaded (if_pos hsize)
  have hloaded := Turn.loadsWell_of_ok (congrArg Turn.result hload)
  exact hloaded.andThen fun _ => Turn.loadsWell_of_ok rfl

/-- A session ends with a fault only if a fault has ended it. -/
theorem halt_of_farewell {halt : Halt} {cause : SessionFault} (h : (farewell halt).2 = .failed cause) :
    halt = .failed cause := by
  cases halt with
  | left | stopped => cases h
  | failed => exact congrArg Halt.failed (Ending.failed.inj h)

/-- Neither do the settings, the program and the tone. -/
theorem settle_loadsWell {options : Options} {file : SettingsFile} {sent : List SessionEvent}
    {cause : SessionFault} (h : settle options file = (sent, .error cause)) : ¬cause.OfLoading := by
  unfold settle at h
  dsimp only at h
  cases hread : Settings.ofTable (options.applyTo (Settings.load file).1) with
  | ok settings =>
    rw [hread] at h
    cases h
  | error fault =>
    rw [hread] at h
    cases h
    exact id

theorem readRom_loadsWell {name : String} {reading : Except FileFault (List UInt8)}
    {sent : List SessionEvent} {cause : SessionFault}
    (h : readRom name reading = (sent, .error (.failed cause))) : ¬cause.OfLoading := by
  unfold readRom at h
  split at h <;> cases h
  exact id

theorem length_of_readRom {name : String} {reading : Except FileFault (List UInt8)}
    {sent : List SessionEvent} (h : readRom name reading = (sent, .ok rom)) :
    rom.bytes.length ≤ maxProgramSize := by
  unfold readRom at h
  split at h <;> cases h
  next hreading => exact Rom.length_of_ofReading hreading

theorem openTone_loadsWell {sent : List SessionEvent} {cause : SessionFault}
    (h : openTone settings computer = (sent, .error cause)) : ¬cause.OfLoading := by
  unfold openTone at h
  split at h
  · cases h
  dsimp only at h
  split at h <;> cases h <;> exact id

/-- Preparing a session does not fail with loading. -/
theorem prepare_loadsWell (hsize : rom.bytes.length ≤ maxProgramSize) {random : RandomSource}
    {cause : SessionFault} (h : (prepare settings rom computer random).2 = .error (.failed cause)) :
    ¬cause.OfLoading := by
  rcases hopen : openTone settings computer with ⟨asked, fault | tone⟩
  · simp only [prepare, hopen] at h
    cases h
    exact openTone_loadsWell hopen
  · have hsetUp : (setUp settings rom computer (firstStage settings random tone)).LoadsWell := setUp_loadsWell hsize rfl
    cases hresult : (setUp settings rom computer (firstStage settings random tone)).result with
    | ok session =>
      simp only [prepare, hopen, hresult] at h
      cases h
    | error halt =>
      simp only [prepare, hopen, hresult, finish] at h
      exact hsetUp cause (hresult.trans (congrArg Except.error (halt_of_farewell (Except.error.inj h))))

/-- Before the loop nothing fails with loading, and a session with a loop has a program that is not too
long. -/
theorem begin_loadsWell (options : Options) (found : Surroundings) :
    (∀ cause, (begin options found).2 = .error (.failed cause) → ¬cause.OfLoading) ∧
      ∀ session s, (begin options found).2 = .ok (session, s) →
        session.rom.bytes.length ≤ maxProgramSize := by
  cases hfound : found.settings with
  | error fault =>
    simp only [begin, hfound]
    refine ⟨fun cause h => ?_, fun session s h => by cases h⟩
    cases h
    exact id
  | ok file =>
    rcases hsettle : settle options file with ⟨sent, fault | settings⟩
    · simp only [begin, hfound, hsettle]
      refine ⟨fun cause h => ?_, fun session s h => by cases h⟩
      cases h
      exact settle_loadsWell hsettle
    · rcases hrom : readRom options.program.text found.program with ⟨more, ending | rom⟩
      · simp only [begin, hfound, hsettle, hrom]
        refine ⟨fun cause h => ?_, fun session s h => by cases h⟩
        cases h
        exact readRom_loadsWell hrom
      · have hsize : rom.bytes.length ≤ maxProgramSize := length_of_readRom hrom
        simp only [begin, hfound, hsettle, hrom]
        split
        · exact ⟨fun cause h => (by cases h), fun session s h => (by cases h)⟩
        · refine ⟨fun cause h => prepare_loadsWell hsize h, fun session s h => ?_⟩
          rcases hprepare : prepare settings rom found.computer found.random with ⟨rest, prepared⟩
          rw [hprepare] at h
          have hprepared : prepared = .ok (session, s) := h
          rw [hprepared] at hprepare
          obtain ⟨-, -, -, hsame, -⟩ := prepare_inv hprepare
          rwa [hsame]

/-- **No session fails with loading its program**, neither at the beginning nor after a restart. -/
theorem run_loads (options : Options) (found : Surroundings) (rounds : List Round) {cause : SessionFault}
    (h : (run options found rounds).2 = .failed cause) : ¬cause.OfLoading := by
  have hbegin := begin_loadsWell options found
  unfold run at h
  rcases hfirst : begin options found with ⟨sent, ending | ⟨session, s⟩⟩
  · rw [hfirst] at h hbegin
    exact hbegin.1 cause (congrArg Except.error h)
  · rw [hfirst] at h hbegin
    have hhalt := rounds_loadsWell (s := s) (hbegin.2 session s rfl) rounds
    unfold loop finish at h
    dsimp only at h
    cases hresult : (session.rounds rounds s).result with
    | ok _ =>
      rw [hresult] at h
      cases h
    | error halt =>
      rw [hresult] at h
      exact hhalt cause (hresult.trans (congrArg Except.error (halt_of_farewell h)))

end Session

/-- **What is accepted as a program is loaded.**  An image is accepted exactly if it has one byte or more and
fits into memory, and is kept as it is.  An emulator without a program takes every program that fits: its
bytes are in their place then, the program counter is in front of them, and all else is as before.  A longer
one is refused and changes nothing.  So a restart always goes well in a session with a program that fits, and
no session ends with a fault that comes of loading. -/
theorem accepted_programs_load :
    (∀ b, ((∃ rom, Rom.ofImage (.bytes b) = .ok rom) ↔ 1 ≤ b.length ∧ b.length ≤ 3584) ∧
        ∀ rom, Rom.ofImage (.bytes b) = .ok rom → rom.bytes = b) ∧
      (∀ e : Emulator, e.loaded = false → ∀ b : List UInt8,
        (b.length ≤ 3584 →
          (e.load b).result = .ok (.ok b.length) ∧ Loads b e (e.load b).emulator) ∧
        (3584 < b.length →
          (e.load b).result = .ok (.error ⟨b.length⟩) ∧ (e.load b).emulator = e)) ∧
      (∀ (session : Session) (s : Stage), session.rom.bytes.length ≤ 3584 →
        (session.handle (.keyDown KeyName.restart) s).result = .ok ()) ∧
      ∀ (options : Options) (found : Surroundings) (rounds : List Round),
        (∀ cause, (Session.run options found rounds).2 ≠ .failed (.load cause)) ∧
          (Session.run options found rounds).2 ≠ .failed (.emulator .alreadyLoaded) := by
  refine ⟨fun b => ⟨Rom.exists_ofBytes_iff, fun rom h => congrArg Rom.bytes (Rom.eq_of_ofBytes h)⟩,
    fun e hunloaded b => load_cases hunloaded b, fun session s hsize => Session.restart_eq_ok hsize, ?_⟩
  intro options found rounds
  have hends {cause : SessionFault} (hcause : cause.OfLoading) :
      (Session.run options found rounds).2 ≠ .failed cause :=
    fun h => Session.run_loads options found rounds h hcause
  exact ⟨fun cause => hends trivial, hends trivial⟩

/-- The longest program fills memory to its end, also after a reset, and with one byte more nothing is
loaded. -/
theorem accepted_programs_load_of_longest :
    let e := (new (.cycle #[]) true).after [.load [0x12, 0x00], .cycle (.integer 0), .reset]
    let b := List.replicate 3584 (0xAB : UInt8)
    e.loaded = false ∧ b.length ≤ 3584 ∧ (e.load b).result = .ok (.ok 3584) ∧
      (e.load b).emulator.machine.byteAt 4095 = 0xAB ∧
      3584 < (0 :: b).length ∧ (e.load (0 :: b)).emulator = e := by
  intro e b
  have hunloaded : e.loaded = false := by decide +kernel
  have hlength : b.length = 3584 := List.length_replicate
  obtain ⟨-, hloads, -⟩ := accepted_programs_load
  obtain ⟨hresult, hplace⟩ := (hloads e hunloaded b).1 (by omega)
  have hlast := hplace.bytes 3583 (by omega)
  have hlonger : 3584 < (0 :: b).length := by
    rw [List.length_cons]
    omega
  refine ⟨hunloaded, by omega, by rw [hresult, hlength], ?_, hlonger, ((hloads e hunloaded _).2 hlonger).2⟩
  rw [hlast]
  exact List.getElem_replicate _

end ChipEight
