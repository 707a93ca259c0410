import ChipEight.Computer.Usual
import ChipEight.Proofs.Emulator.MachineStep
import ChipEight.Proofs.Settings.Keyboard

/-!
# Keys of a keyboard on the keypad

A keypad that is made of an accepted keyboard knows no keys but those of the machine, so what it hands on is
never refused (`Keypad.handle_of_bound`).  Several keys of the keyboard may stand for one key of the machine.
The machine does not know them apart: its key is down if the last that any of them did was to go down
(`Keypad.keys_after`).  Cycles that come in between make no difference, since no instruction moves a key.
-/

namespace ChipEight

open Emulator Machine

/-- The key of the keyboard that an event is about. -/
def InputEvent.code? : InputEvent → Option Int
  | keyDown code | keyUp code => some code
  | quit | other => none

/-- Whether that key goes down. -/
def InputEvent.isDown : InputEvent → Bool
  | keyDown _ => true
  | keyUp _ | quit | other => false

/-- What happens to an emulator with a keypad: an event is handled, or time passes. -/
inductive Happening where
  | input (event : InputEvent)
  | cycle (delta : Number)

/-- No instruction moves a key. -/
theorem Instruction.keys_notMem_touched (i : Instruction Register) : Part.keys ∉ i.touched := by
  cases i <;> simp [touched]

/-- No cycle moves a key. -/
theorem Emulator.keys_cycle {e : Emulator} (h : e.Sound) (delta : Number) :
    (e.cycle delta).emulator.machine.keys = e.machine.keys := by
  have hticked (ticks : Nat) : Part.keys.Same e.machine (e.machine.ticked ticks) :=
    same_ticked ticks e.machine (by decide)
  cases machine_step h delta with
  | idle ticks _ hafter =>
    rw [hafter]
    exact same_ticks (p := .keys) ticks e.machine (by decide)
  | refused ticks _ _ _ _ hafter =>
    rw [hafter]
    exact hticked ticks
  | executed ticks i _ _ _ _ hexec =>
    have hsame := Instruction.exec_same (m := e.machine.ticked ticks) e.random.next
      (Instruction.keys_notMem_touched i)
    rw [hexec] at hsame
    exact (hticked ticks).trans hsame

namespace Keypad

variable {keypad : Keypad} {event : InputEvent} {key : Int} {e : Emulator}

/-- Every key that a keypad knows is one of the machine. -/
def Proper (keypad : Keypad) : Prop :=
  ∀ code key, keypad.key? code = some key → 0 ≤ key ∧ key < 16

/-- The key of the machine that an event is about, if the key of the keyboard is bound. -/
def target? (keypad : Keypad) (event : InputEvent) : Option Int :=
  event.code?.bind keypad.key?

/-- What an event makes of a key of the machine, if it is about that key. -/
def stroke? (keypad : Keypad) (key : Int) : Happening → Option Bool
  | .input event => if keypad.target? event = some key then some event.isDown else none
  | .cycle _ => none

/-- An event that is not one of a bound key is not handed on. -/
theorem handle_of_unbound (h : keypad.target? event = none) (e : Emulator) :
    keypad.handle event e = .pure e false := by
  cases event with
  | keyDown code | keyUp code =>
    have hnone : keypad.key? code = none := h
    simp only [handle, hnone]
  | quit | other => rfl

/-- An event of a bound key is, as a call that moves a key of the machine. -/
theorem handle_of_bound (hproper : keypad.Proper) (h : keypad.target? event = some key) (e : Emulator) :
    (keypad.handle event e).result = .ok true ∧
      (keypad.handle event e).emulator =
        (if event.isDown then Call.keyDown key else Call.keyUp key).next e := by
  cases event with
  | keyDown code =>
    have hkey : keypad.key? code = some key := h
    have hrange : 0 ≤ key ∧ key < (keyCount : Int) := hproper code key hkey
    have hpressed : (e.keyDown key).result = .ok () := by
      unfold keyDown
      rw [if_pos hrange]
      dsimp only
      split <;> rfl
    simp only [handle, hkey, Report.andThen_of_ok hpressed]
    exact ⟨rfl, rfl⟩
  | keyUp code =>
    have hkey : keypad.key? code = some key := h
    have hrange : 0 ≤ key ∧ key < (keyCount : Int) := hproper code key hkey
    have hreleased : (e.keyUp key).result = .ok () := by
      unfold keyUp
      rw [if_pos hrange]
      rfl
    simp only [handle, hkey, Report.andThen_of_ok hreleased]
    exact ⟨rfl, rfl⟩
  | quit | other => cases h

theorem range_of_target? (hproper : keypad.Proper) (h : keypad.target? event = some key) :
    0 ≤ key ∧ key < 16 := by
  obtain ⟨code, -, hkey⟩ := Option.bind_eq_some_iff.mp h
  exact hproper code key hkey

/-! ### Runs -/

/-- The emulator after something has happened. -/
def next (keypad : Keypad) : Happening → Emulator → Emulator
  | .input event, e => (keypad.handle event e).emulator
  | .cycle delta, e => (e.cycle delta).emulator

/-- The emulator after all of it. -/
def after (keypad : Keypad) (happenings : List Happening) (e : Emulator) : Emulator :=
  happenings.foldl (fun e h => keypad.next h e) e

theorem sound_next (hproper : keypad.Proper) (hsound : e.Sound) (h : Happening) : (keypad.next h e).Sound := by
  cases h with
  | cycle delta => exact hsound.cycle delta
  | input event =>
    unfold next
    dsimp only
    cases hkey : keypad.target? event with
    | none =>
      rw [handle_of_unbound hkey]
      exact hsound
    | some key =>
      rw [(handle_of_bound hproper hkey e).2]
      exact hsound.next _

/-- A call that moves a key moves no other. -/
theorem keys_ite (hrange : 0 ≤ key ∧ key < 16) (down : Bool) (e : Emulator) :
    ((if down then Call.keyDown key else Call.keyUp key).next e).machine.keys =
      e.machine.keys.setIfInBounds key.toNat down := by
  cases down with
  | false =>
    rw [if_neg (by decide), Call.next_keyUp, if_pos hrange]
    rfl
  | true =>
    rw [if_pos rfl, Call.next_keyDown, if_pos hrange]
    unfold press
    split <;> rfl

/-- Setting one key leaves the others. -/
theorem get_setIfInBounds (keys : Vector Bool 16) (i : Nat) (down : Bool) (k : Fin 16) :
    (keys.setIfInBounds i down).get k = if i = k.val then down else keys.get k :=
  Vector.getElem_setIfInBounds k.isLt

/-- **What happens moves a key exactly as it is meant to.** -/
theorem keys_next (hproper : keypad.Proper) (hsound : e.Sound) (h : Happening) (k : Fin 16) :
    (keypad.next h e).machine.keys.get k = (keypad.stroke? k.val h).getD (e.machine.keys.get k) := by
  cases h with
  | cycle delta => exact congrArg (·.get k) (keys_cycle hsound delta)
  | input event =>
    unfold next stroke?
    dsimp only
    cases hkey : keypad.target? event with
    | none =>
      rw [handle_of_unbound hkey]
      rfl
    | some key =>
      obtain ⟨hlow, hhigh⟩ := range_of_target? hproper hkey
      rw [(handle_of_bound hproper hkey e).2, keys_ite ⟨hlow, hhigh⟩, get_setIfInBounds]
      by_cases hsame : key = k.val
      · simp [hsame]
      · have hother : key.toNat ≠ k.val := by omega
        simp [hsame, hother]

/-- **A key is as the last stroke of it left it**, or as it was before there was any. -/
theorem keys_after (hproper : keypad.Proper) (hsound : e.Sound) (happenings : List Happening) (k : Fin 16) :
    (keypad.after happenings e).machine.keys.get k =
      ((happenings.filterMap (keypad.stroke? k.val)).getLast?).getD (e.machine.keys.get k) := by
  induction happenings generalizing e with
  | nil => rfl
  | cons h happenings ih =>
    have hrest := ih (sound_next hproper hsound h)
    rw [keys_next hproper hsound] at hrest
    rw [after, List.foldl_cons]
    refine hrest.trans ?_
    cases hstroke : keypad.stroke? k.val h with
    | none => rw [List.filterMap_cons_none hstroke, Option.getD_none]
    | some down =>
      rw [List.filterMap_cons_some hstroke, List.getLast?_cons, Option.getD_some, Option.getD_some]

/-- A keypad on which every code stands for the digit of a binding, or for nothing, is one of keys of the
machine. -/
theorem proper_of_lastBinding {code? : String → Option Int} {bindings : List (String × String)}
    (h : ∀ code,
      (∀ b, lastBinding? code? code bindings = some b →
        ∃ c value, b.1.toList = [c] ∧ Text.digitValue? c = some value ∧ value < 16 ∧
          keypad.key? code = some (value : Int)) ∧
      (lastBinding? code? code bindings = none → keypad.key? code = none)) : keypad.Proper := by
  intro code key hkey
  cases hlast : lastBinding? code? code bindings with
  | none =>
    rw [(h code).2 hlast] at hkey
    cases hkey
  | some b =>
    obtain ⟨c, value, -, -, hlt, hvalue⟩ := (h code).1 b hlast
    rw [hvalue] at hkey
    cases hkey
    omega

/-- **An accepted keyboard on the keypad.**  Whatever codes the names of keys have, a keypad can be made of
every accepted keyboard.  The bindings are those of the table, in its order, and a code stands for the digit
of the last binding whose name has it, and so for a key of the machine, or for nothing.

After any run, let events be handled, with cycles in between.  Then an event is handed on exactly if its code
is bound, and never refused; any other changes nothing and sends nothing.  And a key of the machine is down
exactly if the last event that is about it made it so, or if there was none and it was down before. -/
theorem forwards_keys {α : Type} {t : Toml.Table} {settings : Settings}
    (h : Settings.ofTable t = .ok settings) (code? : String → Option Int) :
    t.get? "keyboard" = some (.table (settings.keyboard.map fun b => (b.1, .text b.2))) ∧
      ∃ warnings keypad,
        (ofBindings code? settings.keyboard : List (Log.Record α) × Except String Keypad) =
          (warnings, .ok keypad) ∧
        (∀ code,
          (∀ b, lastBinding? code? code settings.keyboard = some b →
            ∃ c value, b.1.toList = [c] ∧ Text.digitValue? c = some value ∧ value < 16 ∧
              keypad.key? code = some (value : Int)) ∧
          (lastBinding? code? code settings.keyboard = none → keypad.key? code = none)) ∧
        ∀ (random : RandomSource) (hasTone : Bool) (calls : List Call) (happenings : List Happening),
          let e := (new random hasTone).after calls
          let later := keypad.after happenings e
          (∀ event,
            (keypad.handle event later).result = .ok (event.code?.bind keypad.key?).isSome ∧
            (event.code?.bind keypad.key? = none → keypad.handle event later = .pure later false)) ∧
          ∀ k : Fin 16, later.machine.keys.get k =
            ((happenings.filterMap (keypad.stroke? k.val)).getLast?).getD (e.machine.keys.get k) := by
  obtain ⟨entries, hentries, hread⟩ := Settings.keyboard_of_ofTable h
  obtain ⟨rfl, hkeys⟩ := Settings.keyboard_eq hread
  obtain ⟨warnings, keypad, hmade, hholds⟩ := key?_ofBindings α code? hkeys
  have hproper := proper_of_lastBinding hholds
  refine ⟨hentries, warnings, keypad, hmade, hholds, fun random hasTone calls happenings => ?_⟩
  refine ⟨fun event => ⟨?_, fun hnone => handle_of_unbound hnone _⟩,
    keys_after hproper (sound_after random hasTone calls) happenings⟩
  cases hkey : event.code?.bind keypad.key? with
  | none =>
    rw [handle_of_unbound hkey]
    rfl
  | some key => exact (handle_of_bound hproper hkey _).1

/-- Two keys of the keyboard stand for the key `A`, one of them by a second binding in a small letter.  With
both down, the machine's key is up as soon as one of them goes up. -/
theorem forwards_keys_of_shared :
    let t := Settings.assign "keyboard" "a" (.text "x") Settings.defaults
    let e := (new (.cycle #[]) true).after [.load [0x12, 0x00]]
    let happenings : List Happening :=
      [.input (.keyDown 120), .input (.keyDown 122), .cycle (.integer 0), .input (.keyUp 120)]
    ∃ settings keypad, Settings.ofTable t = .ok settings ∧
      (ofBindings KeyName.code? settings.keyboard : List (Log.Record Unit) × _).2 = .ok keypad ∧
      keypad.key? 120 = some 10 ∧ keypad.key? 122 = some 10 ∧
      (keypad.after (happenings.take 3) e).machine.keys.get 10 = true ∧
      (keypad.after happenings e).machine.keys.get 10 = false := by
  intro t e happenings
  have haccepted : (Settings.ofTable t).map Settings.keyboard =
      .ok (Settings.defaultKeyboard ++ [("a", "x")]) := by decide +kernel
  obtain ⟨settings, hsettings, hkeyboard⟩ := ok_of_map_ok haccepted
  obtain ⟨-, warnings, keypad, hmade, hholds, hrun⟩ :=
    forwards_keys (α := Unit) hsettings KeyName.code?
  rw [hkeyboard] at hholds
  have hkey {code : Int} (b : String × String) (letter : Char)
      (hlast : lastBinding? KeyName.code? code (Settings.defaultKeyboard ++ [("a", "x")]) = some b)
      (hletter : b.1.toList = [letter]) (hvalue : Text.digitValue? letter = some 10) :
      keypad.key? code = some 10 := by
    obtain ⟨c, value, hc, hdigit, -, hkey⟩ := (hholds code).1 b hlast
    cases hletter.symm.trans hc
    cases hvalue.symm.trans hdigit
    exact hkey
  have hx : keypad.key? 120 = some 10 := hkey ("a", "x") 'a' (by decide +kernel) rfl (by decide)
  have hz : keypad.key? 122 = some 10 := hkey ("A", "z") 'A' (by decide +kernel) rfl (by decide)
  have hdown {code : Int} (h : keypad.key? code = some 10) :
      keypad.stroke? 10 (.input (.keyDown code)) = some true := if_pos h
  have hup {code : Int} (h : keypad.key? code = some 10) :
      keypad.stroke? 10 (.input (.keyUp code)) = some false := if_pos h
  have hcycle (delta : Number) : keypad.stroke? 10 (.cycle delta) = none := rfl
  have hkeys (happenings : List Happening) : (keypad.after happenings e).machine.keys.get 10 =
      ((happenings.filterMap (keypad.stroke? 10)).getLast?).getD (e.machine.keys.get 10) :=
    (hrun (.cycle #[]) true _ happenings).2 10
  refine ⟨settings, keypad, hsettings, congrArg Prod.snd hmade, hx, hz, ?_, ?_⟩
  · rw [hkeys]
    simp [happenings, hdown hx, hdown hz, hcycle]
  · rw [hkeys]
    simp [happenings, hup hx]

end Keypad

end ChipEight
