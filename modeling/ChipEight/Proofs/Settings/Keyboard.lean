import ChipEight.Keypad
import ChipEight.Proofs.Settings.Acceptance
import ChipEight.Proofs.Text.IntegerForm

/-!
# Accepted keyboards

A keyboard is accepted if every key of the machine is one hexadecimal digit and every key has a name.  Such a
digit is what a keypad reads as an integer (`exists_of_isMachineKey`), so a keypad can be made of every
accepted keyboard.  Not every name need be known, and two names may be those of one key, and two digits the
same key of the machine.  Of the bindings whose names have the code of a key, the last holds
(`Keypad.key?_addBindings`).
-/

namespace ChipEight

open Text (digitValue? Hexadecimal asciiDigit)
open Text.IntegerLiteral (parse? parse?_ofList read? digits? digits?_hexadecimal allHexadecimal_singleton)
open Toml (Table Value)

namespace Settings

variable {t entries : Table} {keyboard : List (String × String)} {settings : Settings} {name : String}

/-- A key of the machine is one digit, and is read as its value. -/
theorem exists_of_isMachineKey (h : isMachineKey name = true) :
    ∃ c value, name.toList = [c] ∧ digitValue? c = some value ∧ value < 16 ∧
      parse? 16 name = some (value : Int) := by
  unfold isMachineKey at h
  split at h
  next c hname =>
    simp only [Bool.and_eq_true, Option.any_eq_true, decide_eq_true_eq] at h
    obtain ⟨-, value, hvalue, hlt⟩ := h
    refine ⟨c, value, hname, hvalue, hlt, ?_⟩
    have hdigit : Hexadecimal (asciiDigit c) value := Hexadecimal.asciiDigit_iff.mpr ⟨hvalue, hlt⟩
    have hread : read? [asciiDigit c] = some (value : Int) := by
      rw [(allHexadecimal_singleton hdigit).read?_eq, digits?_hexadecimal hdigit]
      simp [digits?]
    rw [← String.ofList_toList (s := name), hname, parse?_ofList]
    exact hread
  next => cases h

/-- An accepted binding is one of a key of the machine to a name. -/
theorem binding_eq_ok {entry : String × Value} {b : String × String} (h : binding entry = .ok b) :
    entry = (b.1, .text b.2) ∧ isMachineKey b.1 = true := by
  obtain ⟨machineKey, v⟩ := entry
  unfold binding at h
  dsimp only at h
  split at h
  · cases h
  next hkey =>
    split at h
    · split at h <;> cases h
      exact ⟨rfl, by simpa using hkey⟩
    · cases h

/-- An accepted keyboard has the entries of its table, in their order. -/
theorem keyboard_eq (h : entries.mapM binding = .ok keyboard) :
    entries = keyboard.map (fun b => (b.1, .text b.2)) ∧ ∀ b ∈ keyboard, isMachineKey b.1 = true := by
  induction entries generalizing keyboard with
  | nil =>
    cases h
    exact ⟨rfl, nofun⟩
  | cons entry entries ih =>
    simp only [List.mapM_cons, bind_eq_ok] at h
    obtain ⟨b, hb, rest, hrest, hkeyboard⟩ := h
    cases hkeyboard
    obtain ⟨hentry, hkey⟩ := binding_eq_ok hb
    obtain ⟨hentries, hkeys⟩ := ih hrest
    exact ⟨by rw [List.map_cons, ← hentry, ← hentries], List.forall_mem_cons.mpr ⟨hkey, hkeys⟩⟩

end Settings

namespace Keypad

variable {α : Type} {code? : String → Option Int} {code : Int} {bindings : List (String × String)}

/-- The last binding whose name has a code. -/
def lastBinding? (code? : String → Option Int) (code : Int) (bindings : List (String × String)) :
    Option (String × String) :=
  (bindings.filter fun b => code? b.2 = some code).getLast?

theorem lastBinding?_cons (b : String × String) :
    lastBinding? code? code (b :: bindings) =
      if code? b.2 = some code then some ((lastBinding? code? code bindings).getD b)
      else lastBinding? code? code bindings := by
  unfold lastBinding?
  rw [List.filter_cons]
  split
  next hcode => rw [if_pos (of_decide_eq_true hcode), List.getLast?_cons]
  next hcode => rw [if_neg (by simpa using hcode)]

theorem mem_of_lastBinding? {b : String × String} (h : lastBinding? code? code bindings = some b) :
    b ∈ bindings ∧ code? b.2 = some code := by
  simpa using List.mem_filter.mp (List.mem_of_getLast? h)

/-- Of two bindings of a code the later holds. -/
theorem key?_bind (keypad : Keypad) (named key : Int) :
    (keypad.bind named key).key? code = if named = code then some key else keypad.key? code := by
  unfold key? bind
  rw [List.find?_cons]
  by_cases h : named = code <;> simp [h]

/-- **A keypad can be made of all bindings to machine keys**, and the last of a code holds. -/
theorem key?_addBindings (α : Type) (code? : String → Option Int)
    (hkeys : ∀ b ∈ bindings, Settings.isMachineKey b.1 = true) (keypad : Keypad) :
    ∃ warnings made, (addBindings code? keypad bindings : List (Log.Record α) × Except String Keypad) =
        (warnings, .ok made) ∧
      ∀ code, made.key? code = ((lastBinding? code? code bindings).bind fun b => parse? 16 b.1).or
        (keypad.key? code) := by
  induction bindings generalizing keypad with
  | nil => exact ⟨[], keypad, rfl, fun code => rfl⟩
  | cons b bindings ih =>
    obtain ⟨machineKey, name⟩ := b
    obtain ⟨hkey, hkeys⟩ := List.forall_mem_cons.mp hkeys
    obtain ⟨-, value, -, -, -, hvalue⟩ := Settings.exists_of_isMachineKey hkey
    unfold addBindings
    cases hname : code? name with
    | none =>
      obtain ⟨warnings, made, hmade, hholds⟩ := ih hkeys keypad
      refine ⟨unknownName machineKey name :: warnings, made, by simp only [hmade], fun code => ?_⟩
      rw [hholds, lastBinding?_cons, if_neg (by simp [hname])]
    | some named =>
      obtain ⟨warnings, made, hmade, hholds⟩ := ih hkeys (keypad.bind named value)
      refine ⟨warnings, made, by simp only [hvalue, hmade], fun code => ?_⟩
      rw [hholds, lastBinding?_cons, key?_bind]
      by_cases hcode : named = code
      · rw [if_pos hcode, if_pos (by rw [hname, hcode])]
        cases hlast : lastBinding? code? code bindings with
        | none => simp [show parse? 16 machineKey = some (value : Int) from hvalue]
        | some later =>
          obtain ⟨-, value, -, -, -, hlater⟩ :=
            Settings.exists_of_isMachineKey (hkeys later (mem_of_lastBinding? hlast).1)
          simp [hlater]
      · rw [if_neg hcode, if_neg (by simpa [hname] using hcode)]

/-- **The keypad of an accepted keyboard.**  A code stands for the value of the digit in the last binding whose
name has it, which is a key of the machine, and for nothing if there is no such binding. -/
theorem key?_ofBindings (α : Type) (code? : String → Option Int)
    (hkeys : ∀ b ∈ bindings, Settings.isMachineKey b.1 = true) :
    ∃ warnings made, (ofBindings code? bindings : List (Log.Record α) × Except String Keypad) =
        (warnings, .ok made) ∧
      ∀ code,
        (∀ b, lastBinding? code? code bindings = some b →
          ∃ c value, b.1.toList = [c] ∧ digitValue? c = some value ∧ value < 16 ∧
            made.key? code = some (value : Int)) ∧
        (lastBinding? code? code bindings = none → made.key? code = none) := by
  obtain ⟨warnings, made, hmade, hholds⟩ := key?_addBindings α code? hkeys {}
  refine ⟨warnings, made, hmade, fun code => ⟨fun b hlast => ?_, fun hnone => ?_⟩⟩
  · obtain ⟨c, value, hdigit, hvalue, hlt, hparse⟩ :=
      Settings.exists_of_isMachineKey (hkeys b (mem_of_lastBinding? hlast).1)
    refine ⟨c, value, hdigit, hvalue, hlt, ?_⟩
    rw [hholds, hlast, Option.bind_some, hparse]
    rfl
  · rw [hholds, hnone]
    rfl

end Keypad

end ChipEight
