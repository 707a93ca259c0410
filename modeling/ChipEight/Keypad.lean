import ChipEight.Emulator.Basic
import ChipEight.Text.IntegerLiteral

/-!
# The keypad

The sixteen keys of the machine stand under keys of a keyboard. A binding whose key has no such name
is left out, with a warning; of two bindings of one key the later holds.

* `Keypad.ofBindings` makes a keypad, for any way to look up the names of keys;
* `Keypad.handle` hands the events of bound keys on to the emulator.
-/

namespace ChipEight

/-- What comes from the user. -/
inductive InputEvent where
  | keyDown (code : Int)
  | keyUp (code : Int)
  /-- The window is to be closed. -/
  | quit
  | other
  deriving DecidableEq, Repr

/-- The keys of the machine by the codes of the keys that stand for them, the last binding first. -/
structure Keypad where
  bindings : List (Int × Int) := []
  deriving DecidableEq, Repr

namespace Keypad

/-- The key of the machine that a code stands for. -/
def key? (keypad : Keypad) (code : Int) : Option Int :=
  (keypad.bindings.find? (·.1 = code)).map (·.2)

/-- The keypad with one more binding. -/
def bind (keypad : Keypad) (code key : Int) : Keypad :=
  ⟨(code, key) :: keypad.bindings⟩

/-- The warning about a binding that is left out. -/
def unknownName {α : Type} (machineKey name : String) : Log.Record α :=
  .warning ("Unknown key name " ++ Text.quote name ++ " for CHIP-8 key " ++ machineKey
    ++ ", ignored")

/-- Adds bindings to a keypad. The result comes with the warnings, also if it is a fault: a text
that is no hexadecimal integer where a key of the machine should stand. -/
def addBindings {α : Type} (code? : String → Option Int) (keypad : Keypad) :
    List (String × String) → List (Log.Record α) × Except String Keypad
  | [] => ([], .ok keypad)
  | (machineKey, name) :: rest =>
    match code? name with
    | none =>
      let (warnings, result) := addBindings code? keypad rest
      (unknownName machineKey name :: warnings, result)
    | some code =>
      match Text.IntegerLiteral.parse? 16 machineKey with
      | none => ([], .error machineKey)
      | some key => addBindings code? (keypad.bind code key) rest

/-- The keypad of some bindings, with the warnings about them. -/
def ofBindings {α : Type} (code? : String → Option Int) (bindings : List (String × String)) :
    List (Log.Record α) × Except String Keypad :=
  addBindings code? {} bindings

/-- Hands an event on to the emulator if it is one of a bound key, and says whether it is. -/
def handle (keypad : Keypad) (event : InputEvent) (e : Emulator) : Report Bool :=
  match event with
  | .keyDown code =>
    match keypad.key? code with
    | some key => (e.keyDown key).andThen fun e _ => .pure e true
    | none => .pure e false
  | .keyUp code =>
    match keypad.key? code with
    | some key => (e.keyUp key).andThen fun e _ => .pure e true
    | none => .pure e false
  | _ => .pure e false

end Keypad

end ChipEight
