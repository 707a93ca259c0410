import ChipEight.Proofs.Machine.Footprint
import ChipEight.Proofs.Machine.Refusal

/-!
# Which instructions look at the keypad

Only the two skips on a key look at the keypad, and each of them looks at one key: `looksAt?`.  So a
key can go up or down before any other instruction or after it, and the outcome is the same but for
that key (`exec_setKey`).  It makes no difference to the clock and to the fetch either.
-/

namespace ChipEight

open Outcome

/-- The machine with a key up or down. -/
def Machine.setKey (key : Int) (down : Bool) (m : Machine) : Machine :=
  { m with keys := m.keys.setIfInBounds key.toNat down }

/-- The key that an instruction looks at, if it looks at one. -/
def Instruction.looksAt? (m : Machine) : Instruction Register → Option Int
  | skipIfKey x | skipUnlessKey x => some (m.value x)
  | _ => none

namespace Outcome

variable {α : Type}

/-- An outcome with a change to the machine afterwards. -/
def map (change : Machine → Machine) : Outcome → Outcome
  | done m => done (change m)
  | stopped m f => stopped (change m) f

theorem map_attempt (change : Machine → Machine) (m : Machine) (r : Except Fault α)
    (next : α → Outcome) :
    (attempt m r next).map change = attempt (change m) r fun a => (next a).map change := by
  cases r <;> rfl

theorem map_attemptCell (change : Machine → Machine) (m : Machine) (r : Except CellFault α)
    (next : α → Outcome) :
    (attemptCell m r next).map change = attemptCell (change m) r fun a => (next a).map change :=
  map_attempt change m _ next

end Outcome

namespace Machine

variable {m : Machine} {key : Int} {down : Bool}

theorem ticks_setKey (n : Nat) (m : Machine) :
    (m.setKey key down).ticks n = (m.ticks n).setKey key down := by
  induction n generalizing m with
  | zero => rfl
  | succ n ih => exact ih m.tick

theorem skipIf_setKey (condition : Bool) (m : Machine) :
    (m.setKey key down).skipIf condition = (m.skipIf condition).setKey key down := by
  cases condition <;> rfl

/-- Other keys are as they were. -/
theorem key?_setKey (hkey : 0 ≤ key) {x : Register} (h : m.value x ≠ key) :
    (m.setKey key down).key? x = m.key? x := by
  have hother : key.toNat ≠ (m.register x).toNat := by
    unfold value at h
    omega
  have hcell : (m.setKey key down).keys[(m.register x).toNat]? = m.keys[(m.register x).toNat]? :=
    Vector.getElem?_setIfInBounds_ne hother
  have hregister : (m.setKey key down).register x = m.register x := rfl
  have hvalue : (m.setKey key down).value x = m.value x := rfl
  rw [key?, key?, hregister, hvalue, hcell]

/-- **An instruction that does not look at a key does not depend on it**, and leaves it alone. -/
theorem exec_setKey (hkey : 0 ≤ key) {i : Instruction Register} (h : i.looksAt? m ≠ some key)
    (byte : UInt8) :
    i.exec byte (m.setKey key down) = (i.exec byte m).map (setKey key down) := by
  cases i with
  | skipIfKey x | skipUnlessKey x =>
    have hx : m.value x ≠ key := by simpa [Instruction.looksAt?] using h
    simp only [Instruction.exec, key?_setKey hkey hx, map_attempt, skipIf_setKey]
    rfl
  | skipIfByte | skipUnlessByte | skipIfEqual | skipUnlessEqual =>
    exact congrArg done (skipIf_setKey _ _)
  | clear | system | jump | addByte | loadIndex | random | setDelay | setSound | addIndex => rfl
  | loadByte | readDelay =>
    simp only [Instruction.exec, map_attemptCell]
    rfl
  | loadGlyph =>
    simp only [Instruction.exec, map_attempt]
    rfl
  | alu op x y => cases op <;> rfl
  | ret =>
    simp only [Instruction.exec, ret, apply_ite (Outcome.map (setKey key down)), map_attemptCell]
    rfl
  | call a =>
    simp only [Instruction.exec, call, apply_ite (Outcome.map (setKey key down)), map_attemptCell]
    rfl
  | jumpPlus a =>
    simp only [Instruction.exec, jumpPlus, apply_ite (Outcome.map (setKey key down))]
    rfl
  | draw x y height =>
    simp only [Instruction.exec, drawSprite, apply_ite (Outcome.map (setKey key down))]
    rfl
  | waitKey x =>
    have hpending : (m.setKey key down).pendingKey = m.pendingKey := rfl
    simp only [Instruction.exec, waitKey, hpending]
    cases m.pendingKey with
    | none => rfl
    | some pending =>
      simp only [map_attemptCell]
      rfl
  | storeDecimal x =>
    simp only [Instruction.exec, storeDecimal, apply_ite (Outcome.map (setKey key down))]
    rfl
  | saveRegisters x =>
    simp only [Instruction.exec, saveRegisters, apply_ite (Outcome.map (setKey key down))]
    rfl
  | restoreRegisters x =>
    simp only [Instruction.exec, restoreRegisters, apply_ite (Outcome.map (setKey key down))]
    rfl

/-- Nor does the execution of a word. -/
theorem runWord_setKey (hkey : 0 ≤ key) {w : Int}
    (h : ∀ i, Instruction.ofWord? w = some i → i.looksAt? m ≠ some key) (source : RandomSource) :
    (m.setKey key down).runWord w source =
      ((m.runWord w source).1.map (setKey key down), (m.runWord w source).2) := by
  cases hword : Instruction.ofWord? w with
  | none =>
    rw [runWord_of_none hword, runWord_of_none hword]
    rfl
  | some i =>
    rw [runWord_of_some hword, runWord_of_some hword, Instruction.run, Instruction.run,
      exec_setKey hkey (h i hword)]

/-- A fetch reads memory only. -/
theorem fetch_setKey (hlow : 0 ≤ m.counter) :
    (m.setKey key down).fetch =
      m.fetch.map fun fetched => (fetched.1, fetched.2.setKey key down) := by
  have hlow' : 0 ≤ (m.setKey key down).counter := hlow
  rw [fetch_eq hlow, fetch_eq hlow']
  by_cases hend : m.counter + 1 < 4096
  · rw [if_pos hend]
    exact if_pos hend
  · rw [if_neg hend]
    exact if_neg hend

/-- An instruction that looks at a key of the keypad is not refused. -/
theorem refusal_of_looksAt? {i : Instruction Register} (h : i.looksAt? m = some key)
    (hkey : key < 16) : i.refusal m = none := by
  cases i with
  | skipIfKey x | skipUnlessKey x =>
    have hx : m.value x = key := by simpa [Instruction.looksAt?] using h
    exact if_neg (by omega)
  | _ => cases h

/-- Which key an instruction looks at is a matter of the registers. -/
theorem looksAt?_of_same {n : Machine} (h : Part.registers.Same m n) (i : Instruction Register) :
    i.looksAt? n = i.looksAt? m := by
  cases i <;> simp only [Instruction.looksAt?, value_of_same h]

end Machine

end ChipEight
