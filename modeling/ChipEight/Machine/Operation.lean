import ChipEight.Machine.Execution

/-!
# Operating the machine directly

An instruction that is given to the machine directly, and not as a word, may name its registers by
any numbers. They are found as the cells of a row are: a number below zero counts from the end, and
one that no register answers to is a fault.

**The order of access.** A register is looked for at the moment when it is read or written, so a
fault shows what was done before it: a random byte has been drawn, a pending key has been taken, and
the bounds of memory have been checked. Of two registers, those that are read come first.

**Rows of registers.** Where registers are saved or restored, the number is a bound, and bounds are
never refused. Beyond the sixteen registers nothing can be copied; if the two rows are both empty
the instruction still moves the address register.

* `Instruction.locate` finds the registers of an instruction in their order;
* `Instruction.effect` is the effect of an instruction, and `Instruction.operate` executes it
  against a source of random bytes;
* `effect_map_val` says that an instruction has the same effect directly as it has from a word.
-/

namespace ChipEight

/-- The register that a number means. -/
def Register.ofInt? (k : Int) : Except CellFault Register :=
  Cells.index? 16 k

/-- A register is meant by its own number. -/
theorem Register.ofInt?_val (x : Register) : Register.ofInt? x.val = .ok x := by
  have h : (x.val : Int) < 16 := by omega
  simp [Register.ofInt?, Cells.index?, show ¬((x.val : Int) < 0) by omega, h]

/-- Whether the operation also reads the register that it writes. -/
def Alu.readsTarget : Alu → Bool
  | move | shiftRight | shiftLeft => false
  | _ => true

namespace Instruction

variable {ρ σ ε : Type}

/-- The instruction with other names for its registers. -/
def map (f : ρ → σ) : Instruction ρ → Instruction σ
  | clear => clear
  | ret => ret
  | system a => system a
  | jump a => jump a
  | call a => call a
  | skipIfByte x b => skipIfByte (f x) b
  | skipUnlessByte x b => skipUnlessByte (f x) b
  | skipIfEqual x y => skipIfEqual (f x) (f y)
  | skipUnlessEqual x y => skipUnlessEqual (f x) (f y)
  | loadByte x b => loadByte (f x) b
  | addByte x b => addByte (f x) b
  | alu op x y => alu op (f x) (f y)
  | loadIndex a => loadIndex a
  | jumpPlus a => jumpPlus a
  | random x mask => random (f x) mask
  | draw x y height => draw (f x) (f y) height
  | skipIfKey x => skipIfKey (f x)
  | skipUnlessKey x => skipUnlessKey (f x)
  | readDelay x => readDelay (f x)
  | waitKey x => waitKey (f x)
  | setDelay x => setDelay (f x)
  | setSound x => setSound (f x)
  | addIndex x => addIndex (f x)
  | loadGlyph x => loadGlyph (f x)
  | storeDecimal x => storeDecimal (f x)
  | saveRegisters x => saveRegisters (f x)
  | restoreRegisters x => restoreRegisters (f x)

/-- Two registers that are found one after the other. -/
def locateBoth (find : ρ → Except ε σ) (make : σ → σ → Instruction σ) (first second : ρ) :
    Except ε (Instruction σ) :=
  (find first).bind fun x => (find second).map (make x)

/-- The instruction with its registers found, in the order in which they are read and written. -/
def locate (find : ρ → Except ε σ) : Instruction ρ → Except ε (Instruction σ)
  | clear => .ok clear
  | ret => .ok ret
  | system a => .ok (system a)
  | jump a => .ok (jump a)
  | call a => .ok (call a)
  | skipIfByte x b => (find x).map (skipIfByte · b)
  | skipUnlessByte x b => (find x).map (skipUnlessByte · b)
  | skipIfEqual x y => locateBoth find skipIfEqual x y
  | skipUnlessEqual x y => locateBoth find skipUnlessEqual x y
  | loadByte x b => (find x).map (loadByte · b)
  | addByte x b => (find x).map (addByte · b)
  | alu op x y =>
    if op.readsTarget then locateBoth find (alu op) x y
    else locateBoth find (fun y x => alu op x y) y x
  | loadIndex a => .ok (loadIndex a)
  | jumpPlus a => .ok (jumpPlus a)
  | random x mask => (find x).map (random · mask)
  | draw x y height => locateBoth find (draw · · height) x y
  | skipIfKey x => (find x).map skipIfKey
  | skipUnlessKey x => (find x).map skipUnlessKey
  | readDelay x => (find x).map readDelay
  | waitKey x => (find x).map waitKey
  | setDelay x => (find x).map setDelay
  | setSound x => (find x).map setSound
  | addIndex x => (find x).map addIndex
  | loadGlyph x => (find x).map loadGlyph
  | storeDecimal x => (find x).map storeDecimal
  | saveRegisters x => (find x).map saveRegisters
  | restoreRegisters x => (find x).map restoreRegisters

/-- If each register is found under its name, an instruction finds all its registers. -/
theorem locate_map (find : ρ → Except ε σ) (name : σ → ρ) (h : ∀ x, find (name x) = .ok x)
    (i : Instruction σ) : (i.map name).locate find = .ok i := by
  cases i <;> simp [map, locate, locateBoth, h, Except.map, Except.bind]

end Instruction

namespace Machine

open Outcome

/-- Takes the key that was pressed, or waits for one. Only a key that was taken needs its
register. -/
def waitKeyAt (x : Int) (m : Machine) : Outcome :=
  match m.pendingKey with
  | some _ => attemptCell m.takeKey (Register.ofInt? x) fun x => m.waitKey x
  | none => done m.awaitKey

/-- Stores the decimal digits of a register, which is looked for when there is room for them. -/
def storeDecimalAt (x : Int) (m : Machine) : Outcome :=
  if ¬InProgramMemory m.index 3 then stopped m (.memory (.range m.index 3))
  else attemptCell m (Register.ofInt? x) fun x => m.storeDecimal x

/-- Stores the registers up to a number, and moves the address register. -/
def saveThrough (last : Int) (m : Machine) : Outcome :=
  let stop := m.index + last + 1
  if ¬InProgramMemory m.index (last + 1) then stopped m (.memory (.range m.index (last + 1)))
  else
    attemptCell m (Cells.assign m.memory m.index stop (Cells.slice m.registers 0 (last + 1)))
      fun memory => done { m with memory, index := stop }

/-- Loads the registers up to a number, and moves the address register. -/
def restoreThrough (last : Int) (m : Machine) : Outcome :=
  let stop := m.index + last + 1
  if ¬InProgramMemory m.index last then stopped m (.memory (.range m.index last))
  else
    attemptCell m (Cells.assign m.registers 0 (last + 1) (Cells.slice m.memory m.index stop))
      fun registers => done { m with registers, index := stop }

/-- A register is given the key that it is given by an instruction word. -/
theorem waitKeyAt_val (x : Register) (m : Machine) : m.waitKeyAt x.val = m.waitKey x := by
  rw [waitKeyAt, Register.ofInt?_val, attemptCell_ok]
  cases h : m.pendingKey
  · simp only [waitKey, h]
  · rfl

/-- The digits of a register are stored as an instruction word stores them. -/
theorem storeDecimalAt_val (x : Register) (m : Machine) :
    m.storeDecimalAt x.val = m.storeDecimal x := by
  rw [storeDecimalAt, Register.ofInt?_val, attemptCell_ok]
  unfold storeDecimal
  split <;> rfl

/-- Up to a register, the registers are stored as an instruction word stores them. -/
theorem saveThrough_val (x : Register) (m : Machine) :
    m.saveThrough x.val = m.saveRegisters x := by
  have hcount : (x.val : Int) + 1 = (x.val + 1 : Nat) := rfl
  have hstop : m.index + x.val + 1 = m.index + (x.val + 1 : Nat) := by omega
  unfold saveThrough saveRegisters
  simp only [hcount, hstop]
  split
  · rfl
  next h =>
    obtain ⟨low, high⟩ := Decidable.not_not.mp h
    obtain ⟨start, hstart⟩ : ∃ start : Nat, m.index = start :=
      ⟨m.index.toNat, by simp only [programStart] at low; omega⟩
    simp only [memorySize, hstart] at high
    rw [hstart, ← Int.natCast_add, Cells.slice_zero _ _ x.isLt,
      Cells.assign_of_length _ _ _ _ (by omega)
        (by rw [List.length_take, Vector.length_toList]; omega)]
    rfl

/-- Up to a register, the registers are loaded as an instruction word loads them. -/
theorem restoreThrough_val (x : Register) (m : Machine) :
    m.restoreThrough x.val = m.restoreRegisters x := by
  have hstop : m.index + x.val + 1 = m.index + (x.val + 1 : Nat) := by omega
  unfold restoreThrough restoreRegisters
  simp only [hstop]
  split
  · rfl
  next h =>
    obtain ⟨low, high⟩ := Decidable.not_not.mp h
    obtain ⟨start, hstart⟩ : ∃ start : Nat, m.index = start :=
      ⟨m.index.toNat, by simp only [programStart] at low; omega⟩
    simp only [memorySize, hstart] at high
    have hassign := Cells.assign_of_length m.registers 0 (x.val + 1) _ (by omega)
      (Cells.length_slice m.memory start (x.val + 1) (by omega))
    rw [Nat.zero_add] at hassign
    rw [hstart, ← Int.natCast_add]
    exact congrArg (attemptCell m · _) hassign

end Machine

namespace Instruction

open Outcome Machine

/-- The effect of an instruction that names registers by numbers. The byte is the next of the random
source. -/
def effect (byte : UInt8) (m : Machine) : Instruction Int → Outcome
  | waitKey x => m.waitKeyAt x
  | storeDecimal x => m.storeDecimalAt x
  | saveRegisters last => m.saveThrough last
  | restoreRegisters last => m.restoreThrough last
  | i => attemptCell m (i.locate Register.ofInt?) fun i => i.exec byte m

/-- An instruction has the same effect whether it names registers or gives their numbers. -/
theorem effect_map_val (byte : UInt8) (m : Machine) (i : Instruction Register) :
    effect byte m (i.map fun x => (x.val : Int)) = i.exec byte m := by
  have h := locate_map Register.ofInt? (fun x => (x.val : Int)) Register.ofInt?_val i
  cases i <;>
    simp_all only [map, effect, exec, attemptCell_ok, waitKeyAt_val, storeDecimalAt_val,
      saveThrough_val, restoreThrough_val]

/-- The effect of an instruction that draws from a source of random bytes. -/
def operate (i : Instruction Int) (source : RandomSource) (m : Machine) : Outcome × RandomSource :=
  (i.effect source.next m, if i.drawsRandom then source.advance else source)

end Instruction

end ChipEight
