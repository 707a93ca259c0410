import ChipEight.Machine.State
import ChipEight.RandomSource

/-!
# Execution

What each instruction does to the machine. An instruction either completes or meets a fault; in
both cases there is a state afterwards, so a fault in the middle of an instruction would show what
had been done before it.

Every check stands in front of the first change, and has bounds of its own: a call target needs one
byte behind it, an indexed jump two, the three decimal digits three, and storing registers one
more than restoring them.

* `Instruction.exec` is the effect of one instruction, given the byte that a random draw would get;
* `Machine.runWord` reads a word and executes it against a source of random bytes.
-/

namespace ChipEight

/-- How an instruction ends: the state afterwards, and the fault if it met one. -/
inductive Outcome where
  | done (machine : Machine)
  | stopped (machine : Machine) (fault : Fault)
  deriving DecidableEq

namespace Outcome

/-- The state afterwards. -/
def machine : Outcome → Machine
  | done m => m
  | stopped m _ => m

/-- The fault, if there is one. -/
def fault? : Outcome → Option Fault
  | done _ => none
  | stopped _ f => some f

/-- Goes on with a value, or stops in the given state with its fault. -/
def attempt {α : Type} (m : Machine) (r : Except Fault α) (next : α → Outcome) : Outcome :=
  match r with
  | .ok a => next a
  | .error f => stopped m f

/-- Goes on with the content of a cell, or stops with the fault of reaching it. -/
def attemptCell {α : Type} (m : Machine) (r : Except CellFault α) (next : α → Outcome) : Outcome :=
  attempt m (r.mapError .cell) next

/-- A cell that is reached stops nothing. -/
theorem attemptCell_ok {α : Type} (m : Machine) (a : α) (next : α → Outcome) :
    attemptCell m (.ok a) next = next a := rfl

end Outcome

namespace Machine

open Outcome

/-- Returns to the address on top of the stack. -/
def ret (m : Machine) : Outcome :=
  if m.stackPointer = 0 then stopped m (.flow .emptyStack)
  else
    let popped := { m with stackPointer := m.stackPointer - 1 }
    attemptCell popped (Cells.read? m.stack popped.stackPointer) fun address =>
      done { popped with counter := address.toNat }

/-- Pushes the program counter and jumps. -/
def call (address : Int) (m : Machine) : Outcome :=
  if 16 < m.stackPointer + 1 then stopped m (.flow .stackOverflow)
  else if ¬InProgramMemory address 1 then stopped m (.flow (.target address 1))
  else
    attemptCell m (Cells.index? 16 m.stackPointer) fun top =>
    attemptCell m (Cells.pair? m.counter) fun here =>
      done { m with
        stack := m.stack.set top here
        stackPointer := m.stackPointer + 1
        counter := address }

/-- Jumps to an address plus the first register. -/
def jumpPlus (address : Int) (m : Machine) : Outcome :=
  let target := address + m.value offsetRegister
  if 0xFFFF < target then stopped m (.flow .beyondWord)
  else if ¬InProgramMemory target 2 then stopped m (.flow (.target target 2))
  else done { m with counter := target }

/-- An operation on two registers. The flag is written last, so it wins where the flag register is
also the target. Adding and subtracting flag the absence of a carry or borrow. -/
def alu (op : Alu) (x y : Register) (m : Machine) : Machine :=
  let vx := m.value x
  let vy := m.value y
  match op with
  | .move => m.setRegister x (m.register y)
  | .or => m.setRegister x (m.register x ||| m.register y)
  | .and => m.setRegister x (m.register x &&& m.register y)
  | .xor => m.setRegister x (m.register x ^^^ m.register y)
  | .add => (m.setLowByte x (vx + vy)).setRegister flagRegister (if 255 < vx + vy then 0 else 1)
  | .sub => (m.setLowByte x (vx - vy)).setRegister flagRegister (if vx < vy then 0 else 1)
  | .shiftRight => (m.setLowByte x (vy / 2)).setLowByte flagRegister (vy % 2)
  | .subFrom => (m.setLowByte x (vy - vx)).setRegister flagRegister (if vy < vx then 1 else 0)
  | .shiftLeft => (m.setLowByte x (vy * 2)).setLowByte flagRegister (vy / 128)

/-- Draws the bytes at the address register as a sprite. -/
def drawSprite (x y : Register) (height : Int) (m : Machine) : Outcome :=
  if memorySize < m.index + height then stopped m (.memory .sprite)
  else
    let sprite := Cells.slice m.memory m.index (m.index + height)
    let drawn := m.display.draw (m.register x).toNat sprite (m.register y).toNat
    done ({ m with display := drawn.1 }.setRegister flagRegister (if drawn.2 then 1 else 0))

/-- The key that a register names. -/
def key? (x : Register) (m : Machine) : Except Fault Bool :=
  match m.keys[(m.register x).toNat]? with
  | some down => .ok down
  | none => .error (.input (.key (m.value x)))

/-- The machine after the key that was pressed has been taken. -/
def takeKey (m : Machine) : Machine :=
  { m with pendingKey := none, waiting := false }

/-- The machine while it waits for a key: it stays on the instruction that it has just read. -/
def awaitKey (m : Machine) : Machine :=
  { m with waiting := true, counter := wrap (m.counter - 2) }

/-- Takes the key that was pressed, or waits for one. -/
def waitKey (x : Register) (m : Machine) : Outcome :=
  match m.pendingKey with
  | some key => attemptCell m.takeKey (Cells.byte? key) fun b => done (m.takeKey.setRegister x b)
  | none => done m.awaitKey

/-- Stores the decimal digits of a register at the address register. -/
def storeDecimal (x : Register) (m : Machine) : Outcome :=
  if ¬InProgramMemory m.index 3 then stopped m (.memory (.range m.index 3))
  else
    let (hundreds, tens, units) := decimalDigits (m.value x)
    done { m with
      memory := Cells.write m.memory m.index.toNat
        [UInt8.ofNat hundreds, UInt8.ofNat tens, UInt8.ofNat units] }

/-- Stores the registers up to one of them, and moves the address register behind them. -/
def saveRegisters (x : Register) (m : Machine) : Outcome :=
  let count : Nat := x.val + 1
  if ¬InProgramMemory m.index count then stopped m (.memory (.range m.index count))
  else done { m with
    memory := Cells.write m.memory m.index.toNat (m.registers.toList.take count)
    index := m.index + count }

/-- Loads the registers up to one of them, and moves the address register behind them. -/
def restoreRegisters (x : Register) (m : Machine) : Outcome :=
  if ¬InProgramMemory m.index x.val then stopped m (.memory (.range m.index x.val))
  else done { m with
    registers := Cells.write m.registers 0 (Cells.slice m.memory m.index (m.index + x.val + 1))
    index := m.index + x.val + 1 }

end Machine

namespace Instruction

open Outcome Machine

/-- Whether the instruction takes a byte from the random source. -/
def drawsRandom {ρ : Type} : Instruction ρ → Bool
  | random .. => true
  | _ => false

/-- The effect of an instruction. The byte is the next of the random source. -/
def exec (byte : UInt8) (m : Machine) : Instruction Register → Outcome
  | clear => done { m with display := Display.blank }
  | ret => m.ret
  | system _ => done m
  | jump a => done { m with counter := a }
  | call a => m.call a
  | skipIfByte x b => done (m.skipIf (m.value x = b))
  | skipUnlessByte x b => done (m.skipIf (m.value x ≠ b))
  | skipIfEqual x y => done (m.skipIf (m.register x = m.register y))
  | skipUnlessEqual x y => done (m.skipIf (m.register x ≠ m.register y))
  | loadByte x b => attemptCell m (Cells.byte? b) fun b => done (m.setRegister x b)
  | addByte x b => done (m.setLowByte x (m.value x + b))
  | alu op x y => done (m.alu op x y)
  | loadIndex a => done { m with index := a % 4096 }
  | jumpPlus a => m.jumpPlus a
  | random x mask => done (m.setRegister x (byte &&& UInt8.ofNat (mask % 256).toNat))
  | draw x y height => m.drawSprite x y height
  | skipIfKey x => attempt m (m.key? x) fun down => done (m.skipIf down)
  | skipUnlessKey x => attempt m (m.key? x) fun down => done (m.skipIf !down)
  | readDelay x => attemptCell m (Cells.byte? m.delayTimer) fun b => done (m.setRegister x b)
  | waitKey x => m.waitKey x
  | setDelay x => done { m with delayTimer := m.value x }
  | setSound x => done { m with soundTimer := m.value x }
  | addIndex x => done { m with index := wrap (m.index + m.value x) }
  | loadGlyph x => attempt m (glyphAddress (m.value x)) fun a => done { m with index := a }
  | storeDecimal x => m.storeDecimal x
  | saveRegisters x => m.saveRegisters x
  | restoreRegisters x => m.restoreRegisters x

/-- The effect of an instruction that draws from a source of random bytes. -/
def run (i : Instruction Register) (source : RandomSource) (m : Machine) : Outcome × RandomSource :=
  (i.exec source.next m, if i.drawsRandom then source.advance else source)

end Instruction

/-- Reads an instruction word and executes it. -/
def Machine.runWord (word : Int) (source : RandomSource) (m : Machine) : Outcome × RandomSource :=
  match Instruction.ofWord? word with
  | some i => i.run source m
  | none => (.stopped m (.unknownOpcode word m.counter m.registerValues), source)

end ChipEight
