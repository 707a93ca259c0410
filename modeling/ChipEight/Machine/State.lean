import ChipEight.Font
import ChipEight.Instruction
import ChipEight.Machine.Display
import ChipEight.Machine.Fault

/-!
# The machine

The whole state of a CHIP-8 computer: memory, registers, call stack, timers, display and keypad.
The font stands at the bottom of memory, programs are loaded at `0x200`, and everything else
starts at zero.

The program counter, the address register, the stack pointer and the timers are plain integers:
the bounds that every run keeps are facts about runs, and not about the type.

* `Machine.load` puts a program into memory, `Machine.fetch` reads the next instruction word and
  `Machine.tick` counts the timers down;
* `Cells.getElem_write_of_lt` says that loading leaves alone what is below the program.
-/

namespace ChipEight

/-- The bytes of memory. -/
def memorySize : Nat := 0x1000

/-- Where programs are loaded. -/
def programStart : Nat := 0x200

/-- The longest program that fits between its start and the end of memory. -/
def maxProgramSize : Nat := memorySize - programStart

/-- The keys of the keypad. -/
def keyCount : Nat := 16

/-- The state of the machine. -/
structure Machine where
  memory : Vector UInt8 4096 := Cells.write (Vector.replicate 4096 0) 0 font
  registers : Vector UInt8 16 := Vector.replicate 16 0
  /-- The address register `I`. -/
  index : Int := 0
  delayTimer : Int := 0
  soundTimer : Int := 0
  /-- The program counter. -/
  counter : Int := 0
  stackPointer : Int := 0
  stack : Vector UInt16 16 := Vector.replicate 16 0
  display : Display := Display.blank
  /-- Which keys are down. -/
  keys : Vector Bool 16 := Vector.replicate 16 false
  /-- Whether an instruction waits for a key. -/
  waiting : Bool := false
  /-- The key that was pressed while an instruction waited, until it is delivered. -/
  pendingKey : Option Int := none
  deriving DecidableEq

/-- Why a program is not loaded. -/
structure LoadFault where
  /-- The length of the program, which is too long. -/
  size : Nat
  deriving DecidableEq, Repr

/-- The text of a load fault. -/
def LoadFault.message (f : LoadFault) : String :=
  s!"program too long: {f.size} bytes, maximum {maxProgramSize}"

namespace Machine

/-- Whether an address and the bytes that must follow it are program memory. -/
def InProgramMemory (address length : Int) : Prop :=
  programStart ≤ address ∧ address + length < memorySize

instance (address length : Int) : Decidable (InProgramMemory address length) :=
  inferInstanceAs (Decidable (_ ∧ _))

/-- A number in the sixteen bits of an address. -/
def wrap (a : Int) : Int :=
  a % 65536

/-- Copies a program to its place and points the program counter at it. -/
def load (program : List UInt8) (m : Machine) : Except LoadFault Machine :=
  if program.length ≤ maxProgramSize then
    .ok { m with memory := Cells.write m.memory programStart program, counter := programStart }
  else .error ⟨program.length⟩

/-- Reads the instruction word at the program counter, high byte first, and moves the counter
behind it. -/
def fetch (m : Machine) : Except Fault (Int × Machine) :=
  if memorySize ≤ m.counter + 1 then .error (.memory (.counter m.counter))
  else match Cells.read? m.memory m.counter, Cells.read? m.memory (m.counter + 1) with
    | .error e, _ => .error (.cell e)
    | _, .error e => .error (.cell e)
    | .ok high, .ok low =>
      .ok (high.toNat * 256 + low.toNat, { m with counter := wrap (m.counter + 2) })

/-- A timer one sixtieth of a second later. -/
def countDown (timer : Int) : Int :=
  if 0 < timer then timer - 1 else timer

/-- One tick of both timers. -/
def tick (m : Machine) : Machine :=
  { m with delayTimer := countDown m.delayTimer, soundTimer := countDown m.soundTimer }

/-- Several ticks of both timers. -/
def ticks : Nat → Machine → Machine
  | 0, m => m
  | n + 1, m => ticks n m.tick

/-- The address of the glyph of a hexadecimal digit. -/
def glyphAddress (digit : Int) : Except Fault Int :=
  if 15 < digit then .error (.input (.digit digit)) else .ok (digit * glyphSize)

/-- The content of a register. -/
def register (m : Machine) (x : Register) : UInt8 :=
  m.registers[x]

/-- The content of a register as a number. -/
def value (m : Machine) (x : Register) : Int :=
  (m.register x).toNat

/-- The machine with a byte in a register. -/
def setRegister (x : Register) (b : UInt8) (m : Machine) : Machine :=
  { m with registers := m.registers.set x b }

/-- The machine with the lowest byte of a number in a register. -/
def setLowByte (x : Register) (v : Int) (m : Machine) : Machine :=
  m.setRegister x (UInt8.ofNat (v % 256).toNat)

/-- The registers as numbers. -/
def registerValues (m : Machine) : List Int :=
  m.registers.toList.map fun b => (b.toNat : Int)

/-- Moves the program counter over the next instruction. -/
def skip (m : Machine) : Machine :=
  { m with counter := wrap (m.counter + 2) }

/-- Skips the next instruction under a condition. -/
def skipIf (condition : Bool) (m : Machine) : Machine :=
  if condition then m.skip else m

end Machine

end ChipEight
