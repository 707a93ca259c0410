import ChipEight.Log.Record
import ChipEight.Machine.Cells
import ChipEight.Text.Hex

/-!
# Faults

Everything that can stop an instruction, by its cause. The text of each is `Fault.message`.
Programs carry no symbols, so the fault of an unknown instruction word keeps the word, the program
counter and the registers.
-/

namespace ChipEight

/-- Why a jump, a call or a return is refused. -/
inductive FlowFault where
  | emptyStack
  | stackOverflow
  /-- The jump leaves the sixteen-bit address space. -/
  | beyondWord
  /-- The target, with the bytes that must follow it, is not program memory. -/
  | target (address length : Int)
  deriving DecidableEq, Repr

/-- Why an access to memory is refused. -/
inductive MemoryFault where
  /-- No instruction fits at the program counter. -/
  | counter (address : Int)
  /-- The address, with the bytes that must follow it, is not program memory. -/
  | range (address length : Int)
  /-- The sprite ends beyond memory. -/
  | sprite
  deriving DecidableEq, Repr

/-- Why a register does not name a key or a digit. -/
inductive InputFault where
  | key (value : Int)
  | digit (value : Int)
  deriving DecidableEq, Repr

/-- What stops an instruction. -/
inductive Fault where
  /-- The word names no instruction. -/
  | unknownOpcode (word counter : Int) (registers : List Int)
  | flow (cause : FlowFault)
  | memory (cause : MemoryFault)
  | input (cause : InputFault)
  /-- The machine itself cannot hold what it was given; no run of a program comes to this. -/
  | cell (cause : CellFault)
  deriving DecidableEq, Repr

/-- The text about an address range that is not program memory. -/
def rangeMessage (address length : Int) : String :=
  "invalid address: 0x" ++ Text.Hex.padded 4 address ++ s!" (length {length})"

/-- The text of a control flow fault. -/
def FlowFault.message : FlowFault → String
  | emptyStack => "can't return from empty call stack"
  | stackOverflow => "stack overflow"
  | beyondWord => "invalid address"
  | target a n => rangeMessage a n

/-- The text of a memory fault. -/
def MemoryFault.message : MemoryFault → String
  | counter a => "program counter out of memory: 0x" ++ Text.Hex.padded 4 a
  | range a n => rangeMessage a n
  | sprite => "invalid address"

/-- The text of an input fault. -/
def InputFault.message : InputFault → String
  | key v => s!"invalid key value: {v}"
  | digit v => s!"invalid sprite digit: {v}"

/-- The text of a fault. -/
def Fault.message : Fault → String
  | unknownOpcode word counter registers =>
    "unknown opcode: 0x" ++ Text.Hex.padded 4 word
      ++ "; pc=0x" ++ Text.Hex.padded 4 counter
      ++ ", registers=[" ++ ", ".intercalate (registers.map (Text.Hex.padded 2)) ++ "]"
  | flow cause => cause.message
  | memory cause => cause.message
  | input cause => cause.message
  | cell cause => cause.message

/-- What is noted in the log when a fault occurs: only an unknown instruction word. -/
def Fault.notice? {α : Type} : Fault → Option (Log.Record α)
  | unknownOpcode word counter _ =>
    some <| .debug <| "Unknown OpCode: $" ++ Text.Hex.padded 4 word
      ++ " at PC=$" ++ Text.Hex.padded 4 counter
  | _ => none

end ChipEight
