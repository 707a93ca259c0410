import ChipEight.Binary64.Arithmetic
import ChipEight.Binary64.Basic
import ChipEight.Binary64.Decimal
import ChipEight.Color
import ChipEight.CommandLine.Arguments
import ChipEight.CommandLine.Options
import ChipEight.CommandLine.Usage
import ChipEight.Computer
import ChipEight.Computer.Usual
import ChipEight.Emulator.Basic
import ChipEight.Emulator.Trace
import ChipEight.Font
import ChipEight.Instruction
import ChipEight.Keypad
import ChipEight.Listing
import ChipEight.Log.Backlog
import ChipEight.Log.Entry
import ChipEight.Log.Format
import ChipEight.Log.LogFile
import ChipEight.Log.Record
import ChipEight.Machine.Cells
import ChipEight.Machine.Display
import ChipEight.Machine.Execution
import ChipEight.Machine.Fault
import ChipEight.Machine.Operation
import ChipEight.Machine.State
import ChipEight.Main
import ChipEight.Mnemonic
import ChipEight.Number
import ChipEight.Proofs.Emulator.CallStack
import ChipEight.Proofs.Emulator.Clock
import ChipEight.Proofs.Emulator.Failure
import ChipEight.Proofs.Emulator.KeyDelivery
import ChipEight.Proofs.Emulator.ReservedMemory
import ChipEight.Proofs.Binary64.Division
import ChipEight.Proofs.Emulator.Access
import ChipEight.Proofs.Emulator.Alike
import ChipEight.Proofs.Emulator.Tone
import ChipEight.Proofs.Session.Restart
import ChipEight.Proofs.Session.Tone
import ChipEight.RandomSource
import ChipEight.Rom
import ChipEight.Session.Event
import ChipEight.Session.Loop
import ChipEight.Session.Run
import ChipEight.Session.Stage
import ChipEight.Settings.Basic
import ChipEight.Settings.Load
import ChipEight.Signed
import ChipEight.Storage.FileTree
import ChipEight.Storage.Path
import ChipEight.Terminal
import ChipEight.Text.ByteSize
import ChipEight.Text.Digit
import ChipEight.Text.Hex
import ChipEight.Text.IntegerLiteral
import ChipEight.Text.Notation
import ChipEight.Text.Printable
import ChipEight.Text.Quoted
import ChipEight.Text.Utf8
import ChipEight.Text.WordCharacter
import ChipEight.Toml.Document
import ChipEight.Toml.Fault
import ChipEight.Toml.Inline
import ChipEight.Toml.Lexeme
import ChipEight.Toml.Moment
import ChipEight.Toml.Nest
import ChipEight.Toml.Numeral
import ChipEight.Toml.Rest
import ChipEight.Toml.Value
import ChipEight.Tone.Basic
import ChipEight.Tone.Wave
import ChipEight.Version
import ChipEight.Window
import ChipEight.Word
import ChipEight.Proofs.Instruction.Assembler
import ChipEight.Proofs.Machine.Decoding
import ChipEight.Proofs.Instruction.Disassembly
import ChipEight.Proofs.Emulator.Timer
import ChipEight.Proofs.Machine.Sprite
import ChipEight.Proofs.Machine.WordFootprint
import ChipEight.Proofs.Emulator.View
import ChipEight.Proofs.Emulator.Untraced
import ChipEight.Proofs.Emulator.Tracing
import ChipEight.Proofs.Machine.KeyRead
import ChipEight.Proofs.Emulator.KeyTiming
import ChipEight.Proofs.Machine.StraightLine
import ChipEight.Proofs.Machine.SpriteImage
import ChipEight.Proofs.Log.Conservation
import ChipEight.Proofs.Settings.Loading
import ChipEight.Proofs.Machine.FlagArithmetic
import ChipEight.Proofs.Machine.SavedRegisters
import ChipEight.Proofs.Toml.PathMerge
import ChipEight.Proofs.Settings.Color
import ChipEight.Proofs.Emulator.TimeStep
import ChipEight.Proofs.Tone.Wave
import ChipEight.Proofs.Session.Program
import ChipEight.Proofs.Session.Keypad
import ChipEight.Text.CodePoint
import ChipEight.Proofs.Instruction.Digits
import ChipEight.Proofs.Instruction.Mnemonic
import ChipEight.Proofs.Emulator.TrailingByte
import ChipEight.Proofs.Session.Outcome
import ChipEight.Proofs.Session.Buzzer
import ChipEight.Proofs.Log.Interruption
