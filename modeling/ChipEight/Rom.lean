import ChipEight.Log.Record
import ChipEight.Machine.State
import ChipEight.Storage.FileTree

/-!
# Program images

A program image is raw code without header or checksum, so all that is checked is its size: it
must hold something, and it must fit between the start of programs and the end of memory.

* `Rom.ofBytes` checks an image, and `Rom.ofFile` reads it from a file first;
* `Rom.notice?` is the remark about an image with an odd byte at its end;
* `Rom.isOk_ofBytes` says exactly which images are accepted.
-/

namespace ChipEight

/-- A program image and the file it was read from, if any. -/
structure Rom where
  file : String := ""
  bytes : List UInt8 := []
  deriving DecidableEq, Repr

/-- What may be handed over as an image. -/
inductive Image where
  | bytes (b : List UInt8)
  /-- Something that is no sequence of bytes, by the name of its type. -/
  | other (typeName : String)
  deriving DecidableEq, Repr

/-- Why an image is refused. -/
inductive RomFault where
  | notBytes (typeName : String)
  | empty
  | tooLong (size : Nat)
  | unreadable (name : String) (cause : FileFault)
  /-- The name holds a zero character, which no file name can. -/
  | zeroInName
  deriving DecidableEq, Repr

namespace Rom

/-- The largest image that is accepted. -/
def maxSize : Nat := maxProgramSize

end Rom

/-- The text of a refusal. -/
def RomFault.message : RomFault → String
  | notBytes typeName => "Expected bytes or bytearray, got " ++ typeName
  | empty => "ROM is empty"
  | tooLong size => s!"ROM too long: {size} bytes, maximum {Rom.maxSize}"
  | unreadable name cause => "Failed to read file " ++ name ++ ": " ++ cause.message name
  | zeroInName => "embedded null byte"

namespace Rom

/-- Checks an image. -/
def ofBytes (b : List UInt8) : Except RomFault Rom :=
  if b.length = 0 then .error .empty
  else if maxSize < b.length then .error (.tooLong b.length)
  else .ok { bytes := b }

/-- Checks what was handed over as an image. -/
def ofImage : Image → Except RomFault Rom
  | .bytes b => ofBytes b
  | .other typeName => .error (.notBytes typeName)

/-- Checks the image that reading a file has given. -/
def ofReading (name : String) (reading : Except FileFault (List UInt8)) : Except RomFault Rom :=
  if name.contains (Char.ofNat 0) then .error .zeroInName
  else match reading with
    | .error f => .error (.unreadable name f)
    | .ok b => (ofBytes b).map fun rom => { rom with file := name }

/-- Reads an image from a file. -/
def ofFile (tree : FileTree) (name : String) : Except RomFault Rom :=
  ofReading name (tree.read name)

/-- The remark about an image with an odd byte at its end. -/
def notice? {α : Type} (rom : Rom) : Option (Log.Record α) :=
  if rom.bytes.length % 2 = 1 then
    some (.warning "ROM has an odd length, last byte is never fetched as an instruction")
  else none

/-- The name under which the image is shown. -/
def name (rom : Rom) : String :=
  if rom.file.isEmpty then "untitled" else (Path.ofString rom.file).stem

/-- The image in a few words. -/
def summary (rom : Rom) : String :=
  "<Rom file=" ++ Text.quote rom.file ++ s!" size={rom.bytes.length} bytes>"

/-- **Accepted images.** An image is accepted if it is not empty and fits into memory. -/
theorem isOk_ofBytes (b : List UInt8) :
    ofBytes b = .ok { bytes := b } ↔ 0 < b.length ∧ b.length ≤ maxProgramSize := by
  unfold ofBytes maxSize
  by_cases h0 : b.length = 0
  · rw [if_pos h0]
    exact ⟨(nomatch ·), fun h => absurd h0 (by omega)⟩
  · rw [if_neg h0]
    by_cases h1 : maxProgramSize < b.length
    · rw [if_pos h1]
      exact ⟨(nomatch ·), fun h => absurd h1 (by omega)⟩
    · rw [if_neg h1]
      exact ⟨fun _ => ⟨by omega, by omega⟩, fun _ => rfl⟩

end Rom

end ChipEight
