/-!
# UTF-8

Bytes as text. The first byte of a character tells how many bytes follow it and what the next one
may be, so reading is a small machine: it holds the character that has been begun, with the bytes
still owed and the range of the next one.

* `Utf8.decode` reads a text or says where, and why, the bytes are none;
* `Utf8.encode` writes a text.
-/

namespace ChipEight.Text.Utf8

/-- A character that has been begun. -/
structure Begun where
  /-- The first byte and its position. -/
  first : UInt8
  position : Nat
  /-- How many bytes have been read. -/
  read : Nat
  /-- How many bytes are still owed. -/
  owed : Nat
  /-- The bits that have been read. -/
  bits : Nat
  /-- The range of the next byte. -/
  least : Nat
  greatest : Nat

/-- Why bytes are no text. -/
inductive Cause where
  | invalidStart
  | invalidContinuation
  | unexpectedEnd
  deriving DecidableEq, Repr

/-- Bytes that are no text: the first of them, its position, how many they are, and why. -/
structure Fault where
  first : UInt8
  position : Nat
  count : Nat
  cause : Cause
  deriving DecidableEq, Repr

/-- The text of a cause. -/
def Cause.message : Cause → String
  | invalidStart => "invalid start byte"
  | invalidContinuation => "invalid continuation byte"
  | unexpectedEnd => "unexpected end of data"

/-- The text of a fault. -/
def Fault.message (f : Fault) : String :=
  let what :=
    if f.count = 1 then
      let n := f.first.toNat
      "byte 0x" ++ String.ofList [Nat.digitChar (n / 16), Nat.digitChar (n % 16)]
        ++ s!" in position {f.position}"
    else s!"bytes in position {f.position}-{f.position + f.count - 1}"
  "'utf-8' codec can't decode " ++ what ++ ": " ++ f.cause.message

/-- What a first byte begins, if it can begin a character. The range of the second byte leaves out
characters that have a shorter form, the surrogates, and what lies beyond the last character. -/
def begin? (position : Nat) (b : UInt8) : Option Begun :=
  let n := b.toNat
  if n < 0x80 then some ⟨b, position, 1, 0, n, 0x80, 0xBF⟩
  else if n < 0xC2 then none
  else if n < 0xE0 then some ⟨b, position, 1, 1, n - 0xC0, 0x80, 0xBF⟩
  else if n < 0xF0 then
    some ⟨b, position, 1, 2, n - 0xE0, if n = 0xE0 then 0xA0 else 0x80,
      if n = 0xED then 0x9F else 0xBF⟩
  else if n < 0xF5 then
    some ⟨b, position, 1, 3, n - 0xF0, if n = 0xF0 then 0x90 else 0x80,
      if n = 0xF4 then 0x8F else 0xBF⟩
  else none

/-- Reads bytes that begin at a position, with the characters so far, last one first, and the
character that has been begun. -/
def scan (position : Nat) (text : List Char) : Option Begun → List UInt8 → Except Fault (List Char)
  | none, [] => .ok text.reverse
  | some p, [] => .error ⟨p.first, p.position, p.read, .unexpectedEnd⟩
  | none, b :: rest =>
    match begin? position b with
    | none => .error ⟨b, position, 1, .invalidStart⟩
    | some p =>
      if p.owed = 0 then scan (position + 1) (Char.ofNat p.bits :: text) none rest
      else scan (position + 1) text (some p) rest
  | some p, b :: rest =>
    if p.least ≤ b.toNat ∧ b.toNat ≤ p.greatest then
      let bits := p.bits * 64 + (b.toNat - 0x80)
      if p.owed = 1 then scan (position + 1) (Char.ofNat bits :: text) none rest
      else
        let next : Begun := ⟨p.first, p.position, p.read + 1, p.owed - 1, bits, 0x80, 0xBF⟩
        scan (position + 1) text (some next) rest
    else .error ⟨p.first, p.position, p.read, .invalidContinuation⟩

/-- Reads a text. -/
def decode (bytes : List UInt8) : Except Fault (List Char) :=
  scan 0 [] none bytes

/-- Writes a text. -/
def encode (s : String) : List UInt8 :=
  s.toUTF8.toList

end ChipEight.Text.Utf8
