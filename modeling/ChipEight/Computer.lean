/-!
# The computer

What a program finds in the computer that it runs on: keys with names, a screen, memory for samples
and a mixer. All of them take part in what the program does by their answers only. So a computer is
what it answers, and nothing is known about the answers: where something holds of a program, it
holds in any computer.
-/

namespace ChipEight

/-- An answer of the computer that it cannot do what was asked for: the kind of fault by its name,
and the text about it. -/
structure Refusal where
  kind : String
  message : String
  deriving DecidableEq, Repr

/-- Memory for samples. -/
structure Room where
  /-- Asks for room for so many samples. -/
  samples : Nat → Except Refusal Unit
  /-- Asks for room for so many samples in each of so many channels. -/
  channels : Nat → Int → Except Refusal Unit

/-- How a mixer runs: samples a second, the size of a sample, and channels. -/
structure MixerFormat where
  rate : Int
  size : Int
  channels : Int
  deriving DecidableEq, Repr

/-- A mixer: how it runs, and what comes of opening it. -/
structure Mixer where
  running : Option MixerFormat := none
  opening : MixerFormat → Except String MixerFormat := .ok

/-- A computer. -/
structure Computer where
  /-- The code of the key of a name. -/
  keyCode? : String → Option Int
  /-- Asks for a window that is so many points wide and high, and gives the size that it has. -/
  window : Int → Int → Except Refusal (Nat × Nat)
  room : Room
  mixer : Mixer

namespace KeyName

/-- The code of the key that leaves the program: Escape. -/
def leave : Int := 27

/-- The code of the key that starts the program over: F5. -/
def restart : Int := 0x4000003E

end KeyName

end ChipEight
