import ChipEight.Computer
import ChipEight.Number

/-!
# Square waves

A square wave of sixteen-bit samples: half of each period up, the rest down. Enough periods are kept
to be played in a loop, if the computer has room for them.

* `Wave.ofTone` computes the wave of a tone, at a number of samples a second, and
  `Wave.forChannels` makes room for it in every channel;
* `Wave.sample` is a sample of it, and `Wave.runs` gives all of them, equal neighbours together.
-/

namespace ChipEight

/-- A square wave. -/
structure Wave where
  /-- The samples of one period. -/
  period : Nat
  /-- How far the samples lie from silence, before they are cut to sixteen bits. -/
  amplitude : Int
  deriving DecidableEq, Repr

/-- Why a tone has no wave. -/
inductive WaveFault where
  | number (cause : NumberFault)
  /-- There is no room for the samples. -/
  | room (cause : Refusal)
  /-- The amplitude is beyond the integers that can be cut. -/
  | tooLoud
  deriving DecidableEq, Repr

/-- The text of a fault. -/
def WaveFault.message : WaveFault → String
  | number cause => cause.message
  | room cause => cause.message
  | tooLoud => "Python int too large to convert to C long"

namespace Wave

/-- How many periods are kept. -/
def periods : Nat := 32

/-- The greatest sample. -/
def maxSample : Int := 32767

/-- The lowest sixteen bits of an integer, with a sign. -/
def cut (n : Int) : Int :=
  Int.bmod n 65536

/-- How many samples there are. -/
def length (w : Wave) : Nat :=
  w.period * periods

/-- The samples that are up. -/
def high (w : Wave) : Int :=
  cut w.amplitude

/-- The samples that are down. -/
def low (w : Wave) : Int :=
  cut (-w.amplitude)

/-- One sample. -/
def sample (w : Wave) (k : Nat) : Int :=
  if k % w.period < w.period / 2 then w.high else w.low

/-- All samples, equal neighbours together, each with how many there are. -/
def runs (w : Wave) : List (Int × Nat) :=
  if w.high = w.low then [(w.high, w.length)]
  else
    (List.replicate periods [(w.high, w.period / 2), (w.low, w.period - w.period / 2)]).flatten

/-- The samples of one period: at least one up and one down. -/
def periodOf (frequency : Number) (rate : Int) : Except NumberFault Nat := do
  let samples ← Number.quotient (.integer rate) frequency
  let samples ← samples.roundInt?.mapError .conversion
  return (max 2 samples).toNat

/-- How far the samples lie from silence. -/
def amplitudeOf (volume : Number) : Except NumberFault Int := do
  (← volume.times maxSample).toInt?

/-- The integers that can be cut: of a number and its negative, both must be among them. -/
def canCut (n : Int) : Prop :=
  -0x8000000000000000 ≤ n ∧ n ≤ 0x8000000000000000

instance (n : Int) : Decidable (canCut n) := inferInstanceAs (Decidable (_ ∧ _))

/-- The wave of a tone. -/
def ofTone (room : Room) (frequency : Number) (rate : Int) (volume : Number) :
    Except WaveFault Wave := do
  let period ← (periodOf frequency rate).mapError .number
  (room.samples (period * periods)).mapError .room
  let amplitude ← (amplitudeOf volume).mapError .number
  if ¬canCut amplitude then throw .tooLoud
  return ⟨period, amplitude⟩

/-- Makes room for a wave in every channel. One channel needs no copy. -/
def forChannels (room : Room) (channels : Int) (w : Wave) : Except WaveFault Wave :=
  if channels ≤ 1 then .ok w
  else ((room.channels w.length channels).mapError .room).map fun _ => w

end Wave

end ChipEight
