import ChipEight.Log.Record
import ChipEight.Tone.Wave

/-!
# The tone

The buzzer is a square wave that the mixer of the computer plays in a loop. The mixer is opened when
the tone is made, unless it is open already, and may then run in another way than was asked for.

* `Tone.make` opens the mixer, computes the wave and notes how the tone sounds;
* `Tone.start`, `Tone.stop` and `Tone.close` are the operations, each with what it asks of the
  mixer.
-/

namespace ChipEight

/-- What is asked of a mixer. -/
inductive MixerEvent where
  | opening (format : MixerFormat) (buffer : Nat)
  | play
  | stop
  | quit
  deriving DecidableEq, Repr

/-- Why there is no tone. -/
inductive ToneFault where
  /-- The mixer cannot be opened. -/
  | mixer (message : String)
  | wave (cause : WaveFault)
  /-- The frequency cannot be written. -/
  | frequency (cause : NumberFault)
  deriving DecidableEq, Repr

/-- The text of a fault. -/
def ToneFault.message : ToneFault → String
  | mixer message => message
  | wave cause => cause.message
  | frequency cause => cause.message

/-- A tone that can be played. -/
structure Tone where
  wave : Wave
  channels : Int
  playing : Bool := false
  /-- Whether the mixer is still open. -/
  mixerOpen : Bool := true
  deriving DecidableEq, Repr

namespace Tone

/-- How the mixer is asked to run. -/
def wantedFormat (rate : Int) : MixerFormat := ⟨rate, -16, 1⟩

/-- The samples that the mixer is asked to hold ready. -/
def bufferSize : Nat := 512

/-- The usual frequency, in periods a second. -/
def usualFrequency : Number := .real (.ofInt 440)

/-- The usual volume, as a part of the loudest. -/
def usualVolume : Number := .real (.ofQuotient 1 4)

/-- The usual rate, in samples a second. -/
def usualRate : Int := 44100

/-- What is noted about a new tone. -/
def readyRecord {α : Type} (frequency : Number) (format : MixerFormat) :
    Except NumberFault (Log.Record α) :=
  frequency.text.map fun text =>
    .debug ("Tone ready: " ++ text ++ s!" Hz at {format.rate} Hz, {format.channels} channel(s)")

/-- Makes a tone and what is noted about it. What is asked of the mixer is part of the result, also
if that is a fault. -/
def make {α : Type} (room : Room) (mixer : Mixer) (frequency volume : Number)
    (rate : Int := usualRate) : List MixerEvent × Except ToneFault (Tone × Log.Record α) :=
  let wanted := wantedFormat rate
  let (events, opened) : List MixerEvent × Except String MixerFormat :=
    match mixer.running with
    | some format => ([], .ok format)
    | none => ([.opening wanted bufferSize], mixer.opening wanted)
  match opened with
  | .error message => (events, .error (.mixer message))
  | .ok format =>
    match (Wave.ofTone room frequency format.rate volume).bind
        (Wave.forChannels room format.channels) with
    | .error cause => (events, .error (.wave cause))
    | .ok wave =>
      match readyRecord frequency format with
      | .error cause => (events, .error (.frequency cause))
      | .ok record => (events, .ok ({ wave, channels := format.channels }, record))

/-- Starts the tone, if it is not playing. -/
def start (t : Tone) : Tone × List MixerEvent :=
  if t.playing then (t, []) else ({ t with playing := true }, [.play])

/-- Stops the tone, if it is playing. -/
def stop (t : Tone) : Tone × List MixerEvent :=
  if t.playing then ({ t with playing := false }, [.stop]) else (t, [])

/-- Stops the tone and closes the mixer, if it is open. -/
def close (t : Tone) : Tone × List MixerEvent :=
  let (t, events) := t.stop
  if t.mixerOpen then ({ t with mixerOpen := false }, events ++ [.quit]) else (t, events)

/-- Starts or stops the tone. -/
def set (playing : Bool) (t : Tone) : Tone × List MixerEvent :=
  if playing then t.start else t.stop

end Tone

end ChipEight
