/-
The beep: a looping square wave that is switched on and off. What it asks of the mixer is a list of
calls; a tone without a mixer makes none and still follows its requests.
-/
import Chip8.Host.Wave
import Chip8.Log

namespace Chip8

/-- Samples per second, size of a sample in bits (negative if signed) and number of channels. -/
structure Mixer where
  rate : Int
  size : Int
  channels : Int
  deriving DecidableEq

namespace Mixer

/-- The settings that a tone asks for. -/
def standard : Mixer := ⟨44100, -16, 1⟩

end Mixer

/-- What is asked of the host's mixer. -/
inductive AudioCall where
  /-- Settings for a mixer to be opened. -/
  | prepare (m : Mixer)
  /-- Opens a mixer. -/
  | initialise (m : Mixer)
  /-- Makes a sound of a wave, which goes into each of the channels. -/
  | makeSound (wave : Wave) (channels : Nat)
  /-- Plays the sound in a loop. -/
  | play
  /-- Stops it. -/
  | stop
  deriving DecidableEq

/-- A tone: whether it has a sound to play and whether it is on. -/
structure Tone where
  sounding : Bool
  active : Bool
  deriving DecidableEq

namespace Tone

/-- The frequency of the beep unless another is asked for. -/
def standardFrequency : Number := .whole 240

/-- The volume of the beep unless another is asked for. -/
def standardVolume : Number := .decimal 0.25

/-- Why a tone gets no sound on an open mixer. -/
inductive SoundError where
  | wave (e : WaveError)
  /-- No word of the host holds the number of channels. -/
  | channels (e : WordOverflow)
  /-- The host makes no room for the samples of all channels. -/
  | refused (e : HostError)
  deriving DecidableEq

def SoundError.message : SoundError → String
  | .wave e => e.message
  | .channels e => e.message
  | .refused e => e.message

/-- A new tone with the calls and messages that making it took. -/
structure Opening where
  tone : Tone
  calls : List AudioCall
  messages : List LogEntry
  deriving DecidableEq

/-- A tone that was given no sound. -/
def Opening.silent : Opening := ⟨⟨false, false⟩, [], []⟩

/-- The call that makes the sound of a wave for a mixer. -/
def soundCall (w : Wave) (m : Mixer) : AudioCall :=
  .makeSound w (max 1 m.channels.toNat)

/-- Spreads so many samples over channels, if there are more than one. -/
def spread (host : Host) (samples : Nat) (channels : Int) : Except SoundError Unit := do
  if 1 < channels then
    let n ← (hostWord channels).mapError .channels
    (host.array .sample [samples, n]).mapError .refused

/-- Makes the sound of a tone on an open mixer. -/
def openOn (host : Host) (m : Mixer) (frequency volume : Number) : Except SoundError Opening := do
  let w ← (Wave.square host frequency m.rate volume Wave.standardPeriods).mapError .wave
  spread host w.length m.channels
  return ⟨⟨true, false⟩, [soundCall w m], []⟩

/-- Makes a tone. Without an open mixer the standard one is opened, or the tone stays silent if that
fails for the given reason. -/
def opening (host : Host) (mixer : Option Mixer) (failure : Option String)
    (frequency volume : Number) : Except SoundError Opening :=
  match mixer, failure with
  | some m, _ => openOn host m frequency volume
  | none, none => (openOn host .standard frequency volume).map fun o =>
      { o with calls := .initialise .standard :: o.calls }
  | none, some why =>
    .ok { Opening.silent with
      calls := [.initialise .standard]
      messages := [⟨.warning, "Audio disabled: " ++ why⟩] }

/-- Switches the tone on or off. Only a change reaches the mixer. -/
def request (t : Tone) (on : Bool) : Tone × List AudioCall :=
  ({ t with active := on },
    if t.sounding && on != t.active then [if on then .play else .stop] else [])

/-- The answers to requests in turn: the tone after each and the calls it made. -/
def requests (t : Tone) : List Bool → List (Tone × List AudioCall)
  | [] => []
  | on :: rest => t.request on :: requests (t.request on).1 rest

end Tone

end Chip8
