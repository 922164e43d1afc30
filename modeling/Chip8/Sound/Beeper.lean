import Chip8.Host
import Chip8.Sound.SquareWave

/-!
# Beepers

A beeper plays a square wave in a loop on a channel of the mixer. It makes the sound and looks for
the channel when it first needs them and keeps both. A tone that ends too early is faded out.
-/

namespace Chip8

open Number (Scalar)

structure Beeper where
  sampleRate : Int
  frequency : Scalar
  volume : Rat
  /-- How long a tone should last, in milliseconds. -/
  minPlayMs : Int
  channel : Option Nat
  /-- Whether the sound has been made. -/
  hasSound : Bool
  playing : Bool
  /-- When the tone started. -/
  startedAt : Int

namespace Beeper

/-- The loudness of samples. -/
def amplitude : Int := 12000

/-- The shortest fade. -/
def shortestFade : Int := 10

def standardFrequency : Scalar := .double 440.0

/-- How long a tone should usually last, in milliseconds. -/
def standardPlayMs : Int := 35

def standardVolume : Scalar := .double 0.35

/-- A silent beeper on a host. Its values are brought into range. -/
def create (sampleRate : Int) (frequency volume : Scalar) (minPlayMs : Int) (h : Host) :
    Except Error Beeper :=
  if !h.loadable then .error (.libraryMissing .sound)
  else if h.mixer.rate.isNone then .error .mixerNotReady
  else
    .ok
      { sampleRate := max 1 sampleRate
        frequency
        volume := volume.clamp 0 1
        minPlayMs := max 0 minPlayMs
        channel := none
        hasSound := false
        playing := false
        startedAt := 0 }

/-- The samples of the tone. A frequency that is at most zero has none. -/
def samples (b : Beeper) : Except Error (Option (List Int)) :=
  if b.frequency.isAtMostZero then .ok none
  else (SquareWave.build b.sampleRate b.frequency amplitude).map some

/-- The beeper with its sound, if it can be made. -/
def withSound (b : Beeper) (h : Host) : Except Error Unit × Beeper × Host :=
  if b.hasSound then (.ok (), b, h)
  else match b.samples with
    | .error e => (.error e, b, h)
    | .ok none => (.ok (), b, h)
    | .ok (some samples) =>
      let (made, h) := h.makeSound samples
      (.ok (), { b with hasSound := made }, h)

/-- The beeper with its channel, if one can be found. -/
def withChannel (b : Beeper) (h : Host) : Beeper × Host :=
  match b.channel with
  | some _ => (b, h)
  | none =>
    let (channel, h) := h.findChannel
    ({ b with channel }, h)

def play (b : Beeper) (h : Host) : Beeper × Host :=
  match b.channel with
  | none => (b, h)
  | some channel =>
    ({ b with playing := true, startedAt := h.now },
      (h.call (.play channel (-1))).call (.volume channel b.volume))

/-- Starts the tone if sound and channel are there. -/
def start (b : Beeper) (h : Host) : Except Error Unit × Beeper × Host :=
  let (result, b, h) := b.withSound h
  if b.hasSound then
    let (b, h) := b.withChannel h
    (result, b.play h)
  else (result, b, h)

/-- How the tone on a channel is ended. -/
def ending (b : Beeper) (channel : Nat) (h : Host) : HostCall :=
  let remaining := b.minPlayMs - (h.now - b.startedAt)
  if 0 < b.minPlayMs ∧ 0 < remaining then .fadeout channel (max shortestFade remaining)
  else .stop channel

/-- Ends the tone if it sounds. -/
def stop (b : Beeper) (h : Host) : Beeper × Host :=
  match b.channel with
  | some channel =>
    if b.playing then ({ b with playing := false }, h.call (b.ending channel h))
    else (b, h)
  | none => ({ b with playing := false }, h)

/-- Starts or ends the tone. Only a tone whose samples cannot be built fails. -/
def setState (on : Bool) (b : Beeper) (h : Host) : Except Error Unit × Beeper × Host :=
  if !on then (.ok (), b.stop h)
  else if b.playing then (.ok (), b, h)
  else b.start h

/-- Ends the tone and gives sound and channel up. -/
def shutdown (b : Beeper) (h : Host) : Beeper × Host :=
  let (b, h) := b.stop h
  ({ b with channel := none, hasSound := false }, h)

end Beeper

end Chip8
