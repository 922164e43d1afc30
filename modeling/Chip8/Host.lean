import Chip8.Host.Reading
import Chip8.Video.Image

/-!
# Hosts

The multimedia library under the user interface, as a value: which input it delivers, how its mixer
and its game controllers answer, what time it is, and which calls it has received.
-/

namespace Chip8

/-- What a game controller reports. Any part of a report may be lacking. -/
inductive StickChange where
  | removed
  | axis (number value : Option Reading)
  | hat (position : Option Reading)
  | buttonDown (number : Option Reading)
  | buttonUp (number : Option Reading)
  deriving Repr

inductive HostEvent where
  | quit
  | keyDown (key : Option Reading)
  | keyUp (key : Option Reading)
  /-- A game controller was plugged in. -/
  | stickAdded (index : Reading)
  /-- A game controller reports something. -/
  | stick (instanceId : Reading) (change : StickChange)
  | other
  deriving Repr

inductive HostCall where
  | preInit (rate size channels buffer : Int)
  | init
  | quit
  | caption (text : String)
  | mixerInit (rate size channels : Int)
  | sound (byteLength : Nat)
  | findChannel (force : Bool)
  | play (channel : Nat) (loops : Int)
  | volume (channel : Nat) (value : Rat)
  | fadeout (channel : Nat) (ms : Int)
  | stop (channel : Nat)
  | openStick (index : Nat)
  | closeStick (index : Nat)
  | setMode (width height : Int) (fullscreen : Bool)
  | surface (image : Image)
  | blit (x y : Int)
  | flip
  | tick (frameRate : Int)
  deriving DecidableEq

structure Mixer where
  /-- The sample rate, once the mixer is ready. -/
  rate : Option Int
  /-- Why the mixer cannot be made ready. -/
  initError : Option String
  /-- The sample rate of a mixer that was made ready. -/
  rateAfterInit : Option Int
  /-- Whether a sound can be made, by the number of sounds asked for before. -/
  makesSound : Nat → Bool
  /-- The channel that is found, by the number of searches before. -/
  channelAt : Nat → Option Nat
  soundsAsked : Nat
  searches : Nat

/-- A mixer whose first searches for a channel, as many as `missing`, find none. -/
def Mixer.simple (rate : Option Int) (initError : Option String) (rateAfterInit : Option Int)
    (makesSounds : Bool) (missing : Nat) : Mixer :=
  { rate, initError, rateAfterInit
    makesSound := fun _ => makesSounds
    channelAt := fun n => if n < missing then none else some 0
    soundsAsked := 0
    searches := 0 }

/-- How the library answers when a picture is to be shown. Whatever it refuses has a reason. -/
structure Screen where
  /-- A surface of so many bytes with the given width and height. -/
  refusesSurface : (bytes width height : Nat) → Option LibraryError
  /-- A surface put onto the screen, by how often that was asked for before. -/
  refusesBlit : Nat → Option LibraryError
  /-- What is on the screen shown in the window, by how often that was asked for before. -/
  refusesFlip : Nat → Option LibraryError
  blitsAsked : Nat
  flipsAsked : Nat

/-- A screen that refuses nothing. -/
def Screen.willing : Screen := ⟨fun _ _ _ => none, fun _ => none, fun _ => none, 0, 0⟩

/-- A game controller. -/
structure StickInfo where
  instanceId : Reading
  name : Reading
  /-- Why it cannot be opened. -/
  error : Option String
  deriving Repr

/-- The multimedia library and what lies behind it. -/
structure Host where
  /-- Whether the library can be loaded. -/
  loadable : Bool
  /-- The room for the bytes of a picture. -/
  room : Room
  /-- The events that each question for events finds. -/
  batches : List (List HostEvent)
  /-- Whether the host asks to quit once the batches are used up. -/
  quitsAtEnd : Bool
  mixer : Mixer
  screen : Screen
  /-- Why the game controllers cannot be used. -/
  stickError : Option String
  sticks : List StickInfo
  /-- How long a frame lasts, in milliseconds. -/
  frameMs : Int
  /-- The time in milliseconds. -/
  now : Int
  calls : Array HostCall

namespace Host

/-- A host without the multimedia library. -/
def absent : Host :=
  { loadable := false
    room := .full
    batches := []
    quitsAtEnd := true
    mixer := .simple none none none false 0
    screen := .willing
    stickError := none
    sticks := []
    frameMs := 0
    now := 0
    calls := #[] }

def call (c : HostCall) (h : Host) : Host := { h with calls := h.calls.push c }

/-- The events that have come. -/
def takeEvents (h : Host) : List HostEvent × Host :=
  match h.batches with
  | batch :: batches => (batch, { h with batches })
  | [] => (if h.quitsAtEnd then [.quit] else [], h)

/-- One more batch of events to come. -/
def addEvents (events : List HostEvent) (h : Host) : Host :=
  { h with batches := h.batches ++ [events] }

/-- Time passes. -/
def advance (ms : Int) (h : Host) : Host := { h with now := h.now + ms }

/-- Waits for the end of a frame. -/
def tick (frameRate : Int) (h : Host) : Host := (h.call (.tick frameRate)).advance h.frameMs

/-- Makes a sound of samples of two bytes each; whether that succeeds. -/
def makeSound (samples : List Int) (h : Host) : Bool × Host :=
  let answer := h.mixer.makesSound h.mixer.soundsAsked
  let h := h.call (.sound (2 * samples.length))
  (answer, { h with mixer := { h.mixer with soundsAsked := h.mixer.soundsAsked + 1 } })

/-- Looks for a free channel. -/
def findChannel (h : Host) : Option Nat × Host :=
  let answer := h.mixer.channelAt h.mixer.searches
  let h := h.call (.findChannel true)
  (answer, { h with mixer := { h.mixer with searches := h.mixer.searches + 1 } })

/-- Makes the mixer ready, or tells why that fails. -/
def initMixer (rate size channels : Int) (h : Host) : Option String × Host :=
  let h := h.call (.mixerInit rate size channels)
  match h.mixer.initError with
  | some reason => (some reason, h)
  | none => (none, { h with mixer := { h.mixer with rate := h.mixer.rateAfterInit } })

/-! ## Pictures -/

/-- A call that the library may refuse. -/
def callUnless (refused : Option LibraryError) (c : HostCall) (h : Host) :
    Except Error Unit × Host :=
  match refused with
  | some e => (.error (.library e), h)
  | none => (.ok (), h.call c)

/-- Makes a surface of an image. -/
def makeSurface (image : Image) (h : Host) : Except Error Unit × Host :=
  h.callUnless (h.screen.refusesSurface image.pixels.size image.width image.height) (.surface image)

/-- Puts the surface onto the screen. -/
def blit (h : Host) : Except Error Unit × Host :=
  { h with screen := { h.screen with blitsAsked := h.screen.blitsAsked + 1 } }.callUnless
    (h.screen.refusesBlit h.screen.blitsAsked) (.blit 0 0)

/-- Shows in the window what is on the screen. -/
def flip (h : Host) : Except Error Unit × Host :=
  { h with screen := { h.screen with flipsAsked := h.screen.flipsAsked + 1 } }.callUnless
    (h.screen.refusesFlip h.screen.flipsAsked) .flip

end Host

end Chip8
