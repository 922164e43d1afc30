import Chip8.App.KeyQueue
import Chip8.App.StickInputs
import Chip8.Input.Keyboard
import Chip8.Machine.Session
import Chip8.Sound.Beeper
import Chip8.Text.Path
import Chip8.Video.Image

/-!
# The user interface

A window on a host: it turns the events of keyboard and game controller into key events, shows
pictures and plays the tone. A picture that equals the last one given is not drawn again.
-/

namespace Chip8

open Debug (Printer)

/-- What the random numbers start from. -/
inductive Seed where
  | unset
  | number (n : Int)
  /-- What is given is no number. -/
  | unusable
  deriving DecidableEq, Repr

/-- What the application is asked to do. -/
structure AppConfig where
  programPath : Option Text.Path := none
  scale : Int := 10
  dialect : Dialect := .legacy
  cyclesPerFrame : Int := defaultCyclesPerFrame
  frameRate : Int := 60
  fullscreen : Bool := false
  gamepadEnabled : Bool := true
  stickIndex : Int := 0
  palette : String := "mono"
  volume : Number.Scalar := Beeper.standardVolume
  seed : Seed := .unset
  deriving DecidableEq, Repr

/-- A game controller that is open. -/
structure OpenStick where
  index : Nat
  instanceId : Reading
  deriving Repr

/-- The state of the user interface. -/
structure Ui where
  config : AppConfig
  palette : Palette
  host : Host
  hasScreen : Bool
  beeper : Option Beeper
  queue : KeyQueue
  keyboard : Keyboard
  gamepad : Gamepad
  stick : Option OpenStick
  inputs : StickInputs
  /-- The picture given last: that picture itself, no copy of it. -/
  lastFrame : Option Grid

namespace Ui

/-- The user interface at its start, without a window. -/
def create (config : AppConfig) (host : Host) : Except Error Ui :=
  match Palette.find? config.palette with
  | none => .error (.unknownPalette config.palette)
  | some palette =>
    .ok
      { config, palette, host
        hasScreen := false
        beeper := none
        queue := .start
        keyboard := .released
        gamepad := { keys := {} }
        stick := none
        inputs := {}
        lastFrame := none }

def call (c : HostCall) (u : Ui) : Ui := { u with host := u.host.call c }

/-! ## Keys -/

def onKeyboard {α : Type} (a : Action (Keyboard × KeyQueue) α) : Action Ui α :=
  a.onPart (fun u => (u.keyboard, u.queue))
    fun (keyboard, queue) u => { u with keyboard, queue }

def onGamepad {α : Type} (a : Action (Gamepad × KeyQueue) α) : Action Ui α :=
  a.onPart (fun u => (u.gamepad, u.queue))
    fun (gamepad, queue) u => { u with gamepad, queue }

/-- A source holds a key or lets it go. -/
def setKey (index : Int) (pressed : Bool) : Action Ui Unit := fun u =>
  let (result, queue) := u.queue.setKey index pressed
  ⟨result, { u with queue }, []⟩

/-- The user wants to quit. -/
def pushQuit : Action Ui Unit := modify fun u => { u with queue := u.queue.push .quit }

/-- A key of the host goes down or up. Only a text names a key. -/
def handleKey (dbg : Printer) (key : Reading) (pressed : Bool) : Action Ui Unit := do
  Action.say dbg "input" "event=%s pressed=%s" [key.label, .flag pressed]
  match key with
  | .text name =>
    let _ ← onKeyboard (if pressed then Keyboard.press dbg name else Keyboard.release dbg name)
  | _ => throw (.memberLacking key.kind "lower")

/-! ## Game controllers -/

/-- The inputs of the game controller go back to neutral. -/
def resetStickInputs (dbg : Printer) : Action Ui Unit := do
  modify fun u => { u with inputs := {} }
  onGamepad (Gamepad.reset dbg)

/-- The gamepad follows the inputs of the game controller. Inputs that make no sense are kept all
the same. -/
def updateGamepad (dbg : Printer) : Action Ui Unit := do
  let inputs := (← get).inputs
  onGamepad (Gamepad.setDirections dbg (← liftExcept inputs.directions))
  onGamepad (Gamepad.setButton dbg !inputs.buttons.isEmpty)

/-- The number of the game controller to open: the one wanted if there is one, else the first. If
none is wanted, the configuration wants one. -/
def stickToOpen (u : Ui) (wanted : Reading) : Except Error Nat := do
  let wanted := if wanted.same .nothing then .whole u.config.stickIndex else wanted
  return (← wanted.index? u.host.sticks.length).getD 0

/-- Opens a game controller that answers. -/
def takeStick (dbg : Printer) (index : Nat) (info : StickInfo) : Action Ui Unit := do
  modify fun u => { u.call (.openStick index) with stick := some ⟨index, info.instanceId⟩ }
  resetStickInputs dbg
  Action.say dbg "input" "joystick_attached index=%d name=%s" [.own index, info.name.label]

/-- Opens a game controller, if there is one that can be opened. -/
def openStick (dbg : Printer) (wanted : Reading) : Action Ui Unit := do
  let u ← get
  match u.host.stickError, u.host.sticks with
  | some reason, _ => Action.say dbg "input" "joystick_init_failed=%s" [.text reason]
  | none, [] => Action.say dbg "input" "joystick_none_available" []
  | none, first :: _ =>
    let index ← liftExcept (u.stickToOpen wanted)
    let info := u.host.sticks.getD index first
    match info.error with
    | some reason =>
      Action.say dbg "input" "joystick_open_failed index=%d error=%s" [.own index, .text reason]
    | none => takeStick dbg index info

/-- Closes the game controller that is open. -/
def detachStick (dbg : Printer) : Action Ui Unit := do
  match (← get).stick with
  | none => pure ()
  | some stick =>
    Action.say dbg "input" "joystick_detached id=%s" [stick.instanceId.label]
    modify fun u => { u.call (.closeStick stick.index) with stick := none }
    resetStickInputs dbg

/-- The open game controller reports a change. -/
def applyStick (dbg : Printer) (change : StickChange) : Action Ui Unit := do
  match change with
  | .removed => detachStick dbg
  | change =>
    match ← liftExcept ((← get).inputs.apply change) with
    | none => pure ()
    | some inputs =>
      modify fun u => { u with inputs }
      updateGamepad dbg

/-- Whether a report comes from the game controller that is open. -/
def isOpen (instanceId : Reading) (u : Ui) : Bool :=
  !instanceId.same .nothing && u.stick.any fun stick => instanceId.same stick.instanceId

/-- A game controller is there or reports a change. Only the open one counts. -/
def handleStick (dbg : Printer) (event : HostEvent) : Action Ui Unit := do
  let u ← get
  match event with
  | .stickAdded index => if u.stick.isNone then openStick dbg index
  | .stick instanceId change =>
    if u.isOpen instanceId then applyStick dbg change
  | _ => pure ()

/-! ## Events -/

def handleEvent (dbg : Printer) (event : HostEvent) : Action Ui Unit := do
  match event with
  | .quit => pushQuit
  | .keyDown key =>
    let key ← liftExcept (Reading.need "key" key)
    if key.same (.text "escape") then pushQuit else handleKey dbg key true
  | .keyUp key => handleKey dbg (← liftExcept (Reading.need "key" key)) false
  | event => if (← get).config.gamepadEnabled then handleStick dbg event

def handleEvents (dbg : Printer) : List HostEvent → Action Ui Unit
  | [] => pure ()
  | event :: events => do
    handleEvent dbg event
    handleEvents dbg events

/-- Asks the host for events. -/
def pump (dbg : Printer) : Action Ui Unit := do
  let (events, host) := (← get).host.takeEvents
  modify fun u => { u with host }
  handleEvents dbg events

/-- The next input event. The host is asked only if none waits. -/
def poll (dbg : Printer) : Action Ui (Option InputEvent) := do
  if (← get).queue.events.isEmpty then pump dbg
  modifyGet fun u =>
    let (event, queue) := u.queue.pop
    (event, { u with queue })

/-- The most key events that a host event can add: a source may let go all it holds and hold all
its keys, twice. -/
def eventYield (u : Ui) : Nat := 2 * (max u.gamepad.held.length 5 + 5)

/-- A bound on the input that waits in the queue and at the host. -/
def backlog (u : Ui) : Nat :=
  u.host.batches.foldr (fun batch waiting => 1 + u.eventYield * batch.length + waiting)
    u.queue.events.length

/-! ## Picture and tone -/

/-- The screen of the given size. -/
def setMode (width height : Int) (fullscreen : Bool) (u : Ui) : Ui :=
  { u.call (.setMode width height fullscreen) with hasScreen := true }

def onHost (f : Host → Except Error Unit × Host) : Action Ui Unit := fun u =>
  ⟨(f u.host).1, { u with host := (f u.host).2 }, []⟩

/-- Shows an image in the window. -/
def present (image : Image) : Action Ui Unit := do
  if !(← get).host.loadable then throw (.libraryMissing .surface)
  onHost (·.makeSurface image)
  onHost Host.blit
  onHost Host.flip

/-- Shows a picture, unless there is no screen or the picture equals the last one. -/
def draw (grid : Grid) : Action Ui Unit := fun u =>
  if !u.hasScreen || u.lastFrame = some grid then .done () u []
  else
    let u := { u with lastFrame := some grid }
    match Image.render u.host.room u.palette grid u.config.scale with
    | .error e => .failed e u []
    | .ok image => (present image).run u

/-- The picture given last is changed by whoever gave it. -/
def alterLast (grid : Grid) (u : Ui) : Ui := { u with lastFrame := u.lastFrame.map fun _ => grid }

/-- Starts or ends the tone. Only a tone whose samples cannot be built fails. -/
def setTone (on : Bool) : Action Ui Unit := fun u =>
  match u.beeper with
  | none => .done () u []
  | some beeper =>
    let (result, beeper, host) := beeper.setState on u.host
    ⟨result, { u with beeper := some beeper, host }, []⟩

/-- Makes a beeper for a mixer that is ready. -/
def makeBeeper (dbg : Printer) (rate : Int) : Action Ui Unit := do
  let u ← get
  match Beeper.create rate Beeper.standardFrequency u.config.volume Beeper.standardPlayMs u.host with
  | .ok beeper => set { u with beeper := some beeper }
  | .error e =>
    set { u with beeper := none }
    Action.say dbg "audio" "beeper_init_failed=%s" [.text e.message]

/-- Makes the mixer ready if it is not. -/
def readyMixer (dbg : Printer) : Action Ui Unit := do
  let u ← get
  if u.host.mixer.rate.isNone then
    let (failure, host) := u.host.initMixer 44100 (-16) 1
    set { u with host }
    match failure with
    | some reason => Action.say dbg "audio" "mixer_init_failed=%s" [.text reason]
    | none => pure ()

/-- Prepares the tone. Without a mixer there is none. -/
def initAudio (dbg : Printer) : Action Ui Unit := do
  readyMixer dbg
  match (← get).host.mixer.rate with
  | none => Action.say dbg "audio" "mixer_unavailable" []
  | some rate => makeBeeper dbg rate

instance : Frontend Ui where
  draw := draw
  poll := poll
  setTone := setTone
  backlog := backlog

end Ui

end Chip8
