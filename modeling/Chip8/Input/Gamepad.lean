import Chip8.Input.Keypad

/-!
# Gamepad

A game controller with four directions and a button, each of which stands for a key of the keypad.
After each change of the inputs the sink is told of the keys that are no longer held, and then of
those that are held anew, both ascending. Two inputs may stand for one key; it is held while
either is.
-/

namespace Chip8

open Debug (Printer)

/-- The keys that the inputs stand for. They need not be keys of the keypad. -/
structure GamepadKeys where
  up : Int := 2
  down : Int := 8
  left : Int := 4
  right : Int := 6
  button : Int := 5
  deriving DecidableEq, Repr

/-- A change of directions; a direction that is not given stays as it is. -/
structure Directions where
  left : Option Bool := none
  right : Option Bool := none
  up : Option Bool := none
  down : Option Bool := none
  deriving DecidableEq, Repr

/-- The inputs of a controller and the keys that the sink holds for it. -/
structure Gamepad where
  keys : GamepadKeys
  left : Bool := false
  right : Bool := false
  up : Bool := false
  down : Bool := false
  button : Bool := false
  /-- The keys last passed on in full, ascending. -/
  held : List Int := []
  deriving DecidableEq, Repr

namespace Gamepad

/-- A key put into its place among ascending keys. -/
def insertKey (key : Int) : List Int → List Int
  | [] => [key]
  | k :: ks => if key < k then key :: k :: ks else if key = k then k :: ks else k :: insertKey key ks

/-- The inputs with their keys. -/
def inputs (g : Gamepad) : List (Bool × Int) :=
  [(g.up, g.keys.up), (g.down, g.keys.down), (g.left, g.keys.left), (g.right, g.keys.right),
   (g.button, g.keys.button)]

/-- The keys that the inputs hold, ascending, each once. -/
def pressedKeys (g : Gamepad) : List Int :=
  g.inputs.foldr (fun input keys => if input.1 then insertKey input.2 keys else keys) []

/-- What the sink has to be told. -/
def pending (g : Gamepad) : List (Int × Bool) :=
  ((g.held.filter (· ∉ g.pressedKeys)).map (·, false)) ++
    (g.pressedKeys.filter (· ∉ g.held)).map (·, true)

/-- The controller with its button changed. -/
def withButton (pressed : Bool) (g : Gamepad) : Gamepad := { g with button := pressed }

/-- The controller with its directions changed. -/
def withDirections (d : Directions) (g : Gamepad) : Gamepad :=
  { g with
    left := d.left.getD g.left
    right := d.right.getD g.right
    up := d.up.getD g.up
    down := d.down.getD g.down }

/-- The controller with no input held. -/
def atRest (g : Gamepad) : Gamepad :=
  { g with left := false, right := false, up := false, down := false, button := false }

variable {S : Type} [KeySink S]

/-- Passes changes of keys on to the sink, in turn, up to the first that it refuses. -/
def deliver (dbg : Printer) : List (Int × Bool) → Action S Unit
  | [], sink => .done () sink []
  | (key, pressed) :: rest, sink =>
    (KeySink.setKey dbg key pressed sink).andThen fun _ sink => deliver dbg rest sink

/-- Tells the sink what has changed. The held keys are noted only once all of it was accepted. -/
def sync (dbg : Printer) : Action (Gamepad × S) Unit := fun (g, sink) =>
  let o := deliver dbg g.pending sink
  match o.result with
  | .ok () => o.mapState ({ g with held := g.pressedKeys }, ·)
  | .error _ => o.mapState (g, ·)

def setButton (dbg : Printer) (pressed : Bool) : Action (Gamepad × S) Unit :=
  fun (g, sink) => sync dbg (g.withButton pressed, sink)

def setDirections (dbg : Printer) (d : Directions) : Action (Gamepad × S) Unit :=
  fun (g, sink) => sync dbg (g.withDirections d, sink)

/-- All inputs are let go. -/
def reset (dbg : Printer) : Action (Gamepad × S) Unit :=
  fun (g, sink) => sync dbg (g.atRest, sink)

end Gamepad

/-! ## Several sinks -/

/-- A controller and the sinks that it can be plugged into, by number. -/
structure GamepadStation (S : Type) where
  pad : Gamepad
  sinks : List S
  plugged : Option Nat

namespace GamepadStation

/-- What can happen to the controller of a station. -/
inductive Event where
  | attach (sink : Nat)
  | button (pressed : Bool)
  | directions (d : Directions)
  | reset
  deriving DecidableEq, Repr

variable {S : Type} [KeySink S]

/-- Brings the sink in which the controller is plugged up to date. -/
def sync (dbg : Printer) : Action (GamepadStation S) Unit := fun s =>
  match s.plugged with
  | none => .done () s []
  | some i =>
    match s.sinks[i]? with
    | none => .done () s []
    | some sink =>
      (Gamepad.sync dbg (s.pad, sink)).mapState fun (pad, sink) =>
        { s with pad, sinks := s.sinks.set i sink }

/-- The effect of an event. A controller that is attached holds nothing yet on its new sink, and
the sink that it leaves is told nothing. -/
def apply (dbg : Printer) : Event → Action (GamepadStation S) Unit
  | .attach i, s => sync dbg { s with plugged := some i, pad := { s.pad with held := [] } }
  | .button pressed, s => sync dbg { s with pad := s.pad.withButton pressed }
  | .directions d, s => sync dbg { s with pad := s.pad.withDirections d }
  | .reset, s => sync dbg { s with pad := s.pad.atRest }

end GamepadStation

end Chip8
