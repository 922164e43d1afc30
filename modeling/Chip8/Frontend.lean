import Chip8.Outcome
import Chip8.Video.FrameBuffer

/-!
# Frontends

A frontend shows the picture, delivers input and sounds the tone. The headless frontend only
records: it replays the input that was queued and remembers what it was given.
-/

namespace Chip8

open Debug (Printer)

inductive InputEvent where
  | key (index : Int) (pressed : Bool)
  | quit
  deriving DecidableEq, Repr

/-- What a machine expects of its frontend. -/
class Frontend (F : Type) where
  /-- Shows a picture. -/
  draw : Grid → Action F Unit
  /-- The next input event, if there is one. -/
  poll : Printer → Action F (Option InputEvent)
  /-- Starts or ends the tone. -/
  setTone : Bool → Action F Unit
  /-- No fewer than the times that polling can go on before it finds nothing or a wish to quit. -/
  backlog : F → Nat

structure Headless where
  /-- The input that waits, first come first. -/
  queue : List InputEvent
  framesDrawn : Nat
  lastFrame : Option Grid
  toneOn : Bool
  toneChanges : List Bool
  deriving DecidableEq, Repr

namespace Headless

/-- Nothing queued, nothing recorded. -/
def start : Headless := ⟨[], 0, none, false, []⟩

/-- Queues an event. -/
def push (event : InputEvent) (h : Headless) : Headless := { h with queue := h.queue ++ [event] }

/-- Records a picture. -/
def draw (grid : Grid) (h : Headless) : Headless :=
  { h with framesDrawn := h.framesDrawn + 1, lastFrame := some grid }

/-- Takes the first event. -/
def poll (h : Headless) : Option InputEvent × Headless :=
  match h.queue with
  | [] => (none, h)
  | event :: queue => (some event, { h with queue })

/-- Records a change of the tone. -/
def setTone (on : Bool) (h : Headless) : Headless :=
  { h with toneOn := on, toneChanges := h.toneChanges ++ [on] }

instance : Frontend Headless where
  draw grid := modify (draw grid)
  poll _ := modifyGet poll
  setTone on := modify (setTone on)
  backlog h := h.queue.length

end Headless

end Chip8
