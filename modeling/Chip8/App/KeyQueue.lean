import Chip8.Frontend
import Chip8.Input.Keypad

/-!
# Key queues

Keys that several sources may hold at once, and the events that wait to be delivered. A key goes
down when the first source holds it and up when the last one lets go; only these changes are
queued. Keys are counted in sixteen slots, which may also be numbered from `-16` to `-1`; an event
carries the number that was given.
-/

namespace Chip8

open Debug (Printer)

/-- The number of holds of each key and the events that wait, first come first. -/
structure KeyQueue where
  holds : Vector Int 16
  events : List InputEvent
  deriving DecidableEq, Repr

namespace KeyQueue

/-- No key is held, nothing waits. -/
def start : KeyQueue := ⟨Vector.replicate 16 0, []⟩

def slot? (index : Int) : Option Key :=
  if index < 0 then Keypad.key? (index + 16) else Keypad.key? index

/-- The slot of a number, or what is wrong with the number. -/
def slot (missing : Error) (index : Int) : Except Error Key :=
  match slot? index with
  | some slot => .ok slot
  | none =>
    .error (if -0x8000000000000000 ≤ index ∧ index < 0x8000000000000000 then missing
      else .numberBeyondWord)

/-- How often the key of a slot is held. -/
def count (q : KeyQueue) (slot : Key) : Int :=
  have h : slot.val < 16 := slot.val_lt
  q.holds[slot.val]

def put (q : KeyQueue) (slot : Key) (n : Int) : KeyQueue :=
  { q with holds := q.holds.set slot.val n slot.val_lt }

/-- One more event waits. -/
def push (q : KeyQueue) (event : InputEvent) : KeyQueue := { q with events := q.events ++ [event] }

def hold (q : KeyQueue) (slot : Key) (index : Int) : KeyQueue :=
  let n := q.count slot
  let q := q.put slot (n + 1)
  if n = 0 then q.push (.key index true) else q

/-- One hold less, if there is one. -/
def letGo (q : KeyQueue) (slot : Key) (index : Int) : KeyQueue :=
  let n := q.count slot
  if 0 < n then
    let q := q.put slot (n - 1)
    if n = 1 then q.push (.key index false) else q
  else q

/-- A source holds a key or lets it go. -/
def setKey (index : Int) (pressed : Bool) (q : KeyQueue) : Except Error Unit × KeyQueue :=
  match slot .noSuchCounter index with
  | .error e => (.error e, q)
  | .ok slot => (.ok (), if pressed then q.hold slot index else q.letGo slot index)

/-- Takes the first event. -/
def pop (q : KeyQueue) : Option InputEvent × KeyQueue :=
  match q.events with
  | [] => (none, q)
  | event :: events => (some event, { q with events })

theorem count_put (q : KeyQueue) (slot other : Key) (n : Int) :
    (q.put slot n).count other = if slot = other then n else q.count other := by
  simp [count, put, Vector.getElem_set, Fin.ext_iff]

instance : KeySink KeyQueue where
  setKey _ index pressed q := ⟨(q.setKey index pressed).1, (q.setKey index pressed).2, []⟩

end KeyQueue

end Chip8
