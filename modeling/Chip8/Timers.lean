import Chip8.Byte

/-!
# Timers

The delay timer and the sound timer, both counting down to zero. A tone sounds while the sound
timer is not zero. Whoever follows the tone is told of each crossing between zero and not zero:
the operations answer with the crossing, if there was one.
-/

namespace Chip8

/-- The two counters. -/
structure Timers where
  delay : Nat
  sound : Nat
  deriving DecidableEq, Repr

namespace Timers

def zero : Timers := ⟨0, 0⟩

def toneActive (t : Timers) : Bool := 0 < t.sound

/-- Sets the delay timer to the low byte of `value`. -/
def setDelay (value : Int) (t : Timers) : Timers := { t with delay := lowByte value }

/-- What the change from `old` to `new` means for the tone. -/
def crossing (old new : Timers) : Option Bool :=
  if old.toneActive = new.toneActive then none else some new.toneActive

/-- Sets the sound timer to the low byte of `value`. -/
def setSound (value : Int) (t : Timers) : Timers × Option Bool :=
  let next := { t with sound := lowByte value }
  (next, crossing t next)

/-- Both timers go down by one unless they are zero. -/
def tick (t : Timers) : Timers × Option Bool :=
  let next : Timers := ⟨t.delay - 1, t.sound - 1⟩
  (next, crossing t next)

/-- Both timers go to zero. -/
def reset (t : Timers) : Timers × Option Bool := (zero, crossing t zero)

/-- A crossing as a list of events. -/
def events (crossing : Option Bool) : List Bool := crossing.toList

theorem crossing_eq_some {old new : Timers} {active : Bool}
    (h : crossing old new = some active) :
    new.toneActive = active ∧ old.toneActive = !active := by
  unfold crossing at h
  split at h
  · cases h
  · cases h
    refine ⟨rfl, ?_⟩
    cases ho : old.toneActive <;> cases hn : new.toneActive <;> simp_all

end Timers

/-! ## Listeners -/

/-- Timers with listeners, each known by a name and in the order in which they came. -/
structure WatchedTimers where
  timers : Timers
  listeners : List String
  deriving DecidableEq, Repr

namespace WatchedTimers

/-- What can happen to watched timers. -/
inductive Event where
  | setDelay (value : Int)
  | setSound (value : Int)
  | tick
  | reset
  | listen (name : String)
  deriving DecidableEq, Repr

/-- Timers at rest without listeners. -/
def start : WatchedTimers := ⟨.zero, []⟩

/-- The timers after a change, and the crossing as each listener hears of it. -/
def change (w : WatchedTimers) (next : Timers × Option Bool) :
    WatchedTimers × List (String × Bool) :=
  ({ w with timers := next.1 },
    (Timers.events next.2).flatMap fun active => w.listeners.map (·, active))

/-- The effect of an event, and what the listeners hear. -/
def apply (w : WatchedTimers) : Event → WatchedTimers × List (String × Bool)
  | .setDelay value => w.change (w.timers.setDelay value, none)
  | .setSound value => w.change (w.timers.setSound value)
  | .tick => w.change w.timers.tick
  | .reset => w.change w.timers.reset
  | .listen name => ({ w with listeners := w.listeners ++ [name] }, [])

end WatchedTimers

end Chip8
