import Chip8.Outcome

/-!
# Keypad

Sixteen keys that are up or down, and the interface of whatever takes the changes of keys.
-/

namespace Chip8

open Debug (Printer)

abbrev Key := Fin 16

theorem Key.val_lt (key : Key) : key.val < 16 := key.isLt

/-- Whatever takes the changes of keys. A sink need not accept every number of a key. -/
class KeySink (S : Type) where
  setKey : Printer → Int → Bool → S → Outcome S Unit

/-- The keys, each down or up. -/
structure Keypad where
  down : Vector Bool 16
  deriving DecidableEq, Repr

namespace Keypad

/-- All keys up. -/
def released : Keypad := ⟨Vector.replicate 16 false⟩

def isDown (k : Keypad) (key : Key) : Bool :=
  have h : key.val < 16 := key.val_lt
  k.down[key.val]

def put (k : Keypad) (key : Key) (pressed : Bool) : Keypad := ⟨k.down.set key.val pressed key.val_lt⟩

def key? (index : Int) : Option Key :=
  if h : 0 ≤ index ∧ index < 16 then some ⟨index.toNat, by omega⟩ else none

/-- Changes a key, and whether that made a difference. -/
def setKey (dbg : Printer) (index : Int) (pressed : Bool) (k : Keypad) :
    Outcome Keypad Bool :=
  match key? index with
  | none => .failed (.keyOutOfRange index) k []
  | some key =>
    ((Action.say dbg "input" "key=%X pressed=%s" [.own index, .flag pressed]).run
      (k.put key pressed)).map fun _ => k.isDown key != pressed

/-- Whether the key of the low four bits of a number is down. -/
def isPressed (k : Keypad) (index : Int) : Bool :=
  k.isDown ⟨(index % 16).toNat, by omega⟩

/-- The lowest key that is down. -/
def firstPressed (k : Keypad) : Option Key := (List.finRange 16).find? k.isDown

/-- Whether a key is down. -/
def anyPressed (k : Keypad) : Bool := k.down.toArray.any id

/-- Releases the given keys in turn, and the keys for which that made a difference. -/
def releaseAll (dbg : Printer) : List Key → Keypad → Outcome Keypad (List Key)
  | [], k => .done [] k []
  | key :: keys, k =>
    (k.setKey dbg key.val false).andThen fun changed k =>
      (releaseAll dbg keys k).map fun rest => if changed then key :: rest else rest

/-- Releases every key, and the keys that were down. -/
def reset (dbg : Printer) (k : Keypad) : Outcome Keypad (List Key) :=
  releaseAll dbg (List.finRange 16) k

@[simp] theorem isDown_put_self (k : Keypad) (key : Key) (pressed : Bool) :
    (k.put key pressed).isDown key = pressed := by
  simp [isDown, put]

theorem isDown_put_of_ne (k : Keypad) {key other : Key} (pressed : Bool) (h : key ≠ other) :
    (k.put key pressed).isDown other = k.isDown other := by
  simp [isDown, put, Fin.val_ne_of_ne h]

instance : KeySink Keypad where
  setKey dbg index pressed k := (k.setKey dbg index pressed).map fun _ => ()

end Keypad

/-! ## Listeners -/

/-- A keypad with listeners, each known by a name and in the order in which they came. -/
structure WatchedKeypad where
  keypad : Keypad
  listeners : List String
  deriving DecidableEq, Repr

namespace WatchedKeypad

/-- All keys up, no listeners. -/
def start : WatchedKeypad := ⟨.released, []⟩

/-- A change of keys as each listener hears of it. -/
def hear (w : WatchedKeypad) (changes : List (Int × Bool)) : List (String × Int × Bool) :=
  changes.flatMap fun change => w.listeners.map (·, change)

/-- Changes a key, and what the listeners hear. -/
def setKey (dbg : Printer) (index : Int) (pressed : Bool) (w : WatchedKeypad) :
    Outcome WatchedKeypad (List (String × Int × Bool)) :=
  ((w.keypad.setKey dbg index pressed).map fun changed =>
    w.hear (if changed then [(index, pressed)] else [])).mapState ({ w with keypad := · })

/-- Releases every key, and what the listeners hear. -/
def reset (dbg : Printer) (w : WatchedKeypad) :
    Outcome WatchedKeypad (List (String × Int × Bool)) :=
  ((w.keypad.reset dbg).map fun keys =>
    w.hear (keys.map fun key => ((key.val : Int), false))).mapState ({ w with keypad := · })

def listen (name : String) (w : WatchedKeypad) : WatchedKeypad :=
  { w with listeners := w.listeners ++ [name] }

end WatchedKeypad

/-! ## Recorded calls -/

/-- A keypad that records what it is told before it accepts or refuses. -/
structure RecordedKeypad where
  keypad : Keypad
  calls : List (Int × Bool)
  deriving DecidableEq, Repr

namespace RecordedKeypad

/-- All keys up, nothing recorded. -/
def start : RecordedKeypad := ⟨.released, []⟩

end RecordedKeypad

instance : KeySink RecordedKeypad where
  setKey dbg index pressed r :=
    (KeySink.setKey dbg index pressed r.keypad).mapState
      fun keypad => ⟨keypad, r.calls ++ [(index, pressed)]⟩

end Chip8
