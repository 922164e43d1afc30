import Chip8.Input.Keypad

/-!
# Keyboard

The keys of a host keyboard that stand for keys of the keypad, by name:

    1 2 3 4        1 2 3 C
    q w e r        4 5 6 D
    a s d f        7 8 9 E
    z x c v        A 0 B F

A key of the keypad is held as often as its names were pressed. Every press is passed on, of the
releases only the last one.
-/

namespace Chip8

open Debug (Printer)

/-- How often keys of the keypad are held. Of a key that nobody holds there is no entry. -/
structure Keyboard where
  holds : Vector (Option Nat) 16
  deriving DecidableEq, Repr

namespace Keyboard

/-- No key is held. -/
def released : Keyboard := ⟨Vector.replicate 16 none⟩

/-- The names of the keypad's keys. -/
def layout : List (String × Key) :=
  [("1", 0x1), ("2", 0x2), ("3", 0x3), ("4", 0xC),
   ("q", 0x4), ("w", 0x5), ("e", 0x6), ("r", 0xD),
   ("a", 0x7), ("s", 0x8), ("d", 0x9), ("f", 0xE),
   ("z", 0xA), ("x", 0x0), ("c", 0xB), ("v", 0xF)]

/-- Second names of keys: the digits of the number block. -/
def aliases : List (String × String) := [("[1]", "1"), ("[2]", "2"), ("[3]", "3"), ("[4]", "4")]

/-- The key of the keypad that a host key stands for. Capitals count as small letters; of the
letters outside A to Z none stands for a key. -/
def lookup (name : String) : Option Key :=
  let small := String.ofList (name.toList.map Char.toLower)
  layout.lookup ((aliases.lookup small).getD small)

/-- The entry of a key. -/
def entry (k : Keyboard) (key : Key) : Option Nat :=
  have h : key.val < 16 := key.val_lt
  k.holds[key.val]

/-- How often a key is held. -/
def count (k : Keyboard) (key : Key) : Nat := (k.entry key).getD 0

def put (k : Keyboard) (key : Key) (n : Nat) : Keyboard :=
  ⟨k.holds.set key.val (some n) key.val_lt⟩

def drop (k : Keyboard) (key : Key) : Keyboard := ⟨k.holds.set key.val none key.val_lt⟩

theorem entry_put (k : Keyboard) (key other : Key) (n : Nat) :
    (k.put key n).entry other = if key = other then some n else k.entry other := by
  simp [entry, put, Vector.getElem_set, Fin.ext_iff]

theorem entry_drop (k : Keyboard) (key other : Key) :
    (k.drop key).entry other = if key = other then none else k.entry other := by
  simp [entry, drop, Vector.getElem_set, Fin.ext_iff]

theorem count_put (k : Keyboard) (key other : Key) (n : Nat) :
    (k.put key n).count other = if key = other then n else k.count other := by
  rw [count, entry_put]
  split <;> rfl

theorem count_drop (k : Keyboard) (key other : Key) :
    (k.drop key).count other = if key = other then 0 else k.count other := by
  rw [count, entry_drop]
  split <;> rfl

/-- The entries, ascending by keys. -/
def active (k : Keyboard) : List (Key × Nat) :=
  (List.finRange 16).filterMap fun key => (k.entry key).map (key, ·)

variable {S : Type} [KeySink S]

/-- Passes a change of a key on to the sink and answers that the key was known. -/
def passOn (dbg : Printer) (key : Key) (pressed : Bool) (k : Keyboard) (sink : S) :
    Outcome (Keyboard × S) Bool :=
  ((KeySink.setKey dbg key.val pressed sink).map fun _ => true).mapState (k, ·)

/-- A host key goes down. The answer tells whether it stands for a key. -/
def press (dbg : Printer) (name : String) : Action (Keyboard × S) Bool := fun (k, sink) =>
  match lookup name with
  | none =>
    ((Action.say dbg "input" "unmapped_press=%s" [.text name]).run (k, sink)).map fun _ => false
  | some key => passOn dbg key true (k.put key (k.count key + 1)) sink

/-- A host key goes up. The answer tells whether it stands for a key. -/
def release (dbg : Printer) (name : String) : Action (Keyboard × S) Bool := fun (k, sink) =>
  match lookup name with
  | none =>
    ((Action.say dbg "input" "unmapped_release=%s" [.text name]).run (k, sink)).map fun _ => false
  | some key =>
    if k.count key ≤ 1 then passOn dbg key false (k.drop key) sink
    else .done true (k.put key (k.count key - 1), sink) []

/-- Releases the given keys at the sink, in turn. -/
def releaseAll (dbg : Printer) : List Key → Action S Unit
  | [], sink => .done () sink []
  | key :: keys, sink =>
    (KeySink.setKey dbg key.val false sink).andThen fun _ sink => releaseAll dbg keys sink

/-- Releases every key that has an entry. -/
def reset (dbg : Printer) : Action (Keyboard × S) Unit := fun (k, sink) =>
  let o := releaseAll dbg (k.active.map Prod.fst) sink
  match o.result with
  | .ok () => o.mapState (released, ·)
  | .error _ => o.mapState (k, ·)

end Keyboard

end Chip8
