import Chip8.App.KeyQueue
import Chip8.Input.Gamepad
import Chip8.Input.Keyboard
import Chip8.Proofs.Debug.Inert

/-!
# Input that only speaks

Keyboard and gamepad tell a sink of keys and are inert over every sink that is (`KeySink.Inert`):
what they tell it, and what they note themselves, follows from the names and the sink's answers
alone. The keypad speaks of each change of a key, the key queue never does.
-/

namespace Chip8

open Debug (Printer Spoken)

/-! ## Sinks -/

/-- The printer decides nothing in the sink but which messages are printed. -/
def KeySink.Inert (S : Type) [KeySink S] : Prop :=
  ∀ (index : Int) (pressed : Bool) (sink : S),
    Outcome.Inert fun dbg => KeySink.setKey dbg index pressed sink

theorem Keypad.inert_setKey (k : Keypad) (index : Int) (pressed : Bool) :
    Outcome.Inert fun dbg => k.setKey dbg index pressed := by
  unfold setKey
  split
  · exact .failed _ k
  · exact (Action.Inert.say (.key index pressed) _).map _

theorem Keypad.inert_releaseAll : ∀ (keys : List Key) (k : Keypad),
    Outcome.Inert fun dbg => releaseAll dbg keys k
  | [], k => .done [] k
  | key :: keys, k =>
    (k.inert_setKey key.val false).andThen fun _ k => (inert_releaseAll keys k).map _

theorem Keypad.inert_reset (k : Keypad) : Outcome.Inert fun dbg => k.reset dbg :=
  inert_releaseAll (List.finRange 16) k

theorem Keypad.inert : KeySink.Inert Keypad := fun index pressed k =>
  (k.inert_setKey index pressed).map fun _ => ()

theorem KeyQueue.inert : KeySink.Inert KeyQueue := fun _ _ _ => .silent rfl

variable {S : Type} [KeySink S]

/-! ## Keyboard -/

namespace Keyboard

variable (hs : KeySink.Inert S)

include hs

theorem inert_passOn (key : Key) (pressed : Bool) (k : Keyboard) (sink : S) :
    Outcome.Inert fun dbg => passOn dbg key pressed k sink :=
  ((hs key.val pressed sink).map fun _ => true).mapState (k, ·)

theorem inert_press (name : String) : Action.Inert (press (S := S) · name) := by
  rintro ⟨k, sink⟩
  simp only [Action.run, press]
  cases lookup name with
  | none => exact (Action.Inert.say (.unmappedPress name) (k, sink)).map _
  | some key => exact inert_passOn hs key true _ sink

theorem inert_release (name : String) : Action.Inert (release (S := S) · name) := by
  rintro ⟨k, sink⟩
  simp only [Action.run, release]
  cases lookup name with
  | none => exact (Action.Inert.say (.unmappedRelease name) (k, sink)).map _
  | some key =>
    simp only
    split
    · exact inert_passOn hs key false _ sink
    · exact .done true _

theorem inert_releaseAll : ∀ keys : List Key, Action.Inert (releaseAll (S := S) · keys)
  | [], sink => .done () sink
  | key :: keys, sink =>
    (hs key.val false sink).andThen fun _ sink => inert_releaseAll keys sink

theorem inert_reset : Action.Inert (reset (S := S)) := by
  rintro ⟨k, sink⟩
  obtain ⟨result, sink, messages, hm, h⟩ := inert_releaseAll hs (k.active.map Prod.fst) sink
  simp only [Action.run] at h
  simp only [Action.run, reset, h]
  cases result with
  | ok _ => exact ⟨.ok (), (released, sink), messages, hm, fun _ => rfl⟩
  | error e => exact ⟨.error e, (k, sink), messages, hm, fun _ => rfl⟩

omit hs

/-- What can be asked of a keyboard and of the keypad under it. -/
inductive Request where
  | press (name : String)
  | release (name : String)
  | reset
  /-- A key of the keypad is changed past the keyboard. -/
  | key (index : Int) (pressed : Bool)
  /-- All keys of the keypad go up past the keyboard. -/
  | keysUp
  deriving DecidableEq, Repr

def respond (dbg : Printer) : Request → Action (Keyboard × Keypad) Answer
  | .press name, s => (press dbg name s).map .flag
  | .release name, s => (release dbg name s).map .flag
  | .reset, s => (reset dbg s).map fun _ => .nothing
  | .key index pressed, (k, pad) =>
    ((pad.setKey dbg index pressed).map fun _ => .nothing).mapState (k, ·)
  | .keysUp, (k, pad) => ((pad.reset dbg).map fun _ => .nothing).mapState (k, ·)

theorem inert_respond (r : Request) : Action.Inert (respond · r) := by
  rintro ⟨k, pad⟩
  cases r with
  | press name => exact (inert_press Keypad.inert name (k, pad)).map _
  | release name => exact (inert_release Keypad.inert name (k, pad)).map _
  | reset => exact (inert_reset Keypad.inert (k, pad)).map _
  | key index pressed => exact ((pad.inert_setKey index pressed).map _).mapState _
  | keysUp => exact (pad.inert_reset.map _).mapState _

end Keyboard

/-! ## Gamepad -/

namespace Gamepad

variable (hs : KeySink.Inert S)

include hs

theorem inert_deliver : ∀ changes : List (Int × Bool), Action.Inert (deliver (S := S) · changes)
  | [], sink => .done () sink
  | (key, pressed) :: rest, sink =>
    (hs key pressed sink).andThen fun _ sink => inert_deliver rest sink

theorem inert_sync : Action.Inert (sync (S := S)) := by
  rintro ⟨g, sink⟩
  obtain ⟨result, sink, messages, hm, h⟩ := inert_deliver hs g.pending sink
  simp only [Action.run] at h
  simp only [Action.run, sync, h]
  cases result with
  | ok _ => exact ⟨.ok (), ({ g with held := g.pressedKeys }, sink), messages, hm, fun _ => rfl⟩
  | error e => exact ⟨.error e, (g, sink), messages, hm, fun _ => rfl⟩

theorem inert_setButton (pressed : Bool) :
    Action.Inert (setButton (S := S) · pressed) := fun (g, sink) =>
  inert_sync hs (g.withButton pressed, sink)

theorem inert_setDirections (d : Directions) :
    Action.Inert (setDirections (S := S) · d) := fun (g, sink) =>
  inert_sync hs (g.withDirections d, sink)

theorem inert_reset : Action.Inert (reset (S := S)) := fun (g, sink) =>
  inert_sync hs (g.atRest, sink)

end Gamepad

end Chip8
