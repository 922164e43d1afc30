import Chip8.Input.Keyboard
import Chip8.Proofs.Input.Mirroring
import Chip8.Proofs.Machine.RefusedKeys

/-!
# Sources of keys

Keyboard and gamepad over a sink that takes every key of the keypad and keeps a property of its own
by that (`KeySink.Accepts`). What they tell it are keys of the keypad, so that none of their actions
is refused and all of them keep the property; of the gamepad this holds as long as its inputs stand
for keys of the keypad (`Gamepad.InRange`).
-/

namespace Chip8

open Debug (Printer)

/-- The sink takes every key of the keypad, and `P` holds of it behind that as before. -/
def KeySink.Accepts {S : Type} [KeySink S] (dbg : Printer) (P : S → Prop) : Prop :=
  ∀ (index : Int) (pressed : Bool) (sink : S), 0 ≤ index ∧ index < 16 → P sink →
    (KeySink.setKey dbg index pressed sink).Takes P

variable {S : Type} [KeySink S] {dbg : Printer} {P : S → Prop}

/-! ## Keyboard -/

namespace Keyboard

variable (hs : KeySink.Accepts dbg P)
include hs

theorem takes_passOn (key : Key) (pressed : Bool) (k : Keyboard) {sink : S} (h : P sink) :
    (passOn dbg key pressed k sink).Takes (P ·.2) :=
  ((hs _ pressed sink (Keypad.bounds_val key) h).map fun _ => true).mapState fun _ h => h

theorem takes_press (name : String) :
    (press dbg name : Action (Keyboard × S) Bool).Takes (P ·.2) := by
  rintro ⟨k, sink⟩ h
  simp only [Action.run, press_eq]
  cases lookup name with
  | none => exact .done h
  | some key => exact takes_passOn hs key true _ h

theorem takes_release (name : String) :
    (release dbg name : Action (Keyboard × S) Bool).Takes (P ·.2) := by
  rintro ⟨k, sink⟩ h
  simp only [Action.run, release_eq]
  cases lookup name with
  | none => exact .done h
  | some key =>
    simp only
    split
    · exact takes_passOn hs key false _ h
    · exact .done h

theorem takes_releaseAll (keys : List Key) : (releaseAll dbg keys : Action S Unit).Takes P := by
  induction keys with
  | nil => exact fun _ h => .done h
  | cons key keys ih =>
    exact fun sink h => (hs _ false sink (Keypad.bounds_val key) h).andThen fun _ _ hlater =>
      ih _ hlater

theorem takes_reset : (reset dbg : Action (Keyboard × S) Unit).Takes (P ·.2) := by
  rintro ⟨k, sink⟩ h
  have hall := takes_releaseAll hs (k.active.map Prod.fst) sink h
  simp only [Action.run, reset]
  split
  · exact hall.mapState fun _ h => h
  · exact hall.mapState fun _ h => h

end Keyboard

/-! ## Gamepad -/

namespace Gamepad

/-- All that the controller can tell of are keys of the keypad. -/
structure InRange (g : Gamepad) : Prop where
  onKeypad : g.keys.OnKeypad
  held : ∀ key ∈ g.held, 0 ≤ key ∧ key < 16

variable (hs : KeySink.Accepts dbg P)
include hs

theorem takes_deliver {changes : List (Int × Bool)} (hkeys : ∀ c ∈ changes, 0 ≤ c.1 ∧ c.1 < 16) :
    (deliver dbg changes : Action S Unit).Takes P := by
  induction changes with
  | nil => exact fun _ h => .done h
  | cons c rest ih =>
    obtain ⟨hkey, hrest⟩ := List.forall_mem_cons.mp hkeys
    exact fun sink h => (hs c.1 c.2 sink hkey h).andThen fun _ _ hlater => ih hrest _ hlater

theorem takes_sync :
    (sync dbg : Action (Gamepad × S) Unit).Takes fun s => s.1.InRange ∧ P s.2 := by
  rintro ⟨g, sink⟩ ⟨hg, h⟩
  have hall := takes_deliver hs (pending_onKeypad hg.onKeypad hg.held) sink h
  have hnoted : { g with held := g.pressedKeys }.InRange :=
    ⟨hg.onKeypad, fun key hkey => onKeypad_of_mem_pressedKeys hg.onKeypad hkey⟩
  simp only [Action.run, sync]
  split
  · exact hall.mapState fun _ h => ⟨hnoted, h⟩
  · exact hall.mapState fun _ h => ⟨hg, h⟩

theorem takes_setButton (pressed : Bool) :
    (setButton dbg pressed : Action (Gamepad × S) Unit).Takes fun s => s.1.InRange ∧ P s.2 :=
  fun (g, sink) ⟨hg, h⟩ => takes_sync hs (g.withButton pressed, sink) ⟨⟨hg.onKeypad, hg.held⟩, h⟩

theorem takes_setDirections (d : Directions) :
    (setDirections dbg d : Action (Gamepad × S) Unit).Takes fun s => s.1.InRange ∧ P s.2 :=
  fun (g, sink) ⟨hg, h⟩ => takes_sync hs (g.withDirections d, sink) ⟨⟨hg.onKeypad, hg.held⟩, h⟩

theorem takes_reset :
    (reset dbg : Action (Gamepad × S) Unit).Takes fun s => s.1.InRange ∧ P s.2 :=
  fun (g, sink) ⟨hg, h⟩ => takes_sync hs (g.atRest, sink) ⟨⟨hg.onKeypad, hg.held⟩, h⟩

end Gamepad

end Chip8
