import Chip8.Input.Keyboard
import Chip8.Proofs.Debug.Spoken

/-!
# The lines of the input

A keypad reports the keys that it is told of and a keyboard the names that stand for no key. These
messages can be printed.
-/

namespace Chip8

variable (dbg : Debug.Printer)

theorem Keypad.setKey_eq (k : Keypad) (index : Int) (pressed : Bool) :
    k.setKey dbg index pressed =
      match key? index with
      | none => .failed (.keyOutOfRange index) k []
      | some key =>
        .done (k.isDown key != pressed) (k.put key pressed)
          (dbg.lines "input" "key=%X pressed=%s" [.own index, .flag pressed]) := by
  unfold setKey
  cases key? index with
  | none => rfl
  | some key =>
    simp only [Action.run_say (.key index pressed)]
    rfl

namespace Keyboard

variable {S : Type} [KeySink S] (name : String) (k : Keyboard) (sink : S)

theorem press_eq :
    press dbg name (k, sink) =
      match lookup name with
      | none => .done false (k, sink) (dbg.lines "input" "unmapped_press=%s" [.text name])
      | some key => passOn dbg key true (k.put key (k.count key + 1)) sink := by
  unfold press
  cases lookup name with
  | none =>
    simp only [Action.run_say (.unmappedPress name)]
    rfl
  | some key => rfl

theorem release_eq :
    release dbg name (k, sink) =
      match lookup name with
      | none => .done false (k, sink) (dbg.lines "input" "unmapped_release=%s" [.text name])
      | some key =>
        if k.count key ≤ 1 then passOn dbg key false (k.drop key) sink
        else .done true (k.put key (k.count key - 1), sink) [] := by
  unfold release
  cases lookup name with
  | none =>
    simp only [Action.run_say (.unmappedRelease name)]
    rfl
  | some key => rfl

end Keyboard

end Chip8
