import Mathlib.Data.Fin.Tuple.Basic
import Chip8.Proofs.Input.Lines

/-!
# Keys that are down

Looking for the lowest key that is down finds it (`firstPressed_eq_some_iff`), and finds nothing
exactly when every key is up (`firstPressed_eq_none_iff`, `anyPressed_eq_false_iff`). A change of a
key is taken if there is such a key, and changes no other one (`setKey_of_bounds`, `isDown_setKey`).
-/

namespace Chip8.Keypad

variable {k : Keypad} {key : Key}

theorem firstPressed_eq_some_iff :
    k.firstPressed = some key ↔ k.isDown key = true ∧ ∀ lower < key, k.isDown lower = false := by
  rw [firstPressed, ← Fin.find?_eq_find?_finRange]
  exact Fin.find?_eq_some_iff

theorem firstPressed_eq_none_iff : k.firstPressed = none ↔ ∀ key, k.isDown key = false := by
  rw [firstPressed, ← Fin.find?_eq_find?_finRange]
  exact Fin.find?_eq_none_iff

theorem anyPressed_eq_false_iff : k.anyPressed = false ↔ ∀ key, k.isDown key = false := by
  rw [anyPressed, Array.any_eq_false]
  simp [isDown, Fin.forall_iff]

theorem firstPressed_eq_none_iff_anyPressed : k.firstPressed = none ↔ k.anyPressed = false :=
  firstPressed_eq_none_iff.trans anyPressed_eq_false_iff.symm

/-! ## Changes of keys -/

variable {index : Int} {pressed : Bool}

theorem bounds_val (key : Key) : (0 : Int) ≤ key.val ∧ (key.val : Int) < 16 := by
  have := key.isLt
  omega

theorem key?_eq_some_iff : key? index = some key ↔ index = key.val := by
  have hlt := key.isLt
  unfold key?
  split
  · simp only [Option.some.injEq, Fin.ext_iff]
    omega
  · simp only [reduceCtorEq, false_iff]
    omega

theorem key?_eq_none_iff : key? index = none ↔ ¬ (0 ≤ index ∧ index < 16) := by
  unfold key?
  split <;> simp_all

theorem isDown_setKey (dbg : Debug.Printer) (k : Keypad) (index : Int) (pressed : Bool)
    (key : Key) :
    (k.setKey dbg index pressed).state.isDown key =
      if index = key.val then pressed else k.isDown key := by
  rw [setKey_eq]
  cases h : key? index with
  | none =>
    have hne : index ≠ key.val := fun heq => by
      rw [key?_eq_some_iff.mpr heq] at h
      cases h
    rw [if_neg hne]
    rfl
  | some changed =>
    rw [key?_eq_some_iff.mp h]
    by_cases heq : changed = key
    · subst heq
      rw [if_pos rfl]
      exact isDown_put_self k changed pressed
    · rw [if_neg fun hval => heq (Fin.ext (by omega))]
      exact isDown_put_of_ne k pressed heq

theorem state_setKey (dbg dbg' : Debug.Printer) (k : Keypad) :
    (k.setKey dbg index pressed).state = (k.setKey dbg' index pressed).state := by
  rw [setKey_eq, setKey_eq]
  split <;> rfl

theorem setKey_of_bounds (dbg : Debug.Printer) (k : Keypad) (h : 0 ≤ index ∧ index < 16) :
    ∃ changed, (k.setKey dbg index pressed).result = .ok changed := by
  rw [setKey_eq]
  split
  · rename_i hnone
    exact absurd h (key?_eq_none_iff.mp hnone)
  · exact ⟨_, rfl⟩

theorem setKey_of_not_bounds (dbg : Debug.Printer) (k : Keypad)
    (h : ¬ (0 ≤ index ∧ index < 16)) :
    k.setKey dbg index pressed = .failed (.keyOutOfRange index) k [] := by
  rw [setKey_eq, key?_eq_none_iff.mpr h]

end Chip8.Keypad
