import Mathlib.Data.List.Chain

/-!
# Flags that toggle

What is told of a flag to someone who hears of its changes alone. `Toggles start changes now`: the
changes alternate, the first one goes away from `start`, and they end at `now`. Such changes can be
put together (`Toggles.append`), and one step of the flag is at most one of them (`toggles_step`).
-/

namespace Chip8

/-- A flag goes from `start` to `now` by changes, each to what it was not before. -/
def Toggles : Bool → List Bool → Bool → Prop
  | start, [], now => now = start
  | start, change :: changes, now => (change = !start) ∧ Toggles change changes now

theorem Toggles.append {start mid now : Bool} {first second : List Bool}
    (h : Toggles start first mid) (h' : Toggles mid second now) :
    Toggles start (first ++ second) now := by
  induction first generalizing start with
  | nil =>
    obtain rfl : mid = start := h
    exact h'
  | cons change changes ih => exact ⟨h.1, ih h.2⟩

/-- A step of the flag is told if it makes a difference. -/
theorem toggles_step (old new : Bool) : Toggles old (if new = old then [] else [new]) new := by
  cases old <;> cases new <;> simp [Toggles]

end Chip8
