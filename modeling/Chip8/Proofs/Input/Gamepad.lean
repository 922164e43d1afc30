import Chip8.Input.Gamepad

/-!
# The keys of a gamepad

* `mem_pressedKeys`, `pressedKeys_ascending`: the pressed keys are those of the inputs that are
  held, ascending and each once.
* `mem_pending`: what a sink has to be told is the difference between the pressed keys and those it
  holds; `nodup_pending`: it is told of each key at most once.
-/

namespace Chip8.Gamepad

variable {g : Gamepad} {key x : Int}

theorem mem_insertKey : ∀ {keys : List Int}, x ∈ insertKey key keys ↔ x = key ∨ x ∈ keys
  | [] => by simp [insertKey]
  | k :: ks => by
    unfold insertKey
    split
    · simp
    split
    · rename_i h
      simp [h]
    · rw [List.mem_cons, mem_insertKey, List.mem_cons]
      exact or_left_comm

theorem insertKey_ascending : ∀ {keys : List Int}, keys.Pairwise (· < ·) →
    (insertKey key keys).Pairwise (· < ·)
  | [], _ => List.pairwise_singleton _ _
  | k :: ks, h => by
    obtain ⟨hk, hks⟩ := List.pairwise_cons.mp h
    unfold insertKey
    split
    · rename_i hlt
      refine List.pairwise_cons.mpr ⟨fun x hx => ?_, h⟩
      rcases List.mem_cons.mp hx with rfl | hx
      · exact hlt
      · exact Int.lt_trans hlt (hk x hx)
    split
    · exact h
    · rename_i hnlt hne
      refine List.pairwise_cons.mpr ⟨fun x hx => ?_, insertKey_ascending hks⟩
      rcases mem_insertKey.mp hx with rfl | hx
      · omega
      · exact hk x hx

theorem mem_pressedKeys : x ∈ g.pressedKeys ↔ (true, x) ∈ g.inputs := by
  unfold pressedKeys
  induction g.inputs with
  | nil => simp
  | cons input inputs ih =>
    obtain ⟨held, key⟩ := input
    cases held with
    | true => simp [mem_insertKey, ih]
    | false => simp [ih]

theorem pressedKeys_ascending (g : Gamepad) : g.pressedKeys.Pairwise (· < ·) := by
  unfold pressedKeys
  induction g.inputs with
  | nil => exact List.Pairwise.nil
  | cons input inputs ih =>
    simp only [List.foldr_cons]
    split
    · exact insertKey_ascending ih
    · exact ih

theorem nodup_pressedKeys (g : Gamepad) : g.pressedKeys.Nodup :=
  g.pressedKeys_ascending.imp fun h => Int.ne_of_lt h

theorem mem_pending {pressed : Bool} : (x, pressed) ∈ g.pending ↔
    if pressed then x ∈ g.pressedKeys ∧ x ∉ g.held else x ∈ g.held ∧ x ∉ g.pressedKeys := by
  cases pressed <;> simp [pending]

theorem nodup_pending (h : g.held.Nodup) : (g.pending.map Prod.fst).Nodup := by
  simp only [pending, List.map_append, List.map_map, Function.comp_def, List.map_id']
  refine List.nodup_append.mpr ⟨h.filter _, (nodup_pressedKeys g).filter _, ?_⟩
  intro a ha b hb hab
  obtain ⟨-, hna⟩ := List.mem_filter.mp ha
  obtain ⟨hb, -⟩ := List.mem_filter.mp hb
  subst hab
  simp [hb] at hna

end Chip8.Gamepad
