import Chip8.App.KeyQueue
import Chip8.Proofs.Input.Gamepad
import Chip8.Proofs.Input.Keypad

/-!
# Queued key events

`KeyQueue.replayed` is the keypad after all events that wait. A queue is faithful if exactly the
keys with a hold are down there. Taking and giving up a hold keeps this (`faithful_hold`,
`faithful_letGo`), and so does a list of changes of different keys (`deliver_of_nodup`), which moves
the count of each of them by one.
-/

namespace Chip8

namespace KeyQueue

/-- A keypad after an event. -/
def press (k : Keypad) : InputEvent → Keypad
  | .key index pressed => (k.setKey .off index pressed).state
  | .quit => k

/-- The keypad after all events that wait, starting with all keys up. -/
def replayed (q : KeyQueue) : Keypad := q.events.foldl press .released

/-- The events that wait press the keys that are held, and no others. -/
def Faithful (q : KeyQueue) : Prop := ∀ key, q.replayed.isDown key = true ↔ 0 < q.count key

variable {q : KeyQueue} {key other : Key}

theorem key?_val (key : Key) : Keypad.key? key.val = some key := Keypad.key?_eq_some_iff.mpr rfl

theorem slot?_val (key : Key) : slot? key.val = some key := by
  rw [slot?, if_neg (by omega), key?_val]

theorem press_key (k : Keypad) (key : Key) (pressed : Bool) :
    press k (.key key.val pressed) = k.put key pressed := by
  simp only [press, Keypad.setKey, key?_val]
  rfl

theorem replayed_push (q : KeyQueue) (event : InputEvent) :
    (q.push event).replayed = press q.replayed event := by
  simp only [replayed, push, List.foldl_append, List.foldl_cons, List.foldl_nil]

theorem replayed_put (q : KeyQueue) (key : Key) (n : Int) :
    (q.put key n).replayed = q.replayed := rfl

theorem isDown_put (k : Keypad) (key other : Key) (pressed : Bool) :
    (k.put key pressed).isDown other = if key = other then pressed else k.isDown other := by
  split
  · rename_i h
    rw [h, Keypad.isDown_put_self]
  · rename_i h
    exact Keypad.isDown_put_of_ne k pressed h

theorem count_hold (q : KeyQueue) (key other : Key) (index : Int) :
    (q.hold key index).count other = if key = other then q.count key + 1 else q.count other := by
  unfold hold
  simp only
  split <;> exact count_put q key other _

theorem count_letGo (q : KeyQueue) (key other : Key) (index : Int) :
    (q.letGo key index).count other =
      if key = other ∧ 0 < q.count key then q.count key - 1 else q.count other := by
  unfold letGo
  by_cases hpos : 0 < q.count key
  · simp only [hpos, and_true, if_true]
    split <;> exact count_put q key other _
  · simp only [hpos, and_false, if_false]

theorem faithful_start : start.Faithful := by
  intro key
  simp [start, replayed, count, Keypad.released, Keypad.isDown]

theorem faithful_hold (h : q.Faithful) (key : Key) : (q.hold key key.val).Faithful := by
  intro other
  rw [count_hold]
  have ho := h other
  unfold hold
  simp only
  split
  · rename_i hzero
    rw [replayed_push, press_key, isDown_put, replayed_put]
    split
    · simp [hzero]
    · exact ho
  · rename_i hpos
    rw [replayed_put, ho]
    split
    · rename_i heq
      subst heq
      omega
    · exact Iff.rfl

theorem faithful_letGo (h : q.Faithful) (key : Key) : (q.letGo key key.val).Faithful := by
  intro other
  rw [count_letGo]
  have ho := h other
  unfold letGo
  by_cases hpos : 0 < q.count key
  · simp only [hpos, and_true, if_true]
    split
    · rename_i hone
      rw [replayed_push, press_key, isDown_put, replayed_put]
      split
      · simp [hone]
      · exact ho
    · rename_i hne
      rw [replayed_put, ho]
      split
      · rename_i heq
        subst heq
        omega
      · exact Iff.rfl
  · simpa only [hpos, and_false, if_false] using ho

/-- A queue takes every change of a key. -/
theorem setKey_val (dbg : Debug.Printer) (q : KeyQueue) (key : Key) (pressed : Bool) :
    KeySink.setKey dbg key.val pressed q =
      .done () (if pressed then q.hold key key.val else q.letGo key key.val) [] := by
  simp only [KeySink.setKey, setKey, slot, slot?_val]
  rfl

/-- The count of a key after a change. -/
def moved (n : Int) (pressed : Bool) : Int :=
  if pressed then n + 1 else if 0 < n then n - 1 else n

theorem count_setKey (dbg : Debug.Printer) (q : KeyQueue) (key other : Key) (pressed : Bool) :
    (KeySink.setKey dbg key.val pressed q).state.count other =
      if key = other then moved (q.count key) pressed else q.count other := by
  rw [setKey_val]
  cases pressed with
  | true => exact count_hold q key other _
  | false =>
    refine (count_letGo q key other _).trans ?_
    by_cases hkey : key = other
    · subst hkey
      simp [moved]
    · simp [hkey]

theorem faithful_setKey (dbg : Debug.Printer) (h : q.Faithful) (key : Key) (pressed : Bool) :
    (KeySink.setKey dbg key.val pressed q).state.Faithful := by
  rw [setKey_val]
  cases pressed with
  | true => exact faithful_hold h key
  | false => exact faithful_letGo h key

/-- Changes of different keys are all taken, and each moves the count of its key. -/
theorem deliver_of_nodup (dbg : Debug.Printer) {changes : List (Int × Bool)}
    (hkeys : ∀ c ∈ changes, ∃ key : Key, c.1 = key.val) (hd : (changes.map Prod.fst).Nodup)
    {q : KeyQueue} (hq : q.Faithful) :
    ∃ r, Gamepad.deliver dbg changes q = .done () r [] ∧ r.Faithful ∧ ∀ key : Key,
      (∀ pressed, ((key.val : Int), pressed) ∈ changes →
          r.count key = moved (q.count key) pressed) ∧
        ((∀ pressed, ((key.val : Int), pressed) ∉ changes) → r.count key = q.count key) := by
  induction changes generalizing q with
  | nil => exact ⟨q, rfl, hq, fun key => ⟨fun _ h => absurd h List.not_mem_nil, fun _ => rfl⟩⟩
  | cons c rest ih =>
    obtain ⟨index, pressed⟩ := c
    obtain ⟨key, hkey⟩ := hkeys _ List.mem_cons_self
    simp only at hkey
    subst hkey
    obtain ⟨hnot, hrest⟩ := List.nodup_cons.mp hd
    have hne : ∀ b, ((key.val : Int), b) ∉ rest := fun b hb => hnot (List.mem_map.mpr ⟨_, hb, rfl⟩)
    have hcount := fun other => count_setKey dbg q key other pressed
    obtain ⟨r, hr, hf, hmoved⟩ := ih (fun c hc => hkeys c (List.mem_cons_of_mem _ hc)) hrest
      (faithful_setKey dbg hq key pressed)
    refine ⟨r, ?_, hf, fun other => ⟨fun b hb => ?_, fun hb => ?_⟩⟩
    · rw [Gamepad.deliver, setKey_val] at *
      exact hr
    · rcases List.mem_cons.mp hb with heq | hb
      · obtain ⟨hval, rfl⟩ := Prod.mk.inj heq
        have hother : key = other := Fin.ext (by omega)
        subst hother
        rw [(hmoved key).2 hne, hcount, if_pos rfl]
      · have hother : key ≠ other := fun h => hne b (h ▸ hb)
        rw [(hmoved other).1 b hb, hcount, if_neg hother]
    · have hother : key ≠ other := fun h => hb pressed (h ▸ List.mem_cons_self)
      rw [(hmoved other).2 fun b hm => hb b (List.mem_cons_of_mem _ hm), hcount, if_neg hother]

end KeyQueue

end Chip8
