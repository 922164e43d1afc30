import Chip8.Proofs.Toggles
import Chip8.Timers

/-!
# Listeners of the tone

An event of watched timers calls every listener once, in the order in which they came, if it makes
the tone start or end, and none otherwise (`calls_apply`). So what a listener hears is how the tone
toggles, from the moment at which it came (`heard_run`, `toggles_of_run`).

Listeners are told apart by their places: one that came twice hears everything twice.
-/

namespace Chip8.WatchedTimers

/-- The name of the listener that comes with an event, if one does. -/
def Event.newcomer? : Event → Option String
  | .listen name => some name
  | _ => none

/-- The timers behind events in turn, and the calls that each of the events made. -/
def run : List Event → WatchedTimers → WatchedTimers × List (List (String × Bool))
  | [], w => (w, [])
  | e :: events, w =>
    let (next, calls) := w.apply e
    let (last, later) := run events next
    (last, calls :: later)

/-- Whether the tone is on. -/
def tone (w : WatchedTimers) : Bool := w.timers.toneActive

/-- The calls that reach the listener of a place: of every event, the one at that place. -/
def heardAt (place : Nat) (calls : List (List (String × Bool))) : List (String × Bool) :=
  calls.filterMap (·[place]?)

variable (w : WatchedTimers)

/-! ## One event -/

theorem calls_change (next : Timers × Option Bool)
    (h : next.2 = Timers.crossing w.timers next.1) :
    (w.change next).2 =
      if next.1.toneActive = w.tone then [] else w.listeners.map (·, next.1.toneActive) := by
  rw [change, h, Timers.crossing, tone]
  by_cases hsame : next.1.toneActive = w.timers.toneActive
  · rw [if_pos hsame, if_pos hsame.symm]
    rfl
  · rw [if_neg hsame, if_neg (Ne.symm hsame)]
    exact List.append_nil _

/-- Each listener is called once if the tone starts or ends, and not at all otherwise. -/
theorem calls_apply (e : Event) :
    (w.apply e).2 =
      if (w.apply e).1.tone = w.tone then [] else w.listeners.map (·, (w.apply e).1.tone) := by
  cases e with
  | setDelay value => exact (if_pos rfl).symm
  | setSound value => exact calls_change w (w.timers.setSound value) rfl
  | tick => exact calls_change w w.timers.tick rfl
  | reset => exact calls_change w w.timers.reset rfl
  | listen name => exact (if_pos rfl).symm

theorem listeners_apply (e : Event) :
    (w.apply e).1.listeners = w.listeners ++ e.newcomer?.toList := by
  cases e <;> simp [apply, change, Event.newcomer?]

/-! ## Events in turn -/

theorem run_cons (e : Event) (events : List Event) :
    run (e :: events) w =
      ((run events (w.apply e).1).1, (w.apply e).2 :: (run events (w.apply e).1).2) := rfl

theorem run_append (before after : List Event) :
    run (before ++ after) w =
      ((run after (run before w).1).1, (run before w).2 ++ (run after (run before w).1).2) := by
  induction before generalizing w with
  | nil => rfl
  | cons e events ih => rw [List.cons_append, run_cons, ih, run_cons, List.cons_append]

theorem listeners_run (events : List Event) :
    (run events w).1.listeners = w.listeners ++ events.filterMap Event.newcomer? := by
  induction events generalizing w with
  | nil => simp [run]
  | cons e events ih =>
    rw [run_cons, ih, listeners_apply, List.append_assoc, List.filterMap_cons]
    cases e.newcomer? <;> rfl

theorem heardAt_cons (place : Nat) (calls : List (String × Bool))
    (later : List (List (String × Bool))) :
    heardAt place (calls :: later) = calls[place]?.toList ++ heardAt place later := by
  rw [heardAt, List.filterMap_cons]
  cases calls[place]? <;> rfl

theorem heardAt_append (place : Nat) (first second : List (List (String × Bool))) :
    heardAt place (first ++ second) = heardAt place first ++ heardAt place second :=
  List.filterMap_append

variable {w}

/-- A listener that has come hears how the tone toggles. -/
theorem heard_run {place : Nat} {name : String} (hplace : w.listeners[place]? = some name)
    (events : List Event) :
    ∃ tones, heardAt place (run events w).2 = tones.map (name, ·) ∧
      Toggles w.tone tones (run events w).1.tone := by
  induction events generalizing w with
  | nil => exact ⟨[], rfl, rfl⟩
  | cons e events ih =>
    have hstays : (w.apply e).1.listeners[place]? = some name := by
      rw [listeners_apply, List.getElem?_append_left (List.getElem?_eq_some_iff.mp hplace).1, hplace]
    obtain ⟨tones, hheard, htoggles⟩ := ih hstays
    refine ⟨(if (w.apply e).1.tone = w.tone then [] else [(w.apply e).1.tone]) ++ tones, ?_,
      (toggles_step _ _).append htoggles⟩
    rw [run_cons, heardAt_cons, hheard, calls_apply, List.map_append]
    split <;> simp [hplace]

/-- A place that nobody has taken is not called. -/
theorem heardAt_run_of_length_le {place : Nat} {events : List Event}
    (h : (run events w).1.listeners.length ≤ place) : heardAt place (run events w).2 = [] := by
  induction events generalizing w with
  | nil => rfl
  | cons e events ih =>
    have h : (run events (w.apply e).1).1.listeners.length ≤ place := h
    have hlater := congrArg List.length (listeners_run (w.apply e).1 events)
    have hnow := congrArg List.length (listeners_apply w e)
    rw [List.length_append] at hlater hnow
    have hcalls : (w.apply e).2[place]? = none := by
      rw [calls_apply]
      split
      · rfl
      · exact List.getElem?_eq_none (by rw [List.length_map]; omega)
    rw [run_cons, heardAt_cons, hcalls, ih h]
    rfl

/-! ## Listeners from the moment at which they come -/

/-- Behind any events, the listeners are those that came, in turn. One more event calls each of them
once if it makes the tone start or end, and none otherwise. What a listener hears from the moment at
which it comes is how the tone toggles from there; so it does from the start for those that are there
at the start. -/
theorem toggles_of_run (w : WatchedTimers) (before : List Event) :
    let s := (run before w).1
    s.listeners = w.listeners ++ before.filterMap Event.newcomer? ∧
      (∀ e, let t := (run (before ++ [e]) w).1
        (run (before ++ [e]) w).2 = (run before w).2 ++
          [if t.tone = s.tone then [] else s.listeners.map (·, t.tone)]) ∧
      (∀ name after, let all := run (before ++ .listen name :: after) w
        ∃ tones, heardAt s.listeners.length all.2 = tones.map (name, ·) ∧
          Toggles s.tone tones all.1.tone) ∧
      ∀ place name, w.listeners[place]? = some name →
        ∃ tones, heardAt place (run before w).2 = tones.map (name, ·) ∧
          Toggles w.tone tones s.tone := by
  intro s
  refine ⟨listeners_run w before, fun e => ?_, fun name after => ?_,
    fun place name hplace => heard_run hplace before⟩
  · have hone : run (before ++ [e]) w = ((s.apply e).1, (run before w).2 ++ [(s.apply e).2]) :=
      run_append w before [e]
    intro t
    have ht : t = (s.apply e).1 := congrArg Prod.fst hone
    rw [hone, ht, calls_apply]
  · have hplace : (s.apply (.listen name)).1.listeners[s.listeners.length]? = some name := by
      simp [apply]
    obtain ⟨tones, hheard, htoggles⟩ := heard_run hplace after
    intro all
    have hall : all = ((run after (s.apply (.listen name)).1).1,
        (run before w).2 ++ [] :: (run after (s.apply (.listen name)).1).2) :=
      run_append w before (.listen name :: after)
    rw [hall]
    refine ⟨tones, ?_, htoggles⟩
    rw [heardAt_append, heardAt_run_of_length_le (Nat.le_refl _), heardAt_cons]
    exact hheard

theorem toggles_of_run_beep :
    let w : WatchedTimers := ⟨.zero, ["lamp"]⟩
    let before : List Event := [.setSound 2, .listen "horn", .tick, .tick, .setSound 1]
    w.listeners[0]? = some "lamp" ∧ (run before w).1.listeners = ["lamp", "horn"] ∧
      heardAt 0 (run before w).2 = [("lamp", true), ("lamp", false), ("lamp", true)] ∧
      ∃ tones, heardAt 0 (run before w).2 = tones.map ("lamp", ·) ∧ Toggles false tones true := by
  intro w before
  have hplace : w.listeners[0]? = some "lamp" := rfl
  obtain ⟨hlisteners, -, -, hheard⟩ := toggles_of_run w before
  exact ⟨hplace, hlisteners, rfl, hheard 0 "lamp" hplace⟩

end Chip8.WatchedTimers
