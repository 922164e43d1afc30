import Chip8.Proofs.App.KeyQueue
import Chip8.Proofs.Machine.Tone

/-!
# Input of a frame

A frame first takes input until there is none. The events that change a key go to the keypad, in the
order in which they wait; the first other one ends the frame: a wish to quit with an answer, a key
that there is not with an error (`Session.drainWithin_eq`). Either way the events behind it go on
waiting, and only keys have changed: `Session.withInput`.

If there is none, the frame goes on: its cycles, a tick, one more frame counted and the picture as
it is then, or the error with which a cycle ends it (`Session.advanceFrame_headless`).
-/

namespace Chip8

open Debug (Printer)

namespace InputEvent

/-- Whether an event changes a key, and the key is one of the sixteen. -/
def changesKey : InputEvent → Bool
  | .key index _ => 0 ≤ index ∧ index < 16
  | .quit => false

/-- What is printed when an event that changes a key goes to the keypad. -/
def lines (dbg : Printer) : InputEvent → List Debug.Line
  | .key index pressed => dbg.lines "input" "key=%X pressed=%s" [.own index, .flag pressed]
  | .quit => []

end InputEvent

namespace Keypad

variable {index : Int} {pressed : Bool}

theorem setKey_of_changesKey (dbg : Printer) (k : Keypad)
    (h : (InputEvent.key index pressed).changesKey = true) :
    ∃ changed, k.setKey dbg index pressed =
      .done changed (KeyQueue.press k (.key index pressed))
        (InputEvent.lines dbg (.key index pressed)) := by
  have hrange : 0 ≤ index ∧ index < 16 := of_decide_eq_true h
  have hkey : key? index = some ⟨index.toNat, by omega⟩ := dif_pos hrange
  simp only [setKey_eq, KeyQueue.press, hkey]
  exact ⟨_, rfl⟩

theorem setKey_of_not_changesKey (dbg : Printer) (k : Keypad)
    (h : (InputEvent.key index pressed).changesKey = false) :
    k.setKey dbg index pressed = .failed (.keyOutOfRange index) k [] :=
  setKey_of_not_bounds dbg k (of_decide_eq_false h)

end Keypad

namespace Session

variable {dbg : Printer} {s : Session Headless}

/-- The session with other keys and other events that wait. -/
def withInput (keypad : Keypad) (queue : List InputEvent) (s : Session Headless) :
    Session Headless :=
  { s with
    machine := { s.machine with cpu := { s.machine.cpu with keypad } }
    frontend := { s.frontend with queue } }

@[simp] theorem withInput_withInput (k k' : Keypad) (queue queue' : List InputEvent) :
    (s.withInput k queue).withInput k' queue' = s.withInput k' queue' := rfl

@[simp] theorem keypad_withInput (k : Keypad) (queue : List InputEvent) :
    (s.withInput k queue).machine.cpu.keypad = k := rfl

@[simp] theorem queue_withInput (k : Keypad) (queue : List InputEvent) :
    (s.withInput k queue).frontend.queue = queue := rfl

theorem setKey_of_changesKey {index : Int} {pressed : Bool}
    (h : (InputEvent.key index pressed).changesKey = true) :
    setKey dbg index pressed s =
      .done ()
        (s.withInput (KeyQueue.press s.machine.cpu.keypad (.key index pressed)) s.frontend.queue)
        (InputEvent.lines dbg (.key index pressed)) := by
  obtain ⟨changed, hset⟩ := Keypad.setKey_of_changesKey dbg s.machine.cpu.keypad h
  rw [setKey, install_of_tones_nil rfl, Cpu.setKey, hset]
  rfl

theorem setKey_of_not_changesKey {index : Int} {pressed : Bool}
    (h : (InputEvent.key index pressed).changesKey = false) :
    setKey dbg index pressed s = .failed (.keyOutOfRange index) s [] := by
  rw [setKey, install_of_tones_nil rfl, Cpu.setKey, Keypad.setKey_of_not_changesKey dbg _ h]
  rfl

/-- How taking the input ends: the keys change as the events up to the first that changes none say,
and that one, if there is one, ends it. -/
def drained (dbg : Printer) (s : Session Headless) : Outcome (Session Headless) Bool :=
  let keys := s.frontend.queue.takeWhile InputEvent.changesKey
  let keypad := keys.foldl KeyQueue.press s.machine.cpu.keypad
  let lines := keys.flatMap (InputEvent.lines dbg)
  match s.frontend.queue.dropWhile InputEvent.changesKey with
  | [] => .done true (s.withInput keypad []) lines
  | .quit :: rest => .done false (s.withInput keypad rest) lines
  | .key index _ :: rest => .failed (.keyOutOfRange index) (s.withInput keypad rest) lines

theorem drained_of_nil (hq : s.frontend.queue = []) : drained dbg s = .done true s [] := by
  obtain ⟨m, ⟨queue, framesDrawn, lastFrame, toneOn, toneChanges⟩, attached⟩ := s
  cases hq
  rfl

theorem drained_of_changesKey {event : InputEvent} {rest : List InputEvent}
    (hq : s.frontend.queue = event :: rest) (h : event.changesKey = true) :
    drained dbg s =
      (drained dbg (s.withInput (KeyQueue.press s.machine.cpu.keypad event) rest)).after
        (event.lines dbg) := by
  simp only [drained, hq, List.takeWhile_cons_of_pos h, List.dropWhile_cons_of_pos h,
    List.foldl_cons, List.flatMap_cons, withInput_withInput, keypad_withInput, queue_withInput]
  split <;> rfl

theorem drained_of_not_changesKey {event : InputEvent} {rest : List InputEvent}
    (hq : s.frontend.queue = event :: rest) (h : event.changesKey = false) :
    drained dbg s =
      match event with
      | .quit => .done false (s.withInput s.machine.cpu.keypad rest) []
      | .key index _ =>
        .failed (.keyOutOfRange index) (s.withInput s.machine.cpu.keypad rest) [] := by
  have h' : ¬ event.changesKey = true := by simp [h]
  simp only [drained, hq, List.takeWhile_cons_of_neg h', List.dropWhile_cons_of_neg h']
  cases event <;> rfl

theorem drainWithin_succ_of_nil (hq : s.frontend.queue = []) (bound : Nat) :
    drainWithin dbg (bound + 1) s = .done true s [] := by
  obtain ⟨m, ⟨queue, framesDrawn, lastFrame, toneOn, toneChanges⟩, attached⟩ := s
  cases hq
  rfl

/-- Taking input takes the first event that waits. -/
theorem drainWithin_succ_of_cons {event : InputEvent} {rest : List InputEvent}
    (hq : s.frontend.queue = event :: rest) (bound : Nat) :
    drainWithin dbg (bound + 1) s =
      match event with
      | .quit => .done false (s.withInput s.machine.cpu.keypad rest) []
      | .key index pressed =>
        (setKey dbg index pressed (s.withInput s.machine.cpu.keypad rest)).andThen
          fun _ s => drainWithin dbg bound s := by
  obtain ⟨m, ⟨queue, framesDrawn, lastFrame, toneOn, toneChanges⟩, attached⟩ := s
  cases hq
  cases event <;> rfl

/-- With a bound above the number of events that wait. -/
theorem drainWithin_eq {bound : Nat} (h : s.frontend.queue.length < bound) :
    drainWithin dbg bound s = drained dbg s := by
  induction bound generalizing s with
  | zero => cases h
  | succ bound ih =>
    cases hq : s.frontend.queue with
    | nil =>
      rw [drainWithin_succ_of_nil hq, drained_of_nil hq]
    | cons event rest =>
      rw [drainWithin_succ_of_cons hq]
      rw [hq, List.length_cons] at h
      cases hk : event.changesKey with
      | false =>
        rw [drained_of_not_changesKey hq hk]
        cases event with
        | quit => rfl
        | key index pressed =>
          simp only [setKey_of_not_changesKey hk, Outcome.andThen_failed]
      | true =>
        rw [drained_of_changesKey hq hk]
        cases event with
        | quit => cases hk
        | key index pressed =>
          simp only [setKey_of_changesKey hk, Outcome.andThen_done, withInput_withInput,
            keypad_withInput, queue_withInput]
          rw [ih (Nat.lt_of_succ_lt_succ h)]

/-! ## Behind the input -/

section
variable (dbg)

theorem result_install {α : Type} (o : CpuOutcome α) (s : Session Headless) :
    (s.install dbg o).result = o.result := by
  obtain ⟨lines, h⟩ := forwardTones_headless dbg o.tones (s.setCpu o.cpuAtTone)
  unfold install
  simp only [h]

/-- The session once the picture is shown, if there is a frontend to show it. -/
def shown (s : Session Headless) : Session Headless :=
  { s with
    frontend := if s.attached then s.frontend.draw s.machine.cpu.display.rows else s.frontend }

theorem draw_headless (s : Session Headless) : draw s = .done () s.shown [] := by
  unfold draw onFrontend shown
  obtain ⟨machine, frontend, attached⟩ := s
  cases attached <;> rfl

theorem advanceFrame_headless (s : Session Headless) :
    let worked := runCycles dbg s.machine.cyclesPerFrame s
    let ticked := tick dbg worked.state
    advanceFrame dbg s =
      match worked.result with
      | .error e => .failed e worked.state worked.lines
      | .ok executed =>
        .done () ticked.state.countFrame.shown
          (worked.lines ++ (ticked.lines ++ ticked.state.countFrame.frameLines dbg executed)) := by
  intro worked ticked
  rw [advanceFrame_eq]
  cases hr : worked.result with
  | error e => rw [Outcome.andThen_of_error hr]
  | ok executed =>
    have htick : ticked.result = .ok () := result_install dbg worked.state.machine.cpu.tick _
    rw [Outcome.andThen_of_ok hr, Outcome.andThen_of_ok htick, draw_headless]
    simp only [Outcome.after, Outcome.done, List.append_nil]

end

/-- A frame on an attached headless frontend. What waits before the first event that changes no key
goes to the keypad, and then the frame goes on if nothing else waits, or ends there with the events
behind that one still waiting. A frame that goes on works off its cycles, of which one may fail and
end it. Then the timers go down, the frame is counted and the frontend is shown the picture. -/
theorem runFrame_takes_input (dbg : Printer) (m : Machine) (f : Headless) :
    let keys := f.queue.takeWhile InputEvent.changesKey
    let lines := keys.flatMap (InputEvent.lines dbg)
    let leaving (queue : List InputEvent) : Session Headless :=
      { machine := { m with
          cpu := { m.cpu with keypad := keys.foldl KeyQueue.press m.cpu.keypad } }
        frontend := { f with queue }
        attached := true }
    let worked := runCycles dbg m.cyclesPerFrame (leaving [])
    let ticked := tick dbg worked.state
    let counted := ticked.state.countFrame
    (runFrame dbg ⟨m, f, true⟩ =
      match f.queue.dropWhile InputEvent.changesKey with
      | [] => ((advanceFrame dbg (leaving [])).map fun _ => true).after lines
      | .quit :: rest => .done false (leaving rest) lines
      | .key index _ :: rest => .failed (.keyOutOfRange index) (leaving rest) lines) ∧
    advanceFrame dbg (leaving []) =
      match worked.result with
      | .error e => .failed e worked.state worked.lines
      | .ok executed =>
        .done ()
          { counted with frontend := counted.frontend.draw counted.machine.cpu.display.rows }
          (worked.lines ++ (ticked.lines ++ counted.frameLines dbg executed)) := by
  intro keys lines leaving worked ticked counted
  refine ⟨?_, ?_⟩
  · have hinput : drainInput dbg (⟨m, f, true⟩ : Session Headless) = drained dbg ⟨m, f, true⟩ :=
      drainWithin_eq (Nat.lt_succ_self _)
    rw [runFrame, if_pos rfl, hinput]
    simp only [drained]
    cases f.queue.dropWhile InputEvent.changesKey with
    | nil => rfl
    | cons event rest =>
      cases event with
      | key index pressed => rfl
      | quit => exact congrArg (Outcome.done false (leaving rest)) (List.append_nil lines)
  · have hworked : (leaving []).Follows worked.state :=
      (follows_kept dbg _).runCycles m.cyclesPerFrame (.refl _)
    have hticked : (leaving []).Follows ticked.state := (follows_kept dbg _).tick hworked
    have hattached : counted.attached = true := hticked.1
    have hshown : counted.shown =
        { counted with frontend := counted.frontend.draw counted.machine.cpu.display.rows } := by
      rw [shown, if_pos hattached]
    rw [← hshown]
    exact advanceFrame_headless dbg (leaving [])

end Session

end Chip8
