import Chip8.Proofs.Machine.Cycles

/-!
# The steps of a run

In the course of an event steps start, one after the other: `Session.stepsOf` are the sessions at
which they do, `Session.stepsOfRun` those of all events of a run. A step starts where the one before
it ended, and none behind one that fails. An event that is neither a step nor made of cycles has
none, and neither has a frame whose input ends it.

* `Session.StepStarts`: the same of a single step, in terms of the number of cycles that came to
  their end before it.
* `machine_takeInput`: the input of a frame changes keys only.
* `runCycles_induction`: what every step of a number of cycles keeps, the cycles keep.
-/

namespace Chip8

open Debug (Printer)

namespace Session

variable {F : Type} [Frontend F] {dbg : Printer} {s t : Session F}

/-! ## Input -/

/-- The input at the start of a frame. -/
def takeInput (dbg : Printer) : Action (Session F) Bool := fun s =>
  if s.attached then drainInput dbg s else .done true s []

/-- A frame is its input and what comes behind it. -/
theorem runFrame_eq (dbg : Printer) (s : Session F) :
    runFrame dbg s =
      (takeInput dbg s).andThen fun goesOn s =>
        if goesOn then (advanceFrame dbg s).map fun _ => true else .done false s [] := rfl

/-- The machines differ in their keys at most. -/
def SameButKeys (m m' : Machine) : Prop := ∃ keypad, m' = { m with cpu := { m.cpu with keypad } }

theorem sameButKeys_drainWithin (bound : Nat) (s : Session F) :
    SameButKeys s.machine (drainWithin dbg bound s).state.machine := by
  suffices h : ∀ t : Session F, SameButKeys s.machine t.machine →
      SameButKeys s.machine (drainWithin dbg bound t).state.machine from h s ⟨_, rfl⟩
  induction bound with
  | zero => exact fun t h => h
  | succ bound ih =>
    intro t h
    refine Outcome.state_andThen (Q := fun u : Session F => SameButKeys s.machine u.machine) h
      fun event u hu => ?_
    match event with
    | none => exact hu
    | some .quit => exact hu
    | some (.key index pressed) =>
      obtain ⟨keypad, hkeys⟩ := hu
      refine Outcome.state_andThen (Q := fun u : Session F => SameButKeys s.machine u.machine)
        (machine_install ?_) fun _ v hv => ih v hv
      rw [hkeys]
      exact ⟨⟨_, rfl⟩, _, rfl⟩

/-- Taking the input changes keys only. -/
theorem machine_takeInput (dbg : Printer) (s : Session F) :
    SameButKeys s.machine (takeInput dbg s).state.machine := by
  unfold takeInput
  split
  · exact sameButKeys_drainWithin _ s
  · exact ⟨_, rfl⟩

/-! ## Where steps start -/

/-- In the course of the event a step starts at `t`: the event is that step, or all cycles before it
came to their end. -/
inductive StepStarts (dbg : Printer) (s : Session F) : Event F → Session F → Prop where
  | step : StepStarts dbg s .step s
  | cycle {count k executed : Nat} {t : Session F} {lines : List Debug.Line} (hk : k < count)
      (hrun : runCycles dbg k s = ⟨.ok executed, t, lines⟩) : StepStarts dbg s (.cycles count) t
  | frame {k executed : Nat} {u t : Session F} {earlier lines : List Debug.Line}
      (hinput : takeInput dbg s = ⟨.ok true, u, earlier⟩) (hk : k < u.machine.cyclesPerFrame)
      (hrun : runCycles dbg k u = ⟨.ok executed, t, lines⟩) : StepStarts dbg s .frame t

/-- The sessions at which the steps of up to `count` cycles start, in turn. -/
def stepsOfCycles (dbg : Printer) : Nat → Session F → List (Session F)
  | 0, _ => []
  | count + 1, s =>
    s :: match (cycle dbg s).result with
      | .ok _ => stepsOfCycles dbg count (cycle dbg s).state
      | .error _ => []

/-- The sessions at which the steps of a frame start, none if its input ends it. -/
def stepsOfFrame (dbg : Printer) (s : Session F) : List (Session F) :=
  match takeInput dbg s with
  | ⟨.ok true, t, _⟩ => stepsOfCycles dbg t.machine.cyclesPerFrame t
  | _ => []

/-- The sessions at which the steps of an event start. -/
def stepsOf (dbg : Printer) : Event F → Session F → List (Session F)
  | .step, s => [s]
  | .cycles count, s => stepsOfCycles dbg count s
  | .frame, s => stepsOfFrame dbg s
  | _, _ => []

/-- The sessions at which the steps of a run start. -/
def stepsOfRun (dbg : Printer) : List (Event F) → Session F → List (Session F)
  | [], _ => []
  | e :: events, s => stepsOf dbg e s ++ stepsOfRun dbg events (apply dbg e s)

/-- What every step of a number of cycles keeps, the cycles keep. -/
theorem runCycles_induction {Q : Session F → Prop} {count : Nat}
    (hq : ∀ t ∈ stepsOfCycles dbg count s, Q t → Q (cycle dbg t).state) (h : Q s) :
    Q (runCycles dbg count s).state := by
  induction count generalizing s with
  | zero => exact h
  | succ count ih =>
    have hfirst : Q (cycle dbg s).state := hq s List.mem_cons_self h
    cases hr : (cycle dbg s).result with
    | error e =>
      rw [state_runCycles_of_error hr]
      exact hfirst
    | ok stepped =>
      rw [state_runCycles_of_ok hr]
      refine ih (fun t ht => hq t ?_) hfirst
      rw [stepsOfCycles, hr]
      exact List.mem_cons_of_mem s ht

end Session

end Chip8
