import Chip8.Machine.Session
import Chip8.Proofs.Debug.Input
import Chip8.Proofs.Machine.Runs
import Chip8.Proofs.Machine.Tracing

/-!
# Machines that only speak

The processor speaks of every word that it fetches, of calls and returns, of words without an
instruction and of waits; the machine speaks of keys, tones and frames. All of them are inert, if
the frontend is (`Frontend.Inert`). A frame is made of parts that go on from the state of the part
before, so that its lines come about in the same order under all printers.

`Session.respond` is what a session answers to an event; `inert_respond` says that no answer and no
state depends on the printer.
-/

namespace Chip8

open Debug (Printer Message Spoken linesOf)

/-! ## The processor -/

/-- The printer decides nothing but which messages are printed. -/
def CpuOutcome.Inert {α : Type} (o : Printer → CpuOutcome α) : Prop :=
  ∃ (p : CpuOutcome α) (messages : List Message),
    (∀ m ∈ messages, Spoken m) ∧ ∀ dbg, o dbg = { p with lines := linesOf dbg messages }

namespace CpuOutcome.Inert

variable {α : Type}

theorem silent {p : CpuOutcome α} (h : p.lines = []) : Inert fun _ => p := by
  refine ⟨p, [], nofun, fun dbg => ?_⟩
  show p = { p with lines := [] }
  rw [← h]

theorem saying {category text : String} {values : List Text.Value}
    (hm : Spoken ⟨category, text, values⟩) {p : CpuOutcome α} (h : p.lines = []) :
    Inert fun dbg => p.saying (dbg.say category text values) := by
  refine ⟨p, _, List.forall_mem_singleton.mpr hm, fun dbg => ?_⟩
  rw [Debug.linesOf_singleton]
  exact (CpuOutcome.saying_eq hm dbg p).trans (by rw [h]; rfl)

end CpuOutcome.Inert

namespace Cpu

open CpuOutcome (Inert)

variable (c : Cpu)

theorem lines_storeAtIndex (data : List Int) : (c.storeAtIndex data).lines = [] := by
  unfold storeAtIndex
  split <;> rfl

theorem inert_perform (o : Operands) (op : Operation) : Inert fun dbg => c.perform dbg o op := by
  cases op with
  | ret =>
    simp only [perform]
    cases c.stack.pop with
    | error e => exact .silent rfl
    | ok popped =>
      obtain ⟨pc, stack⟩ := popped
      exact .saying (.ret pc stack.depth) rfl
  | call =>
    simp only [perform]
    cases c.stack.push c.pc with
    | error e => exact .silent rfl
    | ok stack => exact .saying (.call o.nnn stack.depth) rfl
  | draw =>
    simp only [perform]
    cases c.memory.readBlock c.i o.n <;> exact .silent rfl
  | waitKey =>
    simp only [perform]
    cases c.keypad.firstPressed <;> exact .silent rfl
  | storeDecimal => exact .silent (p := c.storeAtIndex _) (c.lines_storeAtIndex _)
  | storeRegisters => exact .silent (p := c.storeAtIndex _) (c.lines_storeAtIndex _)
  | loadRegisters =>
    simp only [perform]
    cases c.memory.readBlock c.i (o.x.val + 1 : Nat) <;> exact .silent rfl
  | _ => exact .silent rfl

theorem inert_execute (word : Int) : Inert fun dbg => c.execute dbg word := by
  simp only [execute]
  cases c.table.lookup word with
  | none => exact .saying (.unknownWord word (c.pc - 2)) rfl
  | some instruction =>
    cases h : instruction.handler with
    | operation op => simpa only [h] using c.inert_perform (.ofWord word) op
    | member name m =>
      simp only [h]
      cases m <;> exact .silent rfl
    | unknown name =>
      simp only [h]
      exact .silent rfl

/-- A word is reported before it is carried out. -/
theorem inert_executeFetched (address : Int) (word : Nat) :
    Inert fun dbg => c.executeFetched dbg address word := by
  obtain ⟨p, messages, hs, h⟩ := c.inert_execute word
  have hlater := List.forall_mem_cons.mpr ⟨Spoken.fetched address word, hs⟩
  simp only at h
  simp only [executeFetched_eq, executeCounted, h]
  cases hp : p.result with
  | error e =>
    let cpu := if e.isMemory then { p.cpu with runState := .halted } else p.cpu
    exact ⟨{ result := .error e, cpu, tones := p.tones }, _, hlater, fun dbg => rfl⟩
  | ok _ =>
    let cpu := { p.cpu with executed := p.cpu.executed + 1 }
    exact ⟨{ result := .ok true, cpu, tones := p.tones, cpuAtTone := p.cpuAtTone }, _, hlater,
      fun dbg => rfl⟩

theorem inert_step : Inert fun dbg => c.step dbg := by
  unfold step
  split
  · exact .silent rfl
  · split
    · exact .saying (.keyWait c) rfl
    · cases hf : c.fetch.result with
      | error e =>
        simp only [hf]
        exact .silent rfl
      | ok word => simpa only [hf] using c.fetch.cpu.inert_executeFetched c.pc word

theorem inert_setKey (index : Int) (pressed : Bool) :
    Inert fun dbg => c.setKey dbg index pressed := by
  obtain ⟨result, keypad, messages, hs, h⟩ := c.keypad.inert_setKey index pressed
  simp only at h
  simp only [setKey, h]
  exact ⟨{ result := result.map fun _ => (), cpu := { c with keypad } }, messages, hs,
    fun dbg => rfl⟩

end Cpu

/-! ## Frontends -/

/-- The printer decides nothing in the frontend but which messages are printed. -/
structure Frontend.Inert (F : Type) [Frontend F] : Prop where
  draw (grid : Grid) : Action.Inert fun _ => (Frontend.draw grid : Action F Unit)
  poll : Action.Inert fun dbg => (Frontend.poll dbg : Action F (Option InputEvent))
  setTone (on : Bool) : Action.Inert fun _ => (Frontend.setTone on : Action F Unit)

theorem Headless.inert : Frontend.Inert Headless where
  draw _ := .change _
  poll _ := .silent rfl
  setTone _ := .change _

/-! ## Sessions -/

namespace Session

variable {F : Type} [Frontend F] {α : Type}

omit [Frontend F] in
theorem inert_onFrontend {a : Printer → Action F Unit} (ha : Action.Inert a) :
    Action.Inert fun dbg => onFrontend (a dbg) := by
  intro s
  simp only [Action.run, onFrontend]
  split
  · exact (ha s.frontend).mapState fun frontend => { s with frontend }
  · exact .done () s

variable (hf : Frontend.Inert F)

include hf

/-! ### Operations of the processor -/

theorem inert_forwardTone (active : Bool) :
    Action.Inert (forwardTone (F := F) · active) :=
  .bind (.say (.tone active)) fun _ => inert_onFrontend (hf.setTone active)

theorem inert_forwardTones : ∀ tones : List Bool,
    Action.Inert (forwardTones (F := F) · tones)
  | [], s => .done () s
  | active :: rest, s =>
    (inert_forwardTone hf active s).andThen fun _ s => inert_forwardTones rest s

/-- The processor speaks before the frontend is told of the tone. -/
theorem inert_install {o : Printer → CpuOutcome α} (ho : CpuOutcome.Inert o) (s : Session F) :
    Outcome.Inert fun dbg => s.install dbg (o dbg) := by
  obtain ⟨p, messages, hs, h⟩ := ho
  obtain ⟨result, told, more, hs', h'⟩ := inert_forwardTones hf p.tones (s.setCpu p.cpuAtTone)
  simp only [Action.run] at h'
  have hall := List.forall_mem_append.mpr ⟨hs, hs'⟩
  simp only [install, h, h', ← Debug.linesOf_append]
  cases result with
  | ok _ => exact ⟨p.result, told.setCpu p.cpu, messages ++ more, hall, fun _ => rfl⟩
  | error e => exact ⟨.error e, told, messages ++ more, hall, fun _ => rfl⟩

theorem inert_setKey (index : Int) (pressed : Bool) :
    Action.Inert (setKey (F := F) · index pressed) := fun s =>
  inert_install hf (s.machine.cpu.inert_setKey index pressed) s

theorem inert_step : Action.Inert (step (F := F)) := fun s =>
  inert_install hf s.machine.cpu.inert_step s

theorem inert_tick : Action.Inert (tick (F := F)) := fun s =>
  inert_install hf (.silent rfl) s

theorem inert_reset : Action.Inert (reset (F := F)) := fun s =>
  inert_install hf (.silent rfl) s

theorem inert_attach : Action.Inert fun _ => attach (F := F) := by
  intro s
  simp only [Action.run, attach]
  split
  · exact inert_onFrontend (hf.setTone true) _
  · exact .done () _

/-! ### Cycles and frames -/

/-- What is recorded follows from the states around the step and from how it ended. -/
theorem inert_recordedStep : Action.Inert (recordedStep (F := F)) := by
  intro s
  obtain ⟨seen, hseen⟩ := s.machine.cpu.upcoming_eq_ok
  obtain ⟨result, t, messages, hm, h⟩ := inert_step hf s
  simp only [Action.run] at h
  simp only [Action.run, recordedStep, hseen, h]
  cases result with
  | ok stepped =>
    exact ⟨.ok stepped, t.updateTrace (traceStep seen s.machine.cpu t.machine.cpu stepped),
      messages, hm, fun _ => rfl⟩
  | error e =>
    simp only
    split
    · exact ⟨.error e,
        t.updateTrace (·.record (traceEntry seen s.machine.cpu t.machine.cpu false "fault")),
        messages, hm, fun _ => rfl⟩
    · exact ⟨.error e, t, messages, hm, fun _ => rfl⟩

theorem inert_cycle : Action.Inert (cycle (F := F)) := by
  intro s
  simp only [Action.run, cycle]
  cases s.machine.trace with
  | none => exact inert_step hf s
  | some _ => exact inert_recordedStep hf s

theorem inert_runCycles : ∀ count : Nat, Action.Inert (runCycles (F := F) · count)
  | 0, s => .done 0 s
  | count + 1, s => by
    simp only [Action.run, runCycles_succ]
    exact (inert_cycle hf s).andThen fun stepped s => (inert_runCycles count s).map _

theorem inert_drainWithin : ∀ bound : Nat, Action.Inert (drainWithin (F := F) · bound)
  | 0, s => .done true s
  | bound + 1, s => by
    refine ((hf.poll s.frontend).mapState fun frontend => { s with frontend }).andThen
      fun event s => ?_
    match event with
    | none => exact .done true s
    | some .quit => exact .done false s
    | some (.key index pressed) =>
      exact (inert_setKey hf index pressed s).andThen fun _ s => inert_drainWithin bound s

theorem inert_draw : Action.Inert fun _ => draw (F := F) := fun s =>
  inert_onFrontend (hf.draw s.machine.cpu.display.rows) s

theorem inert_advanceFrame : Action.Inert (advanceFrame (F := F)) := fun s =>
  (inert_runCycles hf s.machine.cyclesPerFrame s).andThen fun executed s =>
    (inert_tick hf s).andThen fun _ s =>
      (Action.Inert.say (.frame _ executed _ _ _) s.countFrame).andThen fun _ s => inert_draw hf s

theorem inert_runFrame : Action.Inert (runFrame (F := F)) := by
  intro s
  have hinput : Outcome.Inert fun dbg =>
      if s.attached then drainInput dbg s else .done true s [] := by
    split
    · exact inert_drainWithin hf _ s
    · exact .done true s
  refine hinput.andThen fun goesOn s => ?_
  cases goesOn with
  | false => exact .done false s
  | true => exact (inert_advanceFrame hf s).map fun _ => true

/-! ### Requests -/

omit hf

/-- What can be asked of a session, or be done to it. -/
inductive Request (F : Type) where
  | event (e : Event F)
  /-- The processor carries a word out that was not fetched. -/
  | execute (word : Int)
  /-- The state is changed from outside. -/
  | change (f : Session F → Session F)

def respond (dbg : Printer) : Request F → Action (Session F) Answer
  | .event .step, s => (step dbg s).map .flag
  | .event (.cycles count), s => (runCycles dbg count s).map .count
  | .event .frame, s => (runFrame dbg s).map .flag
  | .event (.key index pressed), s => (setKey dbg index pressed s).map fun _ => .nothing
  | .event .tick, s => (tick dbg s).map fun _ => .nothing
  | .event .reset, s => (reset dbg s).map fun _ => .nothing
  | .event .attach, s => (attach s).map fun _ => .nothing
  | .event .detach, s => .done .nothing s.detach []
  | .event (.change f), s => .done .nothing { s with frontend := f s.frontend } []
  | .execute word, s => (s.install dbg (s.machine.cpu.execute dbg word)).map fun _ => .nothing
  | .change f, s => .done .nothing (f s) []

include hf

theorem inert_respond (r : Request F) : Action.Inert (respond · r) := by
  intro s
  cases r with
  | event e =>
    cases e with
    | step => exact (inert_step hf s).map _
    | cycles count => exact (inert_runCycles hf count s).map _
    | frame => exact (inert_runFrame hf s).map _
    | key index pressed => exact (inert_setKey hf index pressed s).map _
    | tick => exact (inert_tick hf s).map _
    | reset => exact (inert_reset hf s).map _
    | attach => exact (inert_attach hf s).map _
    | detach => exact .done _ _
    | change f => exact .done _ _
  | execute word => exact (inert_install hf (s.machine.cpu.inert_execute word) s).map _
  | change f => exact .done _ _

end Session

end Chip8
