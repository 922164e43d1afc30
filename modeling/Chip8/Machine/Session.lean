import Chip8.Cpu.Step
import Chip8.Frontend
import Chip8.Trace

/-!
# Machines

A machine drives the processor frame by frame: it takes the input, executes a number of
instructions, lets the timers go down and shows the picture. A session is a machine with a
frontend, which may be attached or not; changes of the tone go to an attached frontend.
-/

namespace Chip8

open Debug (Printer)

/-- The processor, its pace and the records kept of it. -/
structure Machine where
  cpu : Cpu
  cyclesPerFrame : Nat
  trace : Option TraceRecorder
  frameCount : Nat

structure MachineConfig where
  dialect : Dialect
  program : Data
  cyclesPerFrame : Int
  random : RandomSource
  trace : Option TraceRecorder

/-- The usual number of instructions in a frame. -/
def defaultCyclesPerFrame : Int := 12

/-- The machine of a configuration, with its program loaded. -/
def Machine.create (config : MachineConfig) : Except Error Machine :=
  if config.cyclesPerFrame ≤ 0 then .error .cyclesNotPositive
  else match Memory.standard.loadData config.program with
    | (.error e, _) => .error e
    | (.ok _, memory) =>
      .ok
        { cpu := .create memory .standard .released config.dialect .standard config.random
          cyclesPerFrame := config.cyclesPerFrame.toNat
          trace := config.trace
          frameCount := 0 }

structure Session (F : Type) where
  machine : Machine
  frontend : F
  attached : Bool

namespace Session

variable {F : Type} [Frontend F] {α : Type}

def onFrontend (a : Action F Unit) : Action (Session F) Unit := fun s =>
  if s.attached then (a.run s.frontend).mapState fun frontend => { s with frontend }
  else .done () s []

/-- Reports a change of the tone and tells an attached frontend of it. -/
def forwardTone (dbg : Printer) (active : Bool) : Action (Session F) Unit := do
  Action.say dbg "audio" "tone=%s" [.flag active]
  onFrontend (Frontend.setTone active)

/-- Forwards several changes in turn. -/
def forwardTones (dbg : Printer) : List Bool → Action (Session F) Unit
  | [] => fun s => .done () s []
  | active :: rest => fun s =>
    ((forwardTone dbg active).run s).andThen fun _ s => forwardTones dbg rest s

/-- The session with another state of its processor. -/
def setCpu (cpu : Cpu) (s : Session F) : Session F :=
  { s with machine := { s.machine with cpu } }

/-- What an operation of the processor means for the session. A frontend that fails at a change of
the tone ends the operation there. -/
def install (dbg : Printer) (o : CpuOutcome α) (s : Session F) : Outcome (Session F) α :=
  let told := forwardTones dbg o.tones (s.setCpu o.cpuAtTone)
  match told.result with
  | .ok () => ⟨o.result, told.state.setCpu o.cpu, o.lines ++ told.lines⟩
  | .error e => ⟨.error e, told.state, o.lines ++ told.lines⟩

/-- The frontend is attached. One that comes while the tone sounds is told so. -/
def attach : Action (Session F) Unit := fun s =>
  let s := { s with attached := true }
  if s.machine.cpu.timers.toneActive then (onFrontend (Frontend.setTone true)).run s
  else .done () s []

/-- The frontend is left alone. -/
def detach (s : Session F) : Session F := { s with attached := false }

/-- Changes a key of the keypad. -/
def setKey (dbg : Printer) (index : Int) (pressed : Bool) : Action (Session F) Unit :=
  fun s => s.install dbg (s.machine.cpu.setKey dbg index pressed)

/-- Executes one instruction; false if there was none to execute. -/
def step (dbg : Printer) : Action (Session F) Bool :=
  fun s => s.install dbg (s.machine.cpu.step dbg)

/-- The timers go down. -/
def tick (dbg : Printer) : Action (Session F) Unit :=
  fun s => s.install dbg s.machine.cpu.tick

/-- The processor goes back to the start of the program. -/
def reset (dbg : Printer) : Action (Session F) Unit :=
  fun s => s.install dbg s.machine.cpu.reset

/-! ## Cycles -/

/-- The entry for a step that started at `before`, where `seen` was coming up: the values before it,
but stack, timers and wait as they are `after` it. -/
def traceEntry (seen : Option Nat × String) (before after : Cpu) (awaitingKey : Bool)
    (note : String) : TraceEntry :=
  .ofValues before.pc before.i before.v.toList (seen.1.map fun (w : Nat) => (w : Int))
    after.stack.depth after.timers.delay after.timers.sound awaitingKey seen.2 note

/-- The recorder after a step that executed an instruction or, if `stepped` is false, none. A wait
for a key that goes on at the same place is recorded once. -/
def traceStep (seen : Option Nat × String) (before after : Cpu) (stepped : Bool)
    (r : TraceRecorder) : TraceRecorder :=
  let entry := traceEntry seen before after after.awaitingKey (if stepped then "" else "idle")
  let repeated :=
    match r.last with
    | some last => !stepped && after.awaitingKey && last.awaitingKey && last.pc = before.pc
    | none => false
  if repeated then r else r.record entry

/-- The session with another recorder, made from the one it has. -/
def updateTrace (f : TraceRecorder → TraceRecorder) (s : Session F) : Session F :=
  { s with machine := { s.machine with trace := s.machine.trace.map f } }

/-- A step that is recorded. It looks at the instruction that is coming up before it starts, and a
failed instruction is recorded before its error goes on. -/
def recordedStep (dbg : Printer) : Action (Session F) Bool := fun s =>
  let before := s.machine.cpu
  match before.upcoming with
  | .error e => .failed e s []
  | .ok seen =>
    let o := s.step dbg
    match o.result with
    | .ok stepped =>
      o.mapState fun s => s.updateTrace (traceStep seen before s.machine.cpu stepped)
    | .error e =>
      if e.isFault then
        o.mapState fun s =>
          s.updateTrace (·.record (traceEntry seen before s.machine.cpu false "fault"))
      else o

/-- A step that is recorded if there is a recorder. -/
def cycle (dbg : Printer) : Action (Session F) Bool := fun s =>
  match s.machine.trace with
  | none => s.step dbg
  | some _ => recordedStep dbg s

/-- Up to `count` steps; how many of them executed an instruction. -/
def runCycles (dbg : Printer) (count : Nat) : Action (Session F) Nat :=
  (cycle dbg).countTrue count

@[simp] theorem runCycles_zero (dbg : Printer) (s : Session F) :
    runCycles dbg 0 s = .done 0 s [] := rfl

theorem runCycles_succ (dbg : Printer) (count : Nat) (s : Session F) :
    runCycles dbg (count + 1) s =
      (cycle dbg s).andThen fun stepped s =>
        (runCycles dbg count s).map fun executed => if stepped then executed + 1 else executed := by
  rw [runCycles, Action.countTrue_succ]
  refine congrArg (cycle dbg s).andThen (funext fun stepped => funext fun s => ?_)
  exact Action.run_bind_pure _ _ _

/-! ## Frames -/

/-- Applies input to the keypad until there is none; false once the frontend wants to quit. The
number bounds how often input is taken. -/
def drainWithin (dbg : Printer) : Nat → Action (Session F) Bool
  | 0 => fun s => .done true s []
  | bound + 1 => fun s =>
    (((Frontend.poll dbg).run s.frontend).mapState fun frontend => { s with frontend }).andThen
      fun event s =>
        match event with
        | none => .done true s []
        | some .quit => .done false s []
        | some (.key index pressed) =>
          (s.setKey dbg index pressed).andThen fun _ s => drainWithin dbg bound s

/-- Applies the input that waits; false if the frontend wants to quit. -/
def drainInput (dbg : Printer) : Action (Session F) Bool :=
  fun s => drainWithin dbg (Frontend.backlog s.frontend + 1) s

/-- Reports a frame. -/
def reportFrame (dbg : Printer) (executed : Nat) : Action (Session F) Unit := fun s =>
  let cpu := s.machine.cpu
  (Action.say dbg "perf" "frame=%d executed=%d pc=%04x dt=%d st=%d"
    [.own s.machine.frameCount, .own executed, .own cpu.pc, .own cpu.timers.delay,
      .own cpu.timers.sound]).run s

/-- Shows the picture on an attached frontend. -/
def draw : Action (Session F) Unit := fun s =>
  (onFrontend (Frontend.draw s.machine.cpu.display.rows)).run s

/-- One more frame has passed. -/
def countFrame (s : Session F) : Session F :=
  { s with machine := { s.machine with frameCount := s.machine.frameCount + 1 } }

/-- The part of a frame after the input. -/
def advanceFrame (dbg : Printer) : Action (Session F) Unit := fun s =>
  (runCycles dbg s.machine.cyclesPerFrame s).andThen fun executed s =>
    (tick dbg s).andThen fun _ s =>
      (reportFrame dbg executed s.countFrame).andThen fun _ s => draw s

/-- One frame; false if the frontend wants to quit. -/
def runFrame (dbg : Printer) : Action (Session F) Bool := fun s =>
  (if s.attached then drainInput dbg s else .done true s []).andThen fun goesOn s =>
    if goesOn then (advanceFrame dbg s).map fun _ => true else .done false s []

end Session

end Chip8
