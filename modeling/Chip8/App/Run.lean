import Chip8.App.Ui
import Chip8.Machine.Session
import Chip8.Program

/-!
# The application

The user interface with the machine that it shows, from loading a program to the end of the
session. An instruction that fails ends the session with a report.
-/

namespace Chip8

open Debug (Printer)

/-- The user interface, its machine once a program is loaded, and the record of its steps. -/
structure App where
  ui : Ui
  machine : Option Machine
  trace : Option TraceRecorder

namespace App

/-- The number of steps that an application records. -/
def traceCapacity : Nat := 512

/-- How many of them a report shows. -/
def reportedSteps : Int := 32

/-- The application at its start. It records its steps if lines about them are wanted. -/
def create (dbg : Printer) (config : AppConfig) (host : Host) : Except Error App :=
  match Ui.create config host with
  | .error e => .error e
  | .ok ui =>
    .ok
      { ui
        machine := none
        trace := if dbg.enabled (some "trace") then some (.blank traceCapacity) else none }

/-- An operation of the user interface. -/
def onUi {α : Type} (a : Action Ui α) : Action App α :=
  a.onPart App.ui fun ui app => { app with ui }

/-- An operation, with a name, of the session that the machine and the user interface form. -/
def onSession {α : Type} (name : String) (a : Action (Session Ui) α) : Action App α := fun app =>
  match app.machine with
  | none => .failed (.memberLacking .nothing name) app []
  | some machine =>
    (a.run ⟨{ machine with trace := app.trace }, app.ui, true⟩).mapState fun s =>
      { app with ui := s.frontend, machine := some s.machine, trace := s.machine.trace }

/-- Why a program could not be loaded. -/
def loadError (path : Text.Path) (e : Error) : Error :=
  match e with
  | .fileMissing => .programNotFound path.render
  | .programEmpty | .programTooLong _ => .programRejected path.render e.message
  | _ => e

def randomSource (config : AppConfig) : Except Error RandomSource :=
  match config.seed with
  | .unset => .ok (.ofSeed 0)
  | .number n => .ok (.ofSeed n)
  | .unusable => .error .seedUnusable

/-- Loads the program at a path into a new machine. -/
def load (dbg : Printer) (files : Directory) (path : Text.Path) : Action App Unit := do
  let (image, lines) := ProgramImage.loadFile dbg files path
  Action.print lines
  match image with
  | .error e => throw (loadError path e)
  | .ok image =>
    let app ← get
    let config := app.ui.config
    let random ← liftExcept (randomSource config)
    let machine ← liftExcept (Machine.create
      { dialect := config.dialect
        program := .listed image.numbers
        cyclesPerFrame := config.cyclesPerFrame
        random
        trace := app.trace })
    set { app with machine := some machine }

/-- The text of the report on a failed instruction of a machine: where the instruction is, its
word, and what went wrong. -/
def faultText (cpu : Cpu) (e : Error) : String :=
  match e with
  | .counterOutside pc _ => "CPU fault at pc=" ++ Text.wordText pc ++ ": " ++ e.message
  | e =>
    let opcode := match cpu.lastWord with
      | some word => Text.wordText word
      | none => "----"
    "CPU fault at pc=" ++ Text.wordText (lowWord (cpu.pc - 2)) ++ " opcode=" ++ opcode ++ ": " ++
      e.message

/-- Reports a failed instruction and prints the steps before it. -/
def describeFault (dbg : Printer) (e : Error) : Action App String := do
  let app ← get
  let report := match app.machine with
    | some machine => faultText machine.cpu e
    | none => e.message
  Action.say dbg "trace" report []
  match app.trace with
  | some trace => trace.dump dbg "trace" (some reportedSteps)
  | none => pure ()
  return report

/-- Executes one instruction: the number executed, or the report if it failed. -/
def step (dbg : Printer) : Action App (Except String Nat) :=
  tryCatchThe Error (.ok <$> onSession "run_cycles" (Session.runCycles dbg 1)) fun e =>
    if e.isFault then .error <$> describeFault dbg e else throw e

/-- One frame; false once the user wants to quit. -/
def frame (dbg : Printer) : Action App Bool :=
  onSession "run_frame" (Session.runFrame dbg)

/-- One frame in which a failed instruction becomes a report, and the wait for its end. -/
def timedFrame (dbg : Printer) : Action App Bool := do
  let goesOn ← tryCatchThe Error (frame dbg) fun e => do
    if e.isFault then
      let report ← describeFault dbg e
      throw (.faulted report)
    else throw e
  onUi (modify fun u => { u with host := u.host.tick u.config.frameRate })
  return goesOn

/-- Frames until the user wants to quit, but no more than the given number. -/
def framesWithin (dbg : Printer) : Nat → Action App Unit
  | 0 => pure ()
  | bound + 1 => do
    if ← timedFrame dbg then framesWithin dbg bound

/-- Ends the tone and leaves the host. -/
def finish (u : Ui) : Ui :=
  let u := match u.beeper with
    | none => u
    | some beeper =>
      let (beeper, host) := beeper.shutdown u.host
      { u with beeper := some beeper, host }
  u.call .quit

/-- An action and, however it ended, a last change of the state. -/
def thenAlways {σ α : Type} (a : Action σ α) (last : σ → σ) : Action σ α :=
  fun state => (a.run state).mapState last

/-- Opens the window and what belongs to it. -/
def setUp (dbg : Printer) (path : Text.Path) : Action Ui Unit := do
  let config := (← get).config
  modify (Ui.call (.preInit 44100 (-16) 1 512))
  modify (Ui.call .init)
  modify (Ui.call (.caption ("CHIP-8 - " ++ path.stem)))
  Ui.initAudio dbg
  if config.gamepadEnabled then Ui.openStick dbg .nothing
  modify (Ui.setMode (FrameBuffer.standardWidth * config.scale)
    (FrameBuffer.standardHeight * config.scale) config.fullscreen)

/-- The whole session. Every frame asks the host for events at least once, so the number of frames
is bounded by the batches of events that the host has. -/
def run (dbg : Printer) (files : Directory) : Action App Unit := do
  let app ← get
  if !app.ui.host.loadable then throw (.libraryMissing .window)
  match app.ui.config.programPath with
  | none => throw .programRequired
  | some path =>
    load dbg files path
    onUi (setUp dbg path)
    thenAlways (framesWithin dbg (app.ui.host.batches.length + 2))
      fun app => { app with ui := finish app.ui }

end App

end Chip8
