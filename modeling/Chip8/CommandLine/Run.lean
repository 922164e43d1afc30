import Chip8.App.Run
import Chip8.CommandLine.Options

/-!
# The program

From the arguments to the end of the session. The program ends with a status: zero after a session,
one after a failed session, two when the arguments are wrong. An error that no report is made for
ends it with status one, too.
-/

namespace Chip8.CommandLine

open Debug (Printer)

/-- How the program ended. -/
inductive Ending where
  | finished
  | stopped (why : Stop)
  | failed (e : Error)
  /-- By an error for which there is no report. -/
  | broken (e : Error)
  deriving DecidableEq, Repr

namespace Ending

def status : Ending → Nat
  | finished => 0
  | stopped .help => 0
  | stopped (.usage _) => 2
  | failed _ | broken _ => 1

/-- The end by an error. -/
def ofError (e : Error) : Ending := if e.isSession then .failed e else .broken e

/-- The report on an early end. -/
def report : Ending → String
  | finished => ""
  | stopped .help => ""
  | stopped (.usage e) => "run.py: error: " ++ e.message
  | failed e => "run.py: " ++ e.message
  | broken e => e.message

end Ending

/-- The value of an option, which has to have one. -/
def need {α : Type} (lacking : Error) (option : Given α) : Except Ending α :=
  match option.value? with
  | none => .error (.broken lacking)
  | some a => .ok a

/-- A number that has to be positive. -/
def needPositive (wrong : UsageError) (option : Given Int) : Except Ending Int := do
  let n ← need (.notOrdered .atMost .list .whole) option
  if n ≤ 0 then throw (.stopped (.usage wrong))
  return n

/-- The program file, which has to exist. -/
def needFile (contains : Text.Path → Except Error Bool) (option : Given Text.Path) :
    Except Ending Text.Path := do
  let path ← need (.memberLacking .list "exists") option
  match contains path with
  | .error e => throw (.broken e)
  | .ok false => throw (.stopped (.usage (.romNotFound path.render)))
  | .ok true => return path

/-- The seed that an option stands for. -/
def seed : Option (Given Int) → Seed
  | none => .unset
  | some .empty => .unusable
  | some (.value n) => .number n

/-- The configuration that is asked for, given which files exist. What is wrong first decides. -/
def configure (contains : Text.Path → Except Error Bool) (r : Request) :
    Except Ending AppConfig := do
  let path ← needFile contains r.program
  let scale ← needPositive .scaleNotPositive r.scale
  let cyclesPerFrame ← needPositive .cyclesNotPositive r.cyclesPerFrame
  let palette ← need (.notAKey .list) r.palette
  return {
    programPath := some path
    scale
    dialect := r.dialect
    cyclesPerFrame
    fullscreen := r.fullscreen
    gamepadEnabled := r.gamepadEnabled
    palette
    seed := seed r.seed }

/-- The session that the arguments ask for: how it ended, the host after it and the lines that were
printed. -/
def runSession (dbg : Printer) (config : AppConfig) (files : Directory) (host : Host) :
    Ending × Host × List Debug.Line :=
  match App.create dbg config host with
  | .error e => (.broken e, host, [])
  | .ok app =>
    let o := (App.run dbg files).run app
    match o.result with
    | .ok () => (.finished, o.state.ui.host, o.lines)
    | .error e => (.ofError e, o.state.ui.host, o.lines)

/-- The whole program on the files of a directory. -/
def run (dbg : Printer) (arguments : List String) (files : Directory) (host : Host) :
    Ending × Host × List Debug.Line :=
  match parse arguments with
  | .error why => (.stopped why, host, [])
  | .ok request =>
    match configure files.contains request with
    | .error ending => (ending, host, [])
    | .ok config => runSession dbg config files host

end Chip8.CommandLine
