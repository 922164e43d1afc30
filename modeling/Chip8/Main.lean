import Chip8.CommandLine.Run

/-!
# The command line

Reads the arguments and the debug setting and runs the program. No multimedia library is linked to
it, so that a session for which the arguments are right ends with a report that says so.
-/

open Chip8 CommandLine

/-- The line that shows how the program is called. -/
def usageLine : String :=
  "usage: run.py --rom ROM [--scale N] [--super-chip] [--cycles-per-frame N] [--fullscreen] " ++
    "[--no-gamepad] [--palette NAME] [--seed N]"

def main (arguments : List String) : IO UInt32 := do
  let setting ← IO.getEnv "CHIP8_DEBUG"
  let dbg := (Debug.Control.start setting).printer .full
  let request := parse arguments
  let file := (request.toOption.bind fun r => r.program.value?).map Text.Path.render
  let found ← try (do let _ ← IO.FS.readBinFile (file.getD "."); pure true) catch _ => pure false
  let (ending, lines) := match request with
    | .error why => (Ending.stopped why, [])
    | .ok request =>
      match configure (fun _ => .ok found) request with
      | .error ending => (ending, [])
      | .ok config =>
        let (ending, _, lines) := runSession dbg config (.ofFiles []) .absent
        (ending, lines)
  for line in lines do
    IO.println line.render
  match ending with
  | .stopped .help => IO.println usageLine
  | .stopped (.usage _) => IO.eprintln usageLine
  | _ => pure ()
  if ending.report ≠ "" then IO.eprintln ending.report
  return ending.status.toUInt32
