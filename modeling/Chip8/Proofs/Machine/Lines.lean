import Chip8.Machine.Session
import Chip8.Proofs.Debug.Spoken

/-!
# The lines of the machine

A session reports changes of the tone and frames. These messages can be printed, so that the
frontend is told of the tone and shown the picture behind them.
-/

namespace Chip8.Session

variable {F : Type} [Frontend F] (dbg : Debug.Printer) (s : Session F)

/-- The lines that report a frame of so many instructions. -/
def frameLines (executed : Nat) : List Debug.Line :=
  dbg.lines "perf" "frame=%d executed=%d pc=%04x dt=%d st=%d"
    [.own s.machine.frameCount, .own executed, .own s.machine.cpu.pc,
      .own s.machine.cpu.timers.delay, .own s.machine.cpu.timers.sound]

theorem forwardTone_eq (active : Bool) :
    (forwardTone dbg active).run s =
      ((onFrontend (Frontend.setTone active)).run s).after
        (dbg.lines "audio" "tone=%s" [.flag active]) := by
  show ((Action.say dbg "audio" "tone=%s" [.flag active]).run s).andThen _ = _
  rw [Action.run_say (.tone active)]
  rfl

omit [Frontend F] in
theorem reportFrame_eq (executed : Nat) :
    (reportFrame dbg executed).run s = .done () s (s.frameLines dbg executed) :=
  Action.run_say (.frame _ _ _ _ _) dbg s

/-- A frame behind its input: the cycles, a tick, one more frame counted, and the picture. -/
theorem advanceFrame_eq :
    advanceFrame dbg s =
      (runCycles dbg s.machine.cyclesPerFrame s).andThen fun executed s =>
        (tick dbg s).andThen fun _ s =>
          (draw s.countFrame).after (s.countFrame.frameLines dbg executed) := by
  have hreport (executed : Nat) (t : Session F) :
      (reportFrame dbg executed t).andThen (fun _ s => draw s) =
        (draw t).after (t.frameLines dbg executed) := by
    show ((reportFrame dbg executed).run t).andThen _ = _
    rw [reportFrame_eq]
    rfl
  simp only [advanceFrame, hreport]

end Chip8.Session
