import Chip8.Proofs.Machine.Lines
import Chip8.Proofs.Memory.Spans

/-!
# What a trace changes

Nothing but itself. An operation on a session commutes with a change of the state if it makes no
difference which of the two comes first (`Action.Commutes`). Steps, ticks, input and pictures
commute with any change of the recorder (`withTrace`), as they do not look at it. A cycle does, and
is a different program with a recorder and without one; it still commutes with taking the recorder
away (`cycle_commutes`), since looking at the word that is coming up never fails. So do cycles and
frames, which gives `untraced_run`.
-/

namespace Chip8

open Debug (Printer)

/-! ## Actions that commute with a change of the state -/

theorem Outcome.mapState_andThen {σ τ α β : Type} {f : σ → τ} {o : Outcome σ α}
    {next : α → σ → Outcome σ β} {next' : α → τ → Outcome τ β}
    (h : ∀ a s, next' a (f s) = (next a s).mapState f) :
    (o.mapState f).andThen next' = (o.andThen next).mapState f := by
  obtain ⟨result, s, lines⟩ := o
  cases result with
  | error e => rfl
  | ok a =>
    show (next' a (f s)).after lines = ((next a s).after lines).mapState f
    rw [h]
    rfl

namespace Action

variable {σ α β : Type} {f : σ → σ}

def Commutes (f : σ → σ) (a : Action σ α) : Prop := ∀ s, a.run (f s) = (a.run s).mapState f

namespace Commutes

theorem done (answer : α) : Commutes f fun s => .done answer s [] := fun _ => rfl

theorem andThen {a : Action σ α} {next : α → Action σ β} (ha : a.Commutes f)
    (hn : ∀ answer, (next answer).Commutes f) :
    Commutes f fun s => (a.run s).andThen fun answer s => next answer s := by
  intro s
  show (a.run (f s)).andThen _ = _
  rw [ha s]
  exact Outcome.mapState_andThen hn

theorem map {a : Action σ α} (ha : a.Commutes f) (g : α → β) :
    Commutes f fun s => (a.run s).map g := fun s => congrArg (Outcome.map g) (ha s)

theorem countTrue {a : Action σ Bool} (ha : a.Commutes f) (n : Nat) :
    (a.countTrue n).Commutes f := by
  induction n with
  | zero => exact .done 0
  | succ n ih =>
    rw [countTrue_succ]
    exact ha.andThen fun yes => ih.andThen fun count => .done _

end Commutes

end Action

/-- Looking at the instruction that is coming up never fails, also where nothing can be fetched. -/
theorem Cpu.upcoming_eq_ok (c : Cpu) : ∃ seen, c.upcoming = .ok seen := by
  unfold upcoming
  by_cases hf : c.canFetch c.pc = true
  · have hpc : 0 ≤ c.pc ∧ c.pc < c.memory.size - 1 := by simpa [canFetch] using hf
    obtain ⟨word, hw, -⟩ := Memory.load16_eq_ok hpc.1 hpc.2
    rw [if_pos hf, hw]
    exact ⟨_, rfl⟩
  · rw [if_neg hf]
    exact ⟨_, rfl⟩

namespace Session

variable {F : Type} {α : Type}

/-- The session with another recorder, or with none. -/
def withTrace (trace : Option TraceRecorder) (s : Session F) : Session F :=
  { s with machine := { s.machine with trace } }

/-! ## Operations that do not look at the recorder -/

variable (t : Option TraceRecorder)

theorem onFrontend_commutes (a : Action F Unit) : (onFrontend a).Commutes (withTrace t) := by
  intro s
  show onFrontend a (s.withTrace t) = (onFrontend a s).mapState (withTrace t)
  unfold onFrontend
  by_cases h : s.attached = true
  · rw [if_pos h, if_pos (show (s.withTrace t).attached = true from h)]
    rfl
  · rw [if_neg h, if_neg (show ¬ (s.withTrace t).attached = true from h)]
    rfl

variable [Frontend F] (dbg : Printer)

theorem forwardTones_commutes (tones : List Bool) :
    (forwardTones (F := F) dbg tones).Commutes (withTrace t) := by
  induction tones with
  | nil => exact .done ()
  | cons active rest ih =>
    have h : (forwardTone (F := F) dbg active).Commutes (withTrace t) := by
      intro s
      rw [forwardTone_eq, forwardTone_eq]
      exact congrArg (Outcome.after _) (onFrontend_commutes t (Frontend.setTone active) s)
    exact h.andThen fun _ => ih

theorem install_withTrace (o : CpuOutcome α) (s : Session F) :
    (s.withTrace t).install dbg o = (s.install dbg o).mapState (withTrace t) := by
  have h : forwardTones dbg o.tones ((s.withTrace t).setCpu o.cpuAtTone) =
      (forwardTones dbg o.tones (s.setCpu o.cpuAtTone)).mapState (withTrace t) :=
    forwardTones_commutes t dbg o.tones (s.setCpu o.cpuAtTone)
  unfold install
  simp only [h]
  obtain ⟨result, told, lines⟩ := forwardTones dbg o.tones (s.setCpu o.cpuAtTone)
  cases result <;> rfl

theorem step_commutes : (step (F := F) dbg).Commutes (withTrace t) := fun s =>
  install_withTrace t dbg (s.machine.cpu.step dbg) s

theorem tick_commutes : (tick (F := F) dbg).Commutes (withTrace t) := fun s =>
  install_withTrace t dbg s.machine.cpu.tick s

theorem setKey_commutes (index : Int) (pressed : Bool) :
    (setKey (F := F) dbg index pressed).Commutes (withTrace t) := fun s =>
  install_withTrace t dbg (s.machine.cpu.setKey dbg index pressed) s

theorem drainWithin_commutes (bound : Nat) :
    (drainWithin (F := F) dbg bound).Commutes (withTrace t) := by
  induction bound with
  | zero => exact .done true
  | succ bound ih =>
    have hpoll : Action.Commutes (withTrace t) fun s : Session F =>
        ((Frontend.poll dbg).run s.frontend).mapState fun frontend => { s with frontend } :=
      fun _ => rfl
    refine hpoll.andThen fun event => ?_
    match event with
    | none => exact .done true
    | some .quit => exact .done false
    | some (.key index pressed) => exact (setKey_commutes t dbg index pressed).andThen fun _ => ih

theorem input_commutes :
    Action.Commutes (withTrace t) fun s : Session F =>
      if s.attached then drainInput dbg s else .done true s [] := by
  intro s
  show (if s.attached then drainInput dbg (s.withTrace t) else .done true (s.withTrace t) []) =
    (if s.attached then drainInput dbg s else .done true s []).mapState (withTrace t)
  split
  · exact drainWithin_commutes t dbg (Frontend.backlog s.frontend + 1) s
  · rfl

theorem draw_commutes : (draw (F := F)).Commutes (withTrace t) := fun s =>
  onFrontend_commutes t (Frontend.draw s.machine.cpu.display.rows) s

/-! ## Cycles and frames, with a recorder and without -/

/-- What a recorded step does beside the recording. -/
theorem recordedStep_mapState (s : Session F) :
    (recordedStep dbg s).mapState (withTrace t) = (step dbg s).mapState (withTrace t) := by
  obtain ⟨seen, hs⟩ := s.machine.cpu.upcoming_eq_ok
  unfold recordedStep
  simp only [hs]
  split
  · rfl
  · split <;> rfl

/-- What a cycle does beside the recording is a step. -/
theorem cycle_mapState (s : Session F) :
    (cycle dbg s).mapState (withTrace none) = (step dbg s).mapState (withTrace none) := by
  unfold cycle
  split
  · rfl
  · exact recordedStep_mapState none dbg s

theorem cycle_commutes : (cycle (F := F) dbg).Commutes (withTrace none) := fun s =>
  (step_commutes none dbg s).trans (cycle_mapState dbg s).symm

theorem runCycles_commutes (count : Nat) :
    (runCycles (F := F) dbg count).Commutes (withTrace none) :=
  (cycle_commutes dbg).countTrue count

theorem advanceFrame_commutes : (advanceFrame (F := F) dbg).Commutes (withTrace none) := by
  have hcycles : Action.Commutes (withTrace none) fun s : Session F =>
      runCycles dbg s.machine.cyclesPerFrame s := fun s => runCycles_commutes dbg _ s
  intro s
  simp only [Action.run, advanceFrame_eq]
  refine hcycles.andThen (fun executed => (tick_commutes none dbg).andThen fun _ s => ?_) s
  exact congrArg (Outcome.after _) (draw_commutes none s.countFrame)

theorem runFrame_commutes : (runFrame (F := F) dbg).Commutes (withTrace none) := by
  refine (input_commutes none dbg).andThen fun goesOn => ?_
  cases goesOn with
  | false => exact .done false
  | true => exact (advanceFrame_commutes dbg).map fun _ => true

/-- Cycles and frames end the same way, print the same lines and leave the same session behind but
for the recorder, whether a recorder is there or not. -/
theorem untraced_run (r : TraceRecorder) (count : Nat) (s : Session F) :
    runCycles dbg count (s.withTrace none) =
        (runCycles dbg count (s.withTrace (some r))).mapState (withTrace none) ∧
      runFrame dbg (s.withTrace none) =
        (runFrame dbg (s.withTrace (some r))).mapState (withTrace none) :=
  ⟨runCycles_commutes dbg count (s.withTrace (some r)),
    runFrame_commutes dbg (s.withTrace (some r))⟩

end Session

end Chip8
