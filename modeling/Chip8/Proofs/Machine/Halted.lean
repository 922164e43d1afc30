import Chip8.Proofs.Cpu.Atomicity
import Chip8.Proofs.Input.Lines
import Chip8.Proofs.Machine.Frontends
import Chip8.Proofs.Machine.Tracing

/-!
# Halted machines

A machine whose processor has halted is at rest until a reset: of its processor only timers and
keypad change, of the rest of it only the recorder and the number of frames (`Machine.Rests`). Its
steps and cycles execute nothing, and what goes wrong with any other event is no fault of an
instruction, unless the frontend raises one of its own (`Session.rests_of_run`).
-/

namespace Chip8

open Debug (Printer)

theorem Cpu.step_of_halted {c : Cpu} (h : c.runState = .halted) (dbg : Printer) :
    c.step dbg = .done false c := by
  have hc : c.halted = true := decide_eq_true h
  unfold step
  rw [if_pos hc]

/-! ## Machines at rest -/

/-- What may have become of a machine that is at rest. -/
def Machine.Rests (m₀ m : Machine) : Prop :=
  ∃ timers keypad trace frameCount,
    m = { m₀ with cpu := { m₀.cpu with timers, keypad }, trace, frameCount }

theorem Machine.Rests.refl (m : Machine) : m.Rests m :=
  ⟨m.cpu.timers, m.cpu.keypad, m.trace, m.frameCount, rfl⟩

theorem Machine.Rests.halted {m₀ m : Machine} (h : m₀.Rests m) (h₀ : m₀.cpu.runState = .halted) :
    m.cpu.runState = .halted := by
  obtain ⟨timers, keypad, trace, frameCount, rfl⟩ := h
  exact h₀

theorem Machine.rests_kept {m₀ : Machine} (h : m₀.cpu.runState = .halted) (dbg : Printer) :
    KeptBetweenResets dbg m₀.Rests where
  step {m} hm := by
    rw [Cpu.step_of_halted (hm.halted h)]
    exact .done hm
  tick := by
    rintro m ⟨timers, keypad, trace, frameCount, rfl⟩
    exact ⟨⟨_, keypad, trace, frameCount, rfl⟩, _, keypad, trace, frameCount, rfl⟩
  setKey index pressed := by
    rintro ⟨timers, keypad, trace, frameCount, rfl⟩
    exact ⟨⟨timers, _, trace, frameCount, rfl⟩, timers, _, trace, frameCount, rfl⟩
  trace trace := by
    rintro ⟨timers, keypad, -, frameCount, rfl⟩
    exact ⟨timers, keypad, trace, frameCount, rfl⟩
  frameCount frameCount := by
    rintro ⟨timers, keypad, trace, -, rfl⟩
    exact ⟨timers, keypad, trace, frameCount, rfl⟩

/-! ## Faults that are not the frontend's -/

/-- Every fault with which the operation ends is one that the frontend raised. -/
def Outcome.FaultsFrom (F : Type) [Frontend F] {σ α : Type} (o : Outcome σ α) : Prop :=
  ∀ e, o.result = .error e → e.isFault = true → Frontend.Raises F e

namespace Outcome.FaultsFrom

variable {F : Type} [Frontend F] {σ α β : Type}

theorem done {answer : α} {s : σ} {lines : List Debug.Line} :
    (Outcome.done answer s lines).FaultsFrom F := nofun

theorem andThen {o : Outcome σ α} {next : α → σ → Outcome σ β} (h : o.FaultsFrom F)
    (hn : ∀ a, (next a o.state).FaultsFrom F) : (o.andThen next).FaultsFrom F := by
  obtain ⟨result, s, lines⟩ := o
  cases result with
  | error e =>
    rintro _ ⟨⟩
    exact h e rfl
  | ok a => exact hn a

theorem map {o : Outcome σ α} (h : o.FaultsFrom F) (f : α → β) : (o.map f).FaultsFrom F := by
  obtain ⟨result, s, lines⟩ := o
  cases result with
  | error e =>
    rintro _ ⟨⟩
    exact h e rfl
  | ok a => exact nofun

end Outcome.FaultsFrom

namespace Session

variable {F : Type} [Frontend F] {α : Type} {dbg : Printer}

/-- How an event ends. -/
def outcome (dbg : Printer) : Event F → Action (Session F) Unit
  | .step => fun s => (step dbg s).map fun _ => ()
  | .cycles count => fun s => (runCycles dbg count s).map fun _ => ()
  | .frame => fun s => (runFrame dbg s).map fun _ => ()
  | .key index pressed => setKey dbg index pressed
  | .tick => tick dbg
  | .reset => reset dbg
  | .attach => attach
  | .detach => fun s => .done () s.detach []
  | .change f => fun s => .done () { s with frontend := f s.frontend } []

theorem faultsFrom_onFrontend {a : Action F Unit}
    (ha : ∀ f e, (a.run f).result = .error e → Frontend.Raises F e) (s : Session F) :
    (onFrontend a s).FaultsFrom F := by
  unfold onFrontend
  split
  · exact fun e he _ => ha s.frontend e he
  · exact .done

theorem faultsFrom_forwardTones :
    ∀ (tones : List Bool) (s : Session F), (forwardTones dbg tones s).FaultsFrom F
  | [], _ => .done
  | active :: rest, s => by
    have h : ((forwardTone dbg active).run s).FaultsFrom F := by
      rw [forwardTone_eq]
      exact faultsFrom_onFrontend (fun f _ => .setTone active f) s
    exact h.andThen fun _ => faultsFrom_forwardTones rest _

theorem faultsFrom_install {o : CpuOutcome α} (ho : ∀ e, o.result = .error e → e.isFault = false)
    (s : Session F) : (s.install dbg o).FaultsFrom F := by
  intro e he hf
  unfold install at he
  simp only at he
  split at he
  · rw [ho e he] at hf
    cases hf
  · rename_i e' he'
    cases he
    exact faultsFrom_forwardTones o.tones (s.setCpu o.cpuAtTone) e he' hf

theorem faultsFrom_tick (s : Session F) : (tick dbg s).FaultsFrom F := by
  refine faultsFrom_install (fun e he => ?_) s
  cases he

theorem faultsFrom_setKey (index : Int) (pressed : Bool) (s : Session F) :
    (setKey dbg index pressed s).FaultsFrom F := by
  refine faultsFrom_install (fun e he => ?_) s
  simp only [Cpu.setKey, Keypad.setKey_eq] at he
  split at he
  · cases he
    rfl
  · cases he

theorem faultsFrom_attach (s : Session F) : (attach s).FaultsFrom F := by
  unfold attach
  simp only
  split
  · exact faultsFrom_onFrontend (fun f _ => .setTone true f) _
  · exact .done

theorem faultsFrom_drainWithin (bound : Nat) (s : Session F) :
    (drainWithin dbg bound s).FaultsFrom F := by
  induction bound generalizing s with
  | zero => exact .done
  | succ bound ih =>
    have hpoll : (((Frontend.poll dbg).run s.frontend).mapState fun frontend =>
        { s with frontend }).FaultsFrom F := fun e he _ => .poll dbg s.frontend he
    refine hpoll.andThen fun event => ?_
    match event with
    | none => exact .done
    | some .quit => exact .done
    | some (.key index pressed) =>
      exact (faultsFrom_setKey index pressed _).andThen fun _ => ih _

/-! ## Events of a halted machine -/

section
variable (dbg) {s : Session F} (h : s.machine.cpu.runState = .halted)
include h

theorem step_of_halted : step dbg s = .done false s [] := by
  have hs : s.machine.cpu.step dbg = .done false s.machine.cpu := Cpu.step_of_halted h dbg
  rw [step, hs]
  exact install_of_tones_nil rfl dbg s

theorem cycle_of_halted : ∃ trace, cycle dbg s = .done false (s.withTrace trace) [] := by
  unfold cycle
  split
  · exact ⟨s.machine.trace, step_of_halted dbg h⟩
  · obtain ⟨seen, hseen⟩ := s.machine.cpu.upcoming_eq_ok
    unfold recordedStep
    simp only [hseen, step_of_halted dbg h]
    exact ⟨_, rfl⟩

theorem runCycles_of_halted (count : Nat) :
    ∃ trace, runCycles dbg count s = .done 0 (s.withTrace trace) [] := by
  induction count generalizing s with
  | zero => exact ⟨s.machine.trace, rfl⟩
  | succ count ih =>
    obtain ⟨t, ht⟩ := cycle_of_halted dbg h
    obtain ⟨t', ht'⟩ := ih (s := s.withTrace t) h
    rw [runCycles_succ, ht, Outcome.andThen_done, ht']
    exact ⟨t', rfl⟩

theorem faultsFrom_advanceFrame : (advanceFrame dbg s).FaultsFrom F := by
  obtain ⟨trace, hrun⟩ := runCycles_of_halted dbg h s.machine.cyclesPerFrame
  rw [advanceFrame_eq, hrun]
  refine (faultsFrom_tick (s.withTrace trace)).andThen fun _ => ?_
  exact faultsFrom_onFrontend (fun f _ => .draw _ f) _

theorem faultsFrom_runFrame : (runFrame dbg s).FaultsFrom F := by
  have hin : (if s.attached then drainInput dbg s else .done true s []).FaultsFrom F := by
    split
    · exact faultsFrom_drainWithin _ s
    · exact .done
  -- the input may have changed keys, but the processor is still halted behind it
  have hrest := (Machine.rests_kept h dbg).parts.input (Machine.Rests.refl s.machine)
  refine hin.andThen fun goesOn => ?_
  split
  · exact (faultsFrom_advanceFrame dbg (hrest.halted h)).map _
  · exact .done

theorem faultsFrom_outcome {e : Event F} (he : e ≠ .reset) : (outcome dbg e s).FaultsFrom F := by
  cases e with
  | step =>
    refine Outcome.FaultsFrom.map ?_ _
    rw [step_of_halted dbg h]
    exact .done
  | cycles count =>
    refine Outcome.FaultsFrom.map ?_ _
    obtain ⟨trace, hrun⟩ := runCycles_of_halted dbg h count
    rw [hrun]
    exact .done
  | frame => exact (faultsFrom_runFrame dbg h).map _
  | key index pressed => exact faultsFrom_setKey index pressed s
  | tick => exact faultsFrom_tick s
  | reset => exact absurd rfl he
  | attach => exact faultsFrom_attach s
  | detach => exact .done
  | change f => exact .done

end

/-- This holds after every run, and so of each event of the run, which comes after a shorter one. -/
theorem rests_of_run (dbg : Printer) {s : Session F} (h : s.machine.cpu.runState = .halted)
    {events : List (Event F)} (hr : .reset ∉ events) :
    let t := run dbg events s
    s.machine.Rests t.machine ∧ step dbg t = .done false t [] ∧
      (∀ count, (runCycles dbg count t).result = .ok 0) ∧
      ∀ event : Event F, event ≠ .reset → ∀ e, (outcome dbg event t).result = .error e →
        e.isFault = true → Frontend.Raises F e := by
  intro t
  have hrest : s.machine.Rests t.machine :=
    (Machine.rests_kept h dbg).run hr (.refl s.machine)
  have ht : t.machine.cpu.runState = .halted := hrest.halted h
  refine ⟨hrest, step_of_halted dbg ht, fun count => ?_, fun event he => ?_⟩
  · obtain ⟨trace, hrun⟩ := runCycles_of_halted dbg ht count
    rw [hrun]
    rfl
  · exact faultsFrom_outcome dbg ht he

end Session

theorem Cpu.step_decimalAtEnd_halted :
    (decimalAtEnd.step .off).tones = [] ∧ (decimalAtEnd.step .off).cpu.runState = .halted := by
  rcases step_failed .off step_decimalAtEnd with ⟨he, -⟩ | ⟨word, lines, -, hs⟩
  · cases he
  · rw [hs]
    exact ⟨rfl, rfl⟩

namespace Session

theorem halted_of_decimalAtEnd {s : Session Headless} (h : s.machine.cpu = .decimalAtEnd) :
    (run .off [.step] s).machine.cpu.runState = .halted := by
  obtain ⟨htones, hhalt⟩ := Cpu.step_decimalAtEnd_halted
  have hs : (run .off [.step] s).machine.cpu = (s.machine.cpu.step .off).cpu :=
    cpu_step_of_tones_nil (by rw [h]; exact htones)
  rw [hs, h]
  exact hhalt

/-- A session whose first step halts the processor. -/
def decimalAtEnd : Session Headless := ⟨⟨.decimalAtEnd, 12, some (.blank 4), 0⟩, .start, true⟩

/-- The input has a key that no keypad has, so that the frame fails. -/
theorem rests_of_run_decimalAtEnd :
    let s := run .off [.step] decimalAtEnd
    s.machine.cpu.runState = .halted ∧
      let t := run .off [.key 3 true, .change (Headless.push (.key 99 true)), .frame, .cycles 5] s
      s.machine.Rests t.machine ∧ (step .off t).result = .ok false ∧
        (runCycles .off 7 t).result = .ok 0 ∧
        ∀ e, (outcome .off .frame t).result = .error e → e.isFault = false := by
  have h := halted_of_decimalAtEnd (s := decimalAtEnd) (by rw [decimalAtEnd])
  -- nothing else about the first step is needed, and unfolding it is slow
  generalize run .off [.step] decimalAtEnd = s at h ⊢
  have hr : Event.reset ∉ ([.key 3 true, .change (Headless.push (.key 99 true)), .frame,
      .cycles 5] : List (Event Headless)) := by simp
  obtain ⟨hrest, hstep, hcycles, hfaults⟩ := rests_of_run .off h hr
  refine ⟨h, hrest, ?_, hcycles 7, fun e he => ?_⟩
  · rw [hstep]
    rfl
  · rw [← Bool.not_eq_true]
    exact fun hf => Headless.not_raises e (hfaults .frame nofun e he hf)

end Session

end Chip8
