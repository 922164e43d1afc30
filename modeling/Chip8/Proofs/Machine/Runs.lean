import Chip8.Proofs.Cpu.Bounds
import Chip8.Proofs.Machine.Lines

/-!
# Runs of a session

`Session.Event` is what can happen to a session from outside, `Session.run` a sequence of events, in
any order. An event that fails leaves its state behind, and the run goes on from there.

* `Session.KeptByParts`: what every part of a cycle or a frame keeps, cycles and frames keep.
* `Machine.KeptBetweenResets.run`, `Cpu.Kept.run`: what every event keeps, or every operation of the
  processor, holds along a whole run, whatever the frontend does and wherever it fails.
* `Machine.create_eq_ok_iff`: which configurations give a machine, and which one.
* `run_wellFormed`: a machine that has been built keeps its bounds through every run.
-/

namespace Chip8

open Debug (Printer)

/-! ## States that operations leave behind -/

theorem Outcome.state_andThen {σ α β : Type} {o : Outcome σ α} {next : α → σ → Outcome σ β}
    {Q : σ → Prop} (h : Q o.state) (hn : ∀ a s, Q s → Q (next a s).state) :
    Q (o.andThen next).state := by
  cases hr : o.result with
  | error e =>
    rw [andThen_of_error hr]
    exact h
  | ok a =>
    rw [andThen_of_ok hr]
    exact hn a o.state h

theorem Action.state_countTrue {σ : Type} {Q : σ → Prop} {a : Action σ Bool}
    (ha : ∀ s, Q s → Q (a.run s).state) (n : Nat) {s : σ} (h : Q s) :
    Q ((a.countTrue n).run s).state := by
  induction n generalizing s with
  | zero => exact h
  | succ n ih =>
    rw [countTrue_succ, run_bind]
    exact Outcome.state_andThen (ha s h) fun _ later hl =>
      Outcome.state_andThen (ih hl) fun _ _ h => h

namespace Session

variable {F : Type} [Frontend F] {α : Type}

/-! ## Events -/

/-- What can happen to a session from outside. -/
inductive Event (F : Type) where
  | step
  | cycles (count : Nat)
  | frame
  | key (index : Int) (pressed : Bool)
  | tick
  | reset
  | attach
  | detach
  /-- The frontend changes by itself, as when input arrives, or another one takes its place. -/
  | change (f : F → F)

/-- The session after an event, which may fail. -/
def apply (dbg : Printer) : Event F → Session F → Session F
  | .step, s => (step dbg s).state
  | .cycles count, s => (runCycles dbg count s).state
  | .frame, s => (runFrame dbg s).state
  | .key index pressed, s => (setKey dbg index pressed s).state
  | .tick, s => (tick dbg s).state
  | .reset, s => (reset dbg s).state
  | .attach, s => (attach s).state
  | .detach, s => s.detach
  | .change f, s => { s with frontend := f s.frontend }

/-- The session after events in turn. -/
def run (dbg : Printer) (events : List (Event F)) (s : Session F) : Session F :=
  events.foldl (fun s e => apply dbg e s) s

/-- A run keeps what each of its events keeps. -/
theorem run_induction {dbg : Printer} {Q : Session F → Prop} {events : List (Event F)}
    (ha : ∀ e ∈ events, ∀ s, Q s → Q (apply dbg e s)) {s : Session F} (h : Q s) :
    Q (run dbg events s) := by
  induction events generalizing s with
  | nil => exact h
  | cons e events ih =>
    have he : Q (apply dbg e s) := ha e List.mem_cons_self s h
    exact ih (fun e' he' => ha e' (List.mem_cons_of_mem e he')) he

theorem run_append (dbg : Printer) (events more : List (Event F)) (s : Session F) :
    run dbg (events ++ more) s = run dbg more (run dbg events s) :=
  List.foldl_append

/-! ## The frontend leaves the machine alone -/

omit [Frontend F] in
theorem machine_onFrontend (a : Action F Unit) (s : Session F) :
    (onFrontend a s).state.machine = s.machine := by
  unfold onFrontend
  split <;> rfl

theorem machine_forwardTones (dbg : Printer) : ∀ (tones : List Bool) (s : Session F),
    (forwardTones dbg tones s).state.machine = s.machine
  | [], _ => rfl
  | active :: rest, s => by
    have hone : ((forwardTone dbg active).run s).state.machine = s.machine := by
      rw [forwardTone_eq]
      exact machine_onFrontend (Frontend.setTone active) s
    refine Outcome.state_andThen (Q := fun t : Session F => t.machine = s.machine)
      hone fun _ t ht => ?_
    exact (machine_forwardTones dbg rest t).trans ht

theorem machine_attach (s : Session F) : (attach s).state.machine = s.machine := by
  unfold attach
  simp only
  split
  · exact machine_onFrontend _ _
  · rfl

/-- An operation that leaves the tone alone leaves the frontend alone. -/
theorem install_of_tones_nil {o : CpuOutcome α} (h : o.tones = []) (dbg : Printer)
    (s : Session F) : s.install dbg o = ⟨o.result, s.setCpu o.cpu, o.lines⟩ := by
  unfold install
  rw [h]
  simp only [forwardTones, Outcome.done, List.append_nil, setCpu]

theorem step_of_tones_nil {dbg : Printer} {s : Session F}
    (h : (s.machine.cpu.step dbg).tones = []) :
    step dbg s =
      ⟨(s.machine.cpu.step dbg).result, s.setCpu (s.machine.cpu.step dbg).cpu,
        (s.machine.cpu.step dbg).lines⟩ :=
  install_of_tones_nil h dbg s

theorem cpu_step_of_tones_nil {dbg : Printer} {s : Session F}
    (h : (s.machine.cpu.step dbg).tones = []) :
    (step dbg s).state.machine.cpu = (s.machine.cpu.step dbg).cpu := by
  rw [step_of_tones_nil h]
  rfl

theorem result_of_install {dbg : Printer} {o : CpuOutcome α} {s : Session F} {answer : α}
    (h : (s.install dbg o).result = .ok answer) : o.result = .ok answer := by
  unfold install at h
  simp only at h
  split at h
  · exact h
  · cases h

/-! ## What a run keeps -/

variable {dbg : Printer} {Q : Machine → Prop}

theorem machine_install {o : CpuOutcome α} {s : Session F}
    (h : o.All fun cpu => Q { s.machine with cpu }) : Q (s.install dbg o).state.machine := by
  have ht := machine_forwardTones dbg o.tones (s.setCpu o.cpuAtTone)
  unfold install
  simp only
  split
  · rw [setCpu, ht]
    exact h.1
  · rw [ht]
    exact h.2

end Session

/-- Whatever cycles and frames are made of ends where `Q` holds if it starts there. -/
structure Session.KeptByParts {F : Type} [Frontend F] (dbg : Printer) (Q : Session F → Prop) :
    Prop where
  step {s : Session F} : Q s → Q (step dbg s).state
  tick {s : Session F} : Q s → Q (tick dbg s).state
  setKey {s : Session F} (index : Int) (pressed : Bool) :
    Q s → Q (setKey dbg index pressed s).state
  poll {s : Session F} :
    Q s → Q { s with frontend := ((Frontend.poll dbg).run s.frontend).state }
  draw {s : Session F} : Q s → Q (draw s).state
  trace {s : Session F} (trace : Option TraceRecorder) :
    Q s → Q { s with machine := { s.machine with trace } }
  countFrame {s : Session F} : Q s → Q s.countFrame

namespace Session.KeptByParts

variable {F : Type} [Frontend F] {dbg : Printer} {Q : Session F → Prop} {s : Session F}

theorem cycle (hk : KeptByParts dbg Q) (h : Q s) : Q (cycle dbg s).state := by
  have hs : Q (s.step dbg).state := hk.step h
  unfold Session.cycle
  split
  · exact hs
  unfold recordedStep
  simp only
  split
  · exact h
  split
  · exact hk.trace _ hs
  · split
    · exact hk.trace _ hs
    · exact hs

theorem runCycles (hk : KeptByParts dbg Q) (count : Nat) (h : Q s) :
    Q (runCycles dbg count s).state :=
  Action.state_countTrue (fun _ => hk.cycle) count h

theorem drainWithin (hk : KeptByParts dbg Q) (bound : Nat) (h : Q s) :
    Q (drainWithin dbg bound s).state := by
  induction bound generalizing s with
  | zero => exact h
  | succ bound ih =>
    refine Outcome.state_andThen (Q := Q) (hk.poll h) fun event t ht => ?_
    match event with
    | none => exact ht
    | some .quit => exact ht
    | some (.key index pressed) =>
      exact Outcome.state_andThen (hk.setKey index pressed ht) fun _ _ => ih

theorem input (hk : KeptByParts dbg Q) (h : Q s) :
    Q (if s.attached then drainInput dbg s else .done true s []).state := by
  split
  · exact hk.drainWithin _ h
  · exact h

theorem advanceFrame (hk : KeptByParts dbg Q) (h : Q s) : Q (advanceFrame dbg s).state := by
  rw [advanceFrame_eq]
  refine Outcome.state_andThen (Q := Q) (hk.runCycles _ h) fun executed t ht => ?_
  refine Outcome.state_andThen (Q := Q) (hk.tick ht) fun _ u hu => ?_
  exact hk.draw (hk.countFrame hu)

theorem runFrame (hk : KeptByParts dbg Q) (h : Q s) : Q (runFrame dbg s).state := by
  refine Outcome.state_andThen (Q := Q) (hk.input h) fun goesOn t ht => ?_
  split
  · exact hk.advanceFrame ht
  · exact ht

end Session.KeptByParts

/-- Whatever can happen to a machine but a reset ends where `Q` holds if it starts there. -/
structure Machine.KeptBetweenResets (dbg : Printer) (Q : Machine → Prop) : Prop where
  step {m : Machine} : Q m → (m.cpu.step dbg).All fun cpu => Q { m with cpu }
  tick {m : Machine} : Q m → m.cpu.tick.All fun cpu => Q { m with cpu }
  setKey {m : Machine} (index : Int) (pressed : Bool) :
    Q m → (m.cpu.setKey dbg index pressed).All fun cpu => Q { m with cpu }
  trace {m : Machine} (trace : Option TraceRecorder) : Q m → Q { m with trace }
  frameCount {m : Machine} (frameCount : Nat) : Q m → Q { m with frameCount }

namespace Machine.KeptBetweenResets

open Session

variable {F : Type} [Frontend F] {dbg : Printer} {Q : Machine → Prop}

theorem parts (hk : KeptBetweenResets dbg Q) :
    Session.KeptByParts dbg fun s : Session F => Q s.machine where
  step h := machine_install (hk.step h)
  tick h := machine_install (hk.tick h)
  setKey index pressed h := machine_install (hk.setKey index pressed h)
  poll h := h
  draw {s} h := by
    have hd : (draw s).state.machine = s.machine := machine_onFrontend _ _
    rw [hd]
    exact h
  trace trace h := hk.trace trace h
  countFrame h := hk.frameCount _ h

theorem apply (hk : KeptBetweenResets dbg Q) {e : Event F} (he : e ≠ .reset) {s : Session F}
    (h : Q s.machine) : Q (apply dbg e s).machine := by
  cases e with
  | step => exact machine_install (hk.step h)
  | cycles count => exact hk.parts.runCycles count h
  | frame => exact hk.parts.runFrame h
  | key index pressed => exact machine_install (hk.setKey index pressed h)
  | tick => exact machine_install (hk.tick h)
  | reset => exact absurd rfl he
  | attach =>
    show Q (attach s).state.machine
    rw [machine_attach]
    exact h
  | detach => exact h
  | change f => exact h

/-- A run without a reset keeps what every other event keeps. -/
theorem run (hk : KeptBetweenResets dbg Q) {events : List (Event F)} (hr : .reset ∉ events)
    {s : Session F} (h : Q s.machine) : Q (run dbg events s).machine :=
  run_induction (Q := fun s => Q s.machine)
    (fun _ he _ => hk.apply fun heq => hr (heq ▸ he)) h

end Machine.KeptBetweenResets

namespace Cpu

open Session

variable {F : Type} [Frontend F] {dbg : Printer} {P : Cpu → Prop}

/-- What the operations of the processor keep does not depend on the rest of the machine. -/
theorem KeptBetweenResets.machine (hk : KeptBetweenResets dbg P) :
    Machine.KeptBetweenResets dbg (P ·.cpu) where
  step := hk.step
  tick := hk.tick
  setKey := hk.setKey
  trace _ h := h
  frameCount _ h := h

/-- One event keeps what the operations of the processor keep. -/
theorem Kept.apply (hk : Kept dbg P) (e : Session.Event F) {s : Session F} (h : P s.machine.cpu) :
    P (apply dbg e s).machine.cpu := by
  by_cases he : e = .reset
  · subst he
    exact machine_install (Q := (P ·.cpu)) (hk.reset h)
  · exact hk.toKeptBetweenResets.machine.apply he h

/-- A run keeps what the operations of the processor keep. -/
theorem Kept.run (hk : Kept dbg P) (events : List (Session.Event F)) {s : Session F}
    (h : P s.machine.cpu) : P (run dbg events s).machine.cpu :=
  run_induction (Q := fun s => P s.machine.cpu) (fun e _ _ => hk.apply e) h

end Cpu

/-! ## Machines that can be built -/

/-- The machine of a configuration with a program that fits. -/
def Machine.initial (config : MachineConfig) : Machine where
  cpu :=
    .create (Memory.standard.overwrite programStart (config.program.toList.map toCell)) .standard
      .released config.dialect .standard config.random
  cyclesPerFrame := config.cyclesPerFrame.toNat
  trace := config.trace
  frameCount := 0

theorem Memory.loadData_standard (program : Data) :
    standard.loadData program =
      if program.allBytes then
        if program.length ≤ maxProgramSize then
          (.ok program.length, standard.overwrite programStart (program.toList.map toCell))
        else (.error (.programTooLarge program.length maxProgramSize), standard)
      else (.error .notAByte, standard) := by
  have hs : standard.size - programStart = maxProgramSize := by
    rw [size_standard]
    rfl
  rw [loadData_eq, loadProgram, Data.length_toList, ← Data.allBytes_eq, hs]
  simp only [gt_iff_lt, ← Nat.not_le, ite_not]

theorem Machine.create_eq_ok_iff {config : MachineConfig} {m : Machine} :
    Machine.create config = .ok m ↔
      (0 < config.cyclesPerFrame ∧ config.program.allBytes ∧
        config.program.length ≤ maxProgramSize) ∧ m = initial config := by
  unfold Machine.create
  rw [Memory.loadData_standard]
  by_cases hc : config.cyclesPerFrame ≤ 0
  · simp [hc, Int.not_lt.mpr hc]
  by_cases hb : config.program.allBytes = true
  · by_cases hl : config.program.length ≤ maxProgramSize
    · simp [hc, hb, hl, initial, eq_comm, Int.not_le.mp hc]
    · simp [hc, hb, hl]
  · simp [hc, hb]

theorem Machine.table_initial (config : MachineConfig) :
    (initial config).cpu.table = .standard := by
  simp only [initial, Cpu.create]

theorem Machine.initial_wellFormed {config : MachineConfig}
    (hl : config.program.length ≤ maxProgramSize) : (initial config).cpu.WellFormed := by
  have hfits : programStart + (config.program.toList.map toCell).length ≤ Memory.standard.size := by
    rw [List.length_map, Data.length_toList]
    exact Memory.room_standard hl
  exact .create ((Memory.size_overwrite hfits).trans Memory.size_standard) _ _ _ _

/-! ## The bounds along a run -/

theorem FrameBuffer.mem_rows {f : FrameBuffer} {row : List Int} (h : row ∈ f.rows) :
    row.length = f.width ∧ ∀ pixel ∈ row, pixel = 0 ∨ pixel = 1 := by
  simp only [rows, FrameBuffer.row, List.mem_map, List.mem_range] at h
  obtain ⟨y, -, rfl⟩ := h
  refine ⟨by simp, fun pixel hp => ?_⟩
  obtain ⟨x, -, rfl⟩ := List.mem_map.mp hp
  split
  · exact .inr rfl
  · exact .inl rfl

/-- A machine is built from every program of bytes that fits, and stays within its bounds through
every run, of which any part may fail. -/
theorem Session.run_wellFormed {config : MachineConfig} (hc : 0 < config.cyclesPerFrame)
    (hb : config.program.allBytes) (hl : config.program.length ≤ maxProgramSize) :
    ∃ m, Machine.create config = .ok m ∧
      ∀ (F : Type) [Frontend F] (dbg : Printer) (frontend : F) (attached : Bool)
        (events : List (Event F)),
        let c := (run dbg events ⟨m, frontend, attached⟩).machine.cpu
        c.WellFormed ∧ c.display.rows.length = 32 ∧
          ∀ row ∈ c.display.rows, row.length = 64 ∧ ∀ pixel ∈ row, pixel = 0 ∨ pixel = 1 := by
  refine ⟨_, Machine.create_eq_ok_iff.mpr ⟨⟨hc, hb, hl⟩, rfl⟩, ?_⟩
  intro F _ dbg frontend attached events c
  have hw : c.WellFormed := (Cpu.WellFormed.kept dbg).run events (Machine.initial_wellFormed hl)
  refine ⟨hw, (FrameBuffer.length_rows _).trans hw.height, fun row hr => ?_⟩
  obtain ⟨hlen, hbits⟩ := FrameBuffer.mem_rows hr
  exact ⟨hlen.trans hw.width, hbits⟩

/-- A program that calls a subroutine over and over, which sounds the tone and returns. -/
def MachineConfig.beeping : MachineConfig where
  dialect := .legacy
  program := .listed [0x22, 0x04, 0x12, 0x00, 0x60, 0x05, 0xF0, 0x18, 0x00, 0xEE]
  cyclesPerFrame := 12
  random := .ofSequence fun _ => 0
  trace := none

theorem Session.run_wellFormed_beeping :
    ∃ m, Machine.create .beeping = .ok m ∧
      (run .off [.attach, .step, .key 16 true, .frame, .reset, .cycles 3]
        (⟨m, Headless.start, false⟩ : Session Headless)).machine.cpu.WellFormed := by
  have hc : 0 < MachineConfig.beeping.cyclesPerFrame := by decide
  obtain ⟨m, hm, hr⟩ := run_wellFormed hc (by decide) (by decide)
  exact ⟨m, hm, (hr Headless .off .start false _).1⟩

end Chip8
