import Chip8.Proofs.Machine.Input
import Chip8.Proofs.Machine.Steps
import Chip8.Proofs.Machine.Tone

/-!
# The pace of frames

A frame takes the input, runs its cycles and is then closed: the timers go down, the frame is
counted, and an attached frontend is shown the picture. Input and cycles draw nothing and count
nothing (`Session.Undrawn`), and a frame that they end is left there. All others are closed, which
does the three things together (`Session.Closed`), so that a frame comes to an end in one of two
ways (`Session.worked_runFrame`).

Frames in a row that are all closed are `Session.Frames`; what they add up to is `Session.Paced`.
A timer loses one in each of them, unless a step carries out the word that sets it
(`Timers.SetByWord`).
-/

namespace Chip8

open Debug (Printer)

/-! ## Timers and steps -/

/-- One of the timers goes down with each tick, and steps leave it alone but those that carry out a
word that ends in `low`. -/
structure Timers.SetByWord (dbg : Printer) (timer : Timers → Nat) (low : Nat) : Prop where
  step {c : Cpu} (ht : c.table = .standard) (hn : ∀ x, c.fetched ≠ some (fWord low x)) :
    (c.step dbg).All fun d => timer d.timers = timer c.timers
  tick (t : Timers) : timer t.tick.1 = timer t - 1

theorem Timers.SetByWord.of_footprint {timer : Timers → Nat} {low : Nat} {op : Operation}
    (hlow : low < 0x100) (hop : op.pattern? = some (0xF0FF, 0xF000 + low))
    (hf : ∀ {w c d}, Cpu.Footprint (·.Fits w) (.ofWord w) c d →
      timer d.timers = timer c.timers ∨ op.Fits w)
    (ht : ∀ t : Timers, timer t.tick.1 = timer t - 1) (dbg : Printer) :
    SetByWord dbg timer low where
  step {c} htable hn := by
    refine Cpu.all_step_of_not_fits dbg htable (fun _ _ _ => rfl) rfl hf fun w hw hfit => ?_
    rw [Operation.eq_fWord_of_fits hlow hop (Cpu.lt_of_fetched hw) hfit] at hw
    exact hn _ hw
  tick := ht

theorem Timers.setByWord_delay : ∀ dbg, SetByWord dbg delay 0x15 :=
  .of_footprint (by decide) rfl (·.delay) fun _ => rfl

theorem Timers.setByWord_sound : ∀ dbg, SetByWord dbg sound 0x18 :=
  .of_footprint (by decide) rfl (·.sound) fun _ => rfl

namespace Session

variable (dbg : Printer)

/-- The timers as the last of the steps leaves them, or as they were if there is none. -/
def timersBehind (start : Timers) (steps : List (Session Headless)) : Timers :=
  (steps.map fun t => (step dbg t).state.machine.cpu.timers).getLastD start

/-- None of the steps carries out a word of a register that ends in `low`. -/
def NoneCarriesOut (low : Nat) (steps : List (Session Headless)) : Prop :=
  ∀ t ∈ steps, ∀ x, t.machine.cpu.fetched ≠ some (fWord low x)

variable {s t u : Session Headless}

theorem timers_runCycles (count : Nat) (s : Session Headless) :
    (runCycles dbg count s).state.machine.cpu.timers =
      timersBehind dbg s.machine.cpu.timers (stepsOfCycles dbg count s) := by
  induction count generalizing s with
  | zero => rfl
  | succ count ih =>
    rw [stepsOfCycles, timersBehind, List.map_cons, List.getLastD_cons, ← cpu_cycle]
    cases hr : (cycle dbg s).result with
    | error e =>
      rw [state_runCycles_of_error hr]
      rfl
    | ok stepped =>
      rw [state_runCycles_of_ok hr]
      exact ih _

theorem timer_runCycles {timer : Timers → Nat} {low : Nat} (hw : Timers.SetByWord dbg timer low)
    {count : Nat} (ht : s.machine.cpu.table = .standard)
    (hn : NoneCarriesOut low (stepsOfCycles dbg count s)) :
    timer (runCycles dbg count s).state.machine.cpu.timers = timer s.machine.cpu.timers := by
  let Q (c : Cpu) := c.table = .standard ∧ timer c.timers = timer s.machine.cpu.timers
  have hend : Q (runCycles dbg count s).state.machine.cpu := by
    refine runCycles_induction (Q := fun t => Q t.machine.cpu) (fun t ht hq => ?_) ⟨ht, rfl⟩
    obtain ⟨htable, htimer⟩ := hq
    obtain ⟨hnext, hnextAtTone⟩ := (Cpu.table_kept dbg .standard).step htable
    obtain ⟨hsame, hsameAtTone⟩ := hw.step htable (hn t ht)
    rw [cpu_cycle]
    exact machine_install (Q := fun m => Q m.cpu)
      ⟨⟨hnext, hsame.trans htimer⟩, hnextAtTone, hsameAtTone.trans htimer⟩
  exact hend.2

/-! ## Input and cycles -/

/-- From `s` to `t` no frame has been counted or drawn. -/
structure Undrawn (s t : Session Headless) : Prop where
  attached : t.attached = s.attached
  frameCount : t.machine.frameCount = s.machine.frameCount
  framesDrawn : t.frontend.framesDrawn = s.frontend.framesDrawn
  lastFrame : t.frontend.lastFrame = s.frontend.lastFrame

theorem Undrawn.refl (s : Session Headless) : s.Undrawn s := ⟨rfl, rfl, rfl, rfl⟩

theorem Undrawn.trans (h : s.Undrawn t) (h' : t.Undrawn u) : s.Undrawn u where
  attached := h'.attached.trans h.attached
  frameCount := h'.frameCount.trans h.frameCount
  framesDrawn := h'.framesDrawn.trans h.framesDrawn
  lastFrame := h'.lastFrame.trans h.lastFrame

theorem drawn_told (tones : List Bool) (s : Session Headless) :
    (s.told tones).framesDrawn = s.frontend.framesDrawn ∧
      (s.told tones).lastFrame = s.frontend.lastFrame := by
  have hall : ∀ f : Headless, let g := tones.foldl (fun f on => f.setTone on) f
      g.framesDrawn = f.framesDrawn ∧ g.lastFrame = f.lastFrame := by
    induction tones with
    | nil => exact fun f => ⟨rfl, rfl⟩
    | cons on tones ih => exact fun f => ih (f.setTone on)
  unfold told
  split
  · exact hall s.frontend
  · exact ⟨rfl, rfl⟩

theorem undrawn_install {α : Type} (o : CpuOutcome α) (s : Session Headless) :
    s.Undrawn (s.install dbg o).state := by
  obtain ⟨hframes, hlast⟩ := drawn_told o.tones s
  rw [state_install]
  exact ⟨rfl, rfl, hframes, hlast⟩

theorem undrawn_cycle (s : Session Headless) : s.Undrawn (cycle dbg s).state := by
  have hstep : s.Undrawn (step dbg s).state := undrawn_install dbg _ s
  have hsame : (cycle dbg s).state.withTrace none = (step dbg s).state.withTrace none :=
    congrArg Outcome.state (cycle_mapState dbg s)
  have hcycle : s.Undrawn ((cycle dbg s).state.withTrace none) := by
    rw [hsame]
    exact ⟨hstep.attached, hstep.frameCount, hstep.framesDrawn, hstep.lastFrame⟩
  exact ⟨hcycle.attached, hcycle.frameCount, hcycle.framesDrawn, hcycle.lastFrame⟩

theorem undrawn_runCycles (count : Nat) (s : Session Headless) :
    s.Undrawn (runCycles dbg count s).state :=
  runCycles_induction (Q := s.Undrawn) (fun t _ h => h.trans (undrawn_cycle dbg t)) (.refl s)

theorem state_takeInput (s : Session Headless) :
    ∃ keypad queue, (takeInput dbg s).state = s.withInput keypad queue := by
  unfold takeInput
  split
  · have hdrain : drainInput dbg s = drained dbg s := drainWithin_eq (Nat.lt_succ_self _)
    rw [hdrain, drained]
    split <;> exact ⟨_, _, rfl⟩
  · exact ⟨s.machine.cpu.keypad, s.frontend.queue, rfl⟩

/-! ## The end of a frame -/

/-- From `s`, where a frame starts, to `t`: what the frame does before it is closed. -/
structure Worked (s t : Session Headless) : Prop where
  undrawn : s.Undrawn t
  timers : t.machine.cpu.timers = timersBehind dbg s.machine.cpu.timers (stepsOfFrame dbg s)
  timer {timer : Timers → Nat} {low : Nat} (hw : Timers.SetByWord dbg timer low)
    (hn : NoneCarriesOut low (stepsOfFrame dbg s)) :
    timer t.machine.cpu.timers = timer s.machine.cpu.timers

/-- From `s` to `t` a frame has been closed. -/
structure Closed (s t : Session Headless) : Prop where
  attached : t.attached = s.attached
  frameCount : t.machine.frameCount = s.machine.frameCount + 1
  timers : t.machine.cpu.timers = s.machine.cpu.timers.tick.1
  drawn : s.attached = true → t.frontend.framesDrawn = s.frontend.framesDrawn + 1 ∧
    t.frontend.lastFrame = some t.machine.cpu.display.rows
  undrawn : s.attached = false → t.frontend.framesDrawn = s.frontend.framesDrawn

theorem worked_runCycles (ht : s.machine.cpu.table = .standard) {keypad : Keypad}
    {queue : List InputEvent} (count : Nat)
    (hsteps : stepsOfFrame dbg s = stepsOfCycles dbg count (s.withInput keypad queue)) :
    s.Worked dbg (runCycles dbg count (s.withInput keypad queue)).state where
  undrawn :=
    have hinput : s.Undrawn (s.withInput keypad queue) := ⟨rfl, rfl, rfl, rfl⟩
    hinput.trans (undrawn_runCycles dbg count _)
  timers := hsteps ▸ timers_runCycles dbg count _
  timer hw hn := by
    rw [hsteps] at hn
    exact timer_runCycles (s := s.withInput keypad queue) dbg hw ht hn

theorem closed_shown (t : Session Headless) :
    t.Closed (tick dbg t).state.countFrame.shown := by
  obtain ⟨hframes, -⟩ := drawn_told t.machine.cpu.tick.tones t
  have hticked : (tick dbg t).state = { t.setCpu t.machine.cpu.tick.cpu with
      frontend := t.told t.machine.cpu.tick.tones } := state_install dbg t.machine.cpu.tick t
  rw [hticked]
  refine ⟨rfl, rfl, rfl, fun hon => ?_, fun hoff => ?_⟩
  · show (ite (t.attached = true) _ _ : Headless).framesDrawn = _ ∧
      (ite (t.attached = true) _ _ : Headless).lastFrame = _
    rw [if_pos hon]
    exact ⟨congrArg (· + 1) hframes, rfl⟩
  · show (ite (t.attached = true) _ _ : Headless).framesDrawn = _
    rw [if_neg (by simp [hoff])]
    exact hframes

/-- A frame is left where its input or its cycles end it, or else it is closed. -/
theorem worked_runFrame (ht : s.machine.cpu.table = .standard) :
    ∃ t, s.Worked dbg t ∧
      ((runFrame dbg s).result ≠ .ok true ∧ (runFrame dbg s).state = t ∨
        (runFrame dbg s).result = .ok true ∧ t.Closed (runFrame dbg s).state) := by
  obtain ⟨keypad, queue, hinput⟩ := state_takeInput dbg s
  rw [runFrame_eq]
  rcases ho : takeInput dbg s with ⟨result, t, lines⟩
  rw [ho] at hinput
  obtain rfl : t = s.withInput keypad queue := hinput
  cases result with
  | error e =>
    have hsteps : stepsOfFrame dbg s = [] := by rw [stepsOfFrame, ho]
    refine ⟨_, worked_runCycles dbg ht 0 hsteps, .inl ⟨fun h => ?_, rfl⟩⟩
    cases h
  | ok goesOn =>
    cases goesOn with
    | false =>
      have hsteps : stepsOfFrame dbg s = [] := by rw [stepsOfFrame, ho]
      refine ⟨_, worked_runCycles dbg ht 0 hsteps, .inl ⟨fun h => ?_, rfl⟩⟩
      cases h
    | true =>
      refine ⟨_, worked_runCycles dbg ht _ (by rw [stepsOfFrame, ho]), ?_⟩
      generalize s.withInput keypad queue = t
      have hadvance := advanceFrame_headless dbg t
      cases hr : (runCycles dbg t.machine.cyclesPerFrame t).result with
      | error e =>
        simp only [hr] at hadvance
        refine .inl ⟨?_, congrArg Outcome.state hadvance⟩
        show (advanceFrame dbg t).result.map _ ≠ _
        rw [hadvance]
        nofun
      | ok executed =>
        simp only [hr] at hadvance
        refine .inr ⟨?_, ?_⟩
        · show (advanceFrame dbg t).result.map _ = _
          rw [hadvance]
          rfl
        · show Closed _ (advanceFrame dbg t).state
          rw [hadvance]
          exact closed_shown dbg _

/-! ## Frames in a row -/

/-- More input waits. -/
def receive (arriving : List InputEvent) (s : Session Headless) : Session Headless :=
  { s with frontend := { s.frontend with queue := s.frontend.queue ++ arriving } }

/-- From `s`, a number of frames in a row that all come to their end, and their steps. Input may
arrive between the frames. -/
inductive Frames (s : Session Headless) : Nat → List (Session Headless) → Session Headless → Prop
  where
  | none : Frames s 0 [] s
  | next {n : Nat} {steps : List (Session Headless)} {t : Session Headless}
      (h : Frames s n steps t) (arriving : List InputEvent)
      (hr : (runFrame dbg (t.receive arriving)).result = .ok true) :
      Frames s (n + 1) (steps ++ stepsOfFrame dbg (t.receive arriving))
        (runFrame dbg (t.receive arriving)).state

/-- From `s` to `t`: what `n` frames with the given steps add up to. -/
structure Paced (s : Session Headless) (n : Nat) (steps : List (Session Headless))
    (t : Session Headless) : Prop where
  table : t.machine.cpu.table = .standard
  attached : t.attached = s.attached
  frameCount : t.machine.frameCount = s.machine.frameCount + n
  drawn : s.attached = true → t.frontend.framesDrawn = s.frontend.framesDrawn + n ∧
    (0 < n → t.frontend.lastFrame = some t.machine.cpu.display.rows)
  undrawn : s.attached = false → t.frontend.framesDrawn = s.frontend.framesDrawn
  timer {timer : Timers → Nat} {low : Nat} (hw : Timers.SetByWord dbg timer low)
    (hn : NoneCarriesOut low steps) :
    timer t.machine.cpu.timers = timer s.machine.cpu.timers - n

variable {n : Nat} {steps : List (Session Headless)}

/-- One more frame. -/
theorem Paced.next (h : s.Paced dbg n steps t) {arriving : List InputEvent}
    (hr : (runFrame dbg (t.receive arriving)).result = .ok true) :
    s.Paced dbg (n + 1) (steps ++ stepsOfFrame dbg (t.receive arriving))
      (runFrame dbg (t.receive arriving)).state := by
  obtain ⟨u, hworked, ⟨hne, -⟩ | ⟨-, hclosed⟩⟩ :=
    worked_runFrame (s := t.receive arriving) dbg h.table
  · exact absurd hr hne
  have hattached : u.attached = s.attached := hworked.undrawn.attached.trans h.attached
  have hframes : u.frontend.framesDrawn = t.frontend.framesDrawn := hworked.undrawn.framesDrawn
  refine ⟨?_, hclosed.attached.trans hattached, ?_, fun hon => ?_, fun hoff => ?_, ?_⟩
  · exact (Cpu.table_kept dbg .standard).apply .frame (s := t.receive arriving) h.table
  · rw [hclosed.frameCount, hworked.undrawn.frameCount]
    exact congrArg (· + 1) h.frameCount
  · obtain ⟨hcount, hlast⟩ := hclosed.drawn (hattached.trans hon)
    obtain ⟨hearlier, -⟩ := h.drawn hon
    exact ⟨by rw [hcount, hframes, hearlier, Nat.add_assoc], fun _ => hlast⟩
  · rw [hclosed.undrawn (hattached.trans hoff), hframes, h.undrawn hoff]
  · intro timer low hw hn
    have hearlier : NoneCarriesOut low steps := fun v hv => hn v (List.mem_append_left _ hv)
    have hlater : NoneCarriesOut low (stepsOfFrame dbg (t.receive arriving)) :=
      fun v hv => hn v (List.mem_append_right _ hv)
    have hsame : timer u.machine.cpu.timers = timer t.machine.cpu.timers :=
      hworked.timer hw hlater
    rw [hclosed.timers, hw.tick, hsame, h.timer hw hearlier, Nat.sub_sub]

theorem Frames.paced (ht : s.machine.cpu.table = .standard) (h : Frames dbg s n steps t) :
    s.Paced dbg n steps t := by
  induction h with
  | none => exact ⟨ht, rfl, rfl, fun _ => ⟨rfl, nofun⟩, fun _ => rfl, fun _ _ => rfl⟩
  | next _ arriving hr ih => exact ih.next dbg hr

/-- Frames that come to their end count, draw and tick together: each is one more, on an attached
frontend one more drawn, the last one with the picture as it is, and takes one off each timer that
none of their steps sets. A frame that does not come to its end counts and draws nothing, and
leaves the timers as its steps left them. -/
theorem pace_of_frames {config : MachineConfig} {m : Machine}
    (hm : Machine.create config = .ok m) (frontend : Headless) (attached : Bool)
    (events : List (Event Headless)) :
    let s := run dbg events ⟨m, frontend, attached⟩
    (∀ n steps t, Frames dbg s n steps t →
      t.machine.frameCount = s.machine.frameCount + n ∧
        (s.attached = true → t.frontend.framesDrawn = s.frontend.framesDrawn + n ∧
          (0 < n → t.frontend.lastFrame = some t.machine.cpu.display.rows)) ∧
        (s.attached = false → t.frontend.framesDrawn = s.frontend.framesDrawn) ∧
        (NoneCarriesOut 0x15 steps →
          t.machine.cpu.timers.delay = s.machine.cpu.timers.delay - n) ∧
        (NoneCarriesOut 0x18 steps →
          t.machine.cpu.timers.sound = s.machine.cpu.timers.sound - n)) ∧
      ((runFrame dbg s).result ≠ .ok true →
        let t := (runFrame dbg s).state
        t.machine.frameCount = s.machine.frameCount ∧
          t.frontend.framesDrawn = s.frontend.framesDrawn ∧
          t.frontend.lastFrame = s.frontend.lastFrame ∧
          t.machine.cpu.timers = timersBehind dbg s.machine.cpu.timers (stepsOfFrame dbg s)) := by
  intro s
  obtain ⟨-, rfl⟩ := Machine.create_eq_ok_iff.mp hm
  have ht : s.machine.cpu.table = .standard :=
    (Cpu.table_kept dbg .standard).run events (Machine.table_initial config)
  refine ⟨fun n steps t h => ?_, fun hne => ?_⟩
  · have hpaced := h.paced dbg ht
    exact ⟨hpaced.frameCount, hpaced.drawn, hpaced.undrawn,
      hpaced.timer (Timers.setByWord_delay dbg), hpaced.timer (Timers.setByWord_sound dbg)⟩
  · intro t
    obtain ⟨u, hworked, ⟨-, hstate⟩ | ⟨hr, -⟩⟩ := worked_runFrame dbg ht
    · obtain rfl : t = u := hstate
      exact ⟨hworked.undrawn.frameCount, hworked.undrawn.framesDrawn,
        hworked.undrawn.lastFrame, hworked.timers⟩
    · exact absurd hr hne

end Session

/-- A program that sets the delay timer to seven and then waits for a key. -/
def MachineConfig.pausing : MachineConfig where
  dialect := .legacy
  program := .listed [0x60, 0x07, 0xF0, 0x15, 0xF1, 0x0A]
  cyclesPerFrame := 1
  random := .ofSequence fun _ => 0
  trace := none

/-- The processor is about to wait for a key, with the delay timer at seven. -/
structure Cpu.Pausing (c : Cpu) : Prop where
  table : c.table = .standard
  word : c.wordAt c.pc = some (waitWord 1)
  running : c.idle = false
  released : c.keypad.firstPressed = none
  delay : c.timers.delay = 7

theorem Cpu.pausing_of_steps {c : Cpu} (hm : c.memory = (Machine.initial .pausing).cpu.memory)
    (ht : c.table = .standard) (hpc : c.pc = programStart) (hi : c.idle = false)
    (hk : c.keypad.firstPressed = none) :
    (c.step .off).tones = [] ∧ ((c.step .off).cpu.step .off).tones = [] ∧
      ((c.step .off).cpu.step .off).cpu.Pausing := by
  have hfirst : c.wordAt c.pc = some 0x6007 := by
    rw [hpc]
    exact wordAt_of_program hm (by decide) 0 rfl rfl (by decide)
  have hsets : Operation.setByte.Fits 0x6007 := by decide
  obtain ⟨-, htones, hcpu⟩ := step_of_fits .off ht hi hfirst hsets rfl
  refine ⟨htones, ?_⟩
  have hreg : (c.step .off).cpu.reg 0 = 7 := by
    rw [hcpu]
    exact (reg_setReg c.advance 0 0 7).trans (if_pos rfl)
  have hcounter : (c.step .off).cpu.pc = programStart + 2 := by
    rw [hcpu]
    exact congrArg (· + 2) hpc
  have hmemory : (c.step .off).cpu.memory = (Machine.initial .pausing).cpu.memory := by
    rw [hcpu]
    exact hm
  have htable : (c.step .off).cpu.table = .standard := by
    rw [hcpu]
    exact ht
  have hidle : (c.step .off).cpu.idle = false := by
    rw [hcpu]
    exact hi
  have hkeys : (c.step .off).cpu.keypad.firstPressed = none := by
    rw [hcpu]
    exact hk
  generalize (c.step .off).cpu = d at *
  have hsecond : d.wordAt d.pc = some 0xF015 := by
    rw [hcounter]
    exact wordAt_of_program hmemory (by decide) 2 rfl rfl (by decide)
  have hdelays : Operation.setDelay.Fits 0xF015 := by decide
  obtain ⟨-, htones', hcpu'⟩ := step_of_fits .off htable hidle hsecond hdelays rfl
  refine ⟨htones', ?_⟩
  rw [hcpu']
  refine ⟨htable, ?_, hidle, hkeys, ?_⟩
  · show Cpu.wordAt _ (d.pc + 2) = _
    rw [hcounter]
    exact wordAt_of_program hmemory (by decide) 4 rfl rfl (by decide)
  · show lowByte (d.reg 0) = 7
    rw [hreg]
    rfl

namespace Session

variable {u : Session Headless}

theorem takeInput_of_nil (hq : u.frontend.queue = []) :
    takeInput .off u = .done true u [] := by
  unfold takeInput
  split
  · exact drainWithin_succ_of_nil hq _
  · rfl

theorem runFrame_of_quit (hon : u.attached = true) {rest : List InputEvent}
    (hq : u.frontend.queue = .quit :: rest) :
    (runFrame .off u).result = .ok false ∧ stepsOfFrame .off u = [] := by
  have hinput : takeInput .off u = .done false (u.withInput u.machine.cpu.keypad rest) [] := by
    rw [takeInput, if_pos hon]
    exact drainWithin_succ_of_cons hq _
  refine ⟨?_, ?_⟩
  · rw [runFrame_eq, hinput]
    rfl
  · rw [stepsOfFrame, hinput]
    rfl

/-- Two steps that leave the tone alone. -/
theorem run_step_step (h : (u.machine.cpu.step .off).tones = [])
    (h' : ((u.machine.cpu.step .off).cpu.step .off).tones = []) :
    run .off [.step, .step] u =
      ⟨{ u.machine with cpu := ((u.machine.cpu.step .off).cpu.step .off).cpu }, u.frontend,
        u.attached⟩ := by
  show (step .off (step .off u).state).state = _
  rw [step_of_tones_nil h]
  generalize (u.machine.cpu.step .off).cpu = c at h' ⊢
  exact congrArg Outcome.state (step_of_tones_nil (s := u.setCpu c) h')

/-- With one cycle in a frame, the processor comes to wait and the frame to its end. -/
theorem runFrame_of_pausing (hu : u.machine.cpu.Pausing) (hone : u.machine.cyclesPerFrame = 1)
    (hq : u.frontend.queue = []) :
    (runFrame .off u).result = .ok true ∧ NoneCarriesOut 0x15 (stepsOfFrame .off u) := by
  have hstep := Cpu.step_of_fits .off hu.table hu.running hu.word (Cpu.fits_waitWord 1) rfl
  obtain ⟨htones, -⟩ := Cpu.step_parks .off hu.table hu.running hu.word hu.released
  have hcycle : (cycle .off u).result = .ok true := by
    rw [result_cycle, step_of_tones_nil htones, hstep.1]
  have hcycles : (runCycles .off u.machine.cyclesPerFrame u).result = .ok 1 := by
    rw [hone]
    exact result_runCycles_of_ok hcycle rfl
  have hadvance := advanceFrame_headless .off u
  simp only [hcycles] at hadvance
  refine ⟨?_, ?_⟩
  · rw [runFrame_eq, takeInput_of_nil hq]
    show (advanceFrame .off u).result.map _ = _
    rw [hadvance]
    rfl
  · have hsteps : stepsOfFrame .off u = [u] := by
      rw [stepsOfFrame, takeInput_of_nil hq]
      show stepsOfCycles .off u.machine.cyclesPerFrame u = [u]
      rw [hone, stepsOfCycles, hcycle]
      rfl
    intro t ht x hx
    obtain rfl : t = u := List.mem_singleton.mp (hsteps ▸ ht)
    have hword := (Cpu.fetched_eq_some_iff.mp hx).2
    rw [hu.word, Option.some.injEq, waitWord, fWord] at hword
    omega

theorem run_pausing : ∃ c : Cpu, c.Pausing ∧
    run .off [.step, .step] (⟨.initial .pausing, .start, true⟩ : Session Headless) =
      ⟨{ Machine.initial .pausing with cpu := c }, .start, true⟩ := by
  obtain ⟨htones, htones', hpausing⟩ :=
    Cpu.pausing_of_steps (c := (Machine.initial .pausing).cpu) rfl
      (Machine.table_initial .pausing) rfl rfl (Keypad.firstPressed_eq_none_iff.mpr (by decide))
  exact ⟨_, hpausing, run_step_step htones htones'⟩

/-- A frame takes one off the delay timer, and a frame that the frontend quits takes nothing. -/
theorem pace_of_frames_pausing :
    ∃ m, Machine.create .pausing = .ok m ∧ ∃ s : Session Headless,
      s = run .off [.step, .step] ⟨m, .start, true⟩ ∧
        (∃ steps t, Frames .off s 1 steps t ∧ NoneCarriesOut 0x15 steps ∧
          t.machine.frameCount = 1 ∧ t.frontend.framesDrawn = 1 ∧
          t.machine.cpu.timers.delay = 6) ∧
        let quitting := runFrame .off (run .off [.change (Headless.push .quit)] s)
        quitting.result = .ok false ∧ quitting.state.machine.frameCount = 0 ∧
          quitting.state.frontend.framesDrawn = 0 ∧
          quitting.state.machine.cpu.timers.delay = 7 := by
  have hm := Machine.create_eq_ok_iff.mpr
    ⟨⟨(by decide : 0 < MachineConfig.pausing.cyclesPerFrame), by decide, by decide⟩, rfl⟩
  obtain ⟨hframes, -⟩ := pace_of_frames .off hm Headless.start true [.step, .step]
  obtain ⟨-, hquits⟩ := pace_of_frames .off hm Headless.start true
    ([.step, .step] ++ [.change (Headless.push .quit)])
  obtain ⟨c, hc, hs⟩ := run_pausing
  rw [run_append, hs] at hquits
  rw [hs] at hframes
  refine ⟨_, hm, _, rfl, ?_⟩
  rw [hs]
  generalize hs' : (⟨{ Machine.initial .pausing with cpu := c }, .start, true⟩ :
    Session Headless) = s at hframes hquits ⊢
  have hcpu : s.machine.cpu = c := by rw [← hs']
  have hnone : s.machine.frameCount = 0 := by rw [← hs']; rfl
  have hone : s.machine.cyclesPerFrame = 1 := by rw [← hs']; rfl
  have hfrontend : s.frontend = .start := by rw [← hs']
  have hon : s.attached = true := by rw [← hs']
  refine ⟨?_, ?_⟩
  · have hqueue : (s.receive []).frontend.queue = [] := by
      show s.frontend.queue ++ [] = []
      rw [hfrontend]
      rfl
    obtain ⟨hresult, hsets⟩ :=
      runFrame_of_pausing (u := s.receive []) (hcpu ▸ hc) hone hqueue
    have hframe := Frames.next .none [] hresult
    obtain ⟨hcount, hdrawn, -, hdelay, -⟩ := hframes 1 _ _ hframe
    obtain ⟨hdrawn, -⟩ := hdrawn hon
    refine ⟨_, _, hframe, hsets, ?_, ?_, ?_⟩
    · rw [hcount, hnone]
    · rw [hdrawn, hfrontend]
      rfl
    · rw [hdelay hsets, hcpu, hc.delay]
  · have hchange : ∀ u : Session Headless, run .off [.change (Headless.push .quit)] u =
        { u with frontend := u.frontend.push .quit } := fun _ => rfl
    rw [hchange] at hquits ⊢
    have hqueue : (s.frontend.push .quit).queue = .quit :: [] := by rw [hfrontend]; rfl
    obtain ⟨hresult, hsteps⟩ :=
      runFrame_of_quit (u := { s with frontend := s.frontend.push .quit }) hon hqueue
    obtain ⟨hcount, hdrawn, -, htimers⟩ := hquits (by rw [hresult]; nofun)
    refine ⟨hresult, hcount.trans hnone, hdrawn.trans ?_, ?_⟩
    · rw [hfrontend]
      rfl
    · rw [htimers, hsteps]
      show s.machine.cpu.timers.delay = 7
      rw [hcpu, hc.delay]

end Session

end Chip8
