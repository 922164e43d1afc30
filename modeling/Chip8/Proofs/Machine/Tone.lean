import Mathlib.Data.List.Induction
import Chip8.Proofs.Cpu.Timers
import Chip8.Proofs.Machine.Runs

/-!
# The tone of a frontend

A session is in tune (`Session.InTune`) if an attached frontend has its tone on just while the sound
timer runs. A frontend hears of the timer only when it starts or runs out, and if it is attached
while the timer runs.

An operation of the processor tells each such crossing that it makes, and no other
(`CpuOutcome.Tells`). Behind an operation of the session, the tone of an attached frontend is hence
what the timer says, unless neither has changed (`Session.Follows`), so that a session in tune stays
in tune. The one way out is to attach a frontend whose tone is still on while the timer rests
(`Session.inTune_attach_iff`, `Session.inTune_along_iff`). The other half has no way out: a timer
that runs is heard (`Session.heard_apply`).
-/

namespace Chip8

open Debug (Printer)

/-! ## Following the timer -/

namespace Session

/-- An attached frontend has its tone on just while the sound timer runs. -/
def InTune (s : Session Headless) : Prop :=
  s.attached = true → s.frontend.toneOn = s.machine.cpu.timers.toneActive

/-- While the sound timer runs, an attached frontend has its tone on. -/
def Heard (s : Session Headless) : Prop :=
  s.attached = true → s.machine.cpu.timers.toneActive = true → s.frontend.toneOn = true

/-- From `s` to `t` the tone of an attached frontend has been set to that of the timers, unless
neither has changed. -/
def Follows (s t : Session Headless) : Prop :=
  t.attached = s.attached ∧
    (s.attached = true →
      t.frontend.toneOn = t.machine.cpu.timers.toneActive ∨
        t.frontend.toneOn = s.frontend.toneOn ∧
          t.machine.cpu.timers.toneActive = s.machine.cpu.timers.toneActive)

variable {s t u : Session Headless}

namespace Follows

theorem refl (s : Session Headless) : s.Follows s := ⟨rfl, fun _ => .inr ⟨rfl, rfl⟩⟩

theorem trans (hst : s.Follows t) (htu : t.Follows u) : s.Follows u := by
  obtain ⟨ha, hs⟩ := hst
  obtain ⟨ha', ht⟩ := htu
  refine ⟨ha'.trans ha, fun h => ?_⟩
  rcases ht (ha.trans h) with hset | ⟨htone, hactive⟩
  · exact .inl hset
  · rcases hs h with hset | ⟨htone', hactive'⟩
    · exact .inl (htone.trans (hset.trans hactive.symm))
    · exact .inr ⟨htone.trans htone', hactive.trans hactive'⟩

theorem inTune (h : s.Follows t) (hs : s.InTune) : t.InTune := by
  obtain ⟨ha, h⟩ := h
  intro hatt
  rw [ha] at hatt
  rcases h hatt with hset | ⟨htone, hactive⟩
  · exact hset
  · rw [htone, hactive]
    exact hs hatt

theorem heard (h : s.Follows t) (hs : s.Heard) : t.Heard := by
  obtain ⟨ha, h⟩ := h
  intro hatt hon
  rw [ha] at hatt
  rcases h hatt with hset | ⟨htone, hactive⟩
  · exact hset.trans hon
  · rw [htone]
    exact hs hatt (hactive.symm.trans hon)

end Follows

/-- A change of the frontend that leaves its tone as it is. -/
theorem follows_of_frontend {frontend : Headless} (h : frontend.toneOn = s.frontend.toneOn) :
    s.Follows { s with frontend } := ⟨rfl, fun _ => .inr ⟨h, rfl⟩⟩

variable (dbg : Printer)

/-- The frontend behind changes of the tone. -/
def told (s : Session Headless) (tones : List Bool) : Headless :=
  if s.attached then tones.foldl (fun f on => f.setTone on) s.frontend else s.frontend

theorem forwardTones_headless (tones : List Bool) (s : Session Headless) :
    ∃ lines, forwardTones dbg tones s = ⟨.ok (), { s with frontend := s.told tones }, lines⟩ := by
  obtain ⟨machine, frontend, attached⟩ := s
  induction tones generalizing frontend with
  | nil => cases attached <;> exact ⟨[], rfl⟩
  | cons on tones ih =>
    unfold forwardTones
    rw [forwardTone_eq]
    cases attached with
    | false =>
      obtain ⟨lines, h⟩ := ih frontend
      exact ⟨_, congrArg (Outcome.after _) h⟩
    | true =>
      obtain ⟨lines, h⟩ := ih (frontend.setTone on)
      exact ⟨_, congrArg (Outcome.after _) h⟩

theorem state_install {α : Type} (o : CpuOutcome α) (s : Session Headless) :
    (s.install dbg o).state = { s.setCpu o.cpu with frontend := s.told o.tones } := by
  obtain ⟨lines, h⟩ := forwardTones_headless dbg o.tones (s.setCpu o.cpuAtTone)
  unfold install
  simp only [h]
  rfl

/-- What the processor tells reaches an attached frontend. -/
theorem follows_install {α : Type} {o : CpuOutcome α} (h : o.Tells s.machine.cpu) :
    s.Follows (s.install dbg o).state := by
  rw [state_install, h, Timers.crossing]
  refine ⟨rfl, fun hatt => ?_⟩
  simp only [told, if_pos hatt]
  split
  · next heq => exact .inr ⟨rfl, heq.symm⟩
  · exact .inl rfl

theorem toneOn_poll (f : Headless) :
    ((Frontend.poll dbg : Action Headless (Option InputEvent)).run f).state.toneOn = f.toneOn := by
  show f.poll.2.toneOn = f.toneOn
  unfold Headless.poll
  split <;> rfl

/-- Whatever cycles and frames are made of lets the frontend follow the timer. -/
theorem follows_kept (s₀ : Session Headless) : KeptByParts dbg s₀.Follows where
  step h := h.trans (follows_install dbg (Cpu.tells_step dbg _))
  tick h := h.trans (follows_install dbg (Cpu.tells_tick _))
  setKey index pressed h := h.trans (follows_install dbg (Cpu.tells_setKey dbg _ index pressed))
  poll h := h.trans (follows_of_frontend (toneOn_poll dbg _))
  draw {s} h := by
    refine h.trans ?_
    show s.Follows (onFrontend _ s).state
    unfold onFrontend
    split
    · exact follows_of_frontend rfl
    · exact .refl s
  trace _ h := h.trans ⟨rfl, fun _ => .inr ⟨rfl, rfl⟩⟩
  countFrame h := h.trans ⟨rfl, fun _ => .inr ⟨rfl, rfl⟩⟩

/-! ## Runs -/

/-- The event may change the frontend, but not its tone. -/
def Event.KeepsTone (e : Event Headless) : Prop :=
  ∀ f, e = .change f → ∀ h, (f h).toneOn = h.toneOn

theorem follows_apply {e : Event Headless} (he : e.KeepsTone) (hattach : e ≠ .attach)
    (hdetach : e ≠ .detach) (s : Session Headless) : s.Follows (apply dbg e s) := by
  have hk := follows_kept dbg s
  have hs : s.Follows s := .refl s
  cases e with
  | step => exact hk.step hs
  | cycles count => exact hk.runCycles count hs
  | frame => exact hk.runFrame hs
  | key index pressed => exact hk.setKey index pressed hs
  | tick => exact hk.tick hs
  | reset => exact follows_install dbg (Cpu.tells_reset _)
  | attach => exact absurd rfl hattach
  | detach => exact absurd rfl hdetach
  | change f => exact follows_of_frontend (he f rfl s.frontend)

/-- The frontend is in tune once it is attached: its tone is off, or the sound timer runs. -/
def AttachesInTune (s : Session Headless) : Prop :=
  s.frontend.toneOn = true → s.machine.cpu.timers.toneActive = true

theorem inTune_attach_iff (s : Session Headless) :
    (attach s).state.InTune ↔ s.AttachesInTune := by
  unfold attach InTune AttachesInTune
  simp only
  cases hactive : s.machine.cpu.timers.toneActive with
  | true => exact iff_of_true (fun _ => hactive.symm) fun _ => rfl
  | false =>
    show (true = true → s.frontend.toneOn = s.machine.cpu.timers.toneActive) ↔ _
    rw [hactive]
    cases s.frontend.toneOn <;> simp

theorem heard_attach (s : Session Headless) : (attach s).state.Heard := by
  intro _ hon
  rw [machine_attach] at hon
  unfold attach
  simp only [if_pos hon]
  rfl

theorem heard_apply {e : Event Headless} (he : e.KeepsTone) (hs : s.Heard) :
    (apply dbg e s).Heard := by
  by_cases hattach : e = .attach
  · subst hattach
    exact heard_attach s
  by_cases hdetach : e = .detach
  · subst hdetach
    exact nofun
  exact (follows_apply dbg he hattach hdetach s).heard hs

theorem inTune_apply {e : Event Headless} (he : e.KeepsTone) (hs : s.InTune)
    (hattach : e = .attach → s.AttachesInTune) : (apply dbg e s).InTune := by
  by_cases h : e = .attach
  · subst h
    exact (inTune_attach_iff s).mpr (hattach rfl)
  by_cases hdetach : e = .detach
  · subst hdetach
    exact nofun
  exact (follows_apply dbg he h hdetach s).inTune hs

/-- A session is in tune all along a run if and only if it starts so and the frontend is attached
only when that brings it into tune. -/
theorem inTune_along_iff {events : List (Event Headless)} (hc : ∀ e ∈ events, e.KeepsTone)
    (s : Session Headless) :
    (∀ pre, pre <+: events → (run dbg pre s).InTune) ↔
      s.InTune ∧ ∀ pre, pre ++ [.attach] <+: events → (run dbg pre s).AttachesInTune := by
  constructor
  · intro h
    refine ⟨h [] List.nil_prefix, fun pre hpre => ?_⟩
    have hin := h (pre ++ [.attach]) hpre
    rw [run_append] at hin
    exact (inTune_attach_iff _).mp hin
  · rintro ⟨hstart, hattach⟩ pre hpre
    induction pre using List.reverseRecOn with
    | nil => exact hstart
    | append_singleton pre e ih =>
      have hin := ih ((List.prefix_append pre [e]).trans hpre)
      have he : e.KeepsTone := hc e (hpre.subset (by simp))
      rw [run_append]
      refine inTune_apply dbg he hin fun heq => hattach pre ?_
      rwa [← heq]

end Session

/-- An attached frontend of a machine that has been built is heard while the sound timer runs. It is
silent while the timer rests as long as it was silent at the start, and whenever it was attached its
tone was off or the timer ran. -/
theorem Session.inTune_of_run {config : MachineConfig} {m : Machine}
    (hm : Machine.create config = .ok m) (dbg : Printer) (frontend : Headless) (attached : Bool)
    (events : List (Event Headless)) (hc : ∀ e ∈ events, e.KeepsTone) :
    let at' := fun es => run dbg es ⟨m, frontend, attached⟩
    (at' events).Heard ∧
      ((∀ pre, pre <+: events → (at' pre).InTune) ↔
        (attached = true → frontend.toneOn = false) ∧
          ∀ pre, pre ++ [.attach] <+: events → (at' pre).AttachesInTune) := by
  intro at'
  obtain ⟨-, rfl⟩ := Machine.create_eq_ok_iff.mp hm
  have hrests : (Machine.initial config).cpu.timers.toneActive = false := rfl
  refine ⟨run_induction (fun e he _ => heard_apply dbg (hc e he)) ?_, inTune_along_iff dbg hc _⟩
  intro _ hon
  rw [hrests] at hon
  cases hon

/-- A frontend that starts silent and is attached once is in tune all along. -/
theorem Session.inTune_of_run_beeping :
    ∃ m, Machine.create .beeping = .ok m ∧
      ∀ pre, pre <+: [.attach, .cycles 3, .frame, .reset, .cycles 30, .detach, .tick] →
        (run .off pre (⟨m, .start, false⟩ : Session Headless)).InTune := by
  obtain ⟨m, hm⟩ : ∃ m, Machine.create .beeping = .ok m :=
    ⟨_, Machine.create_eq_ok_iff.mpr ⟨⟨by decide, by decide, by decide⟩, rfl⟩⟩
  obtain ⟨-, hiff⟩ := inTune_of_run hm .off .start false
    [.attach, .cycles 3, .frame, .reset, .cycles 30, .detach, .tick] (by simp [Event.KeepsTone])
  refine ⟨m, hm, hiff.mpr ⟨nofun, fun pre hpre => ?_⟩⟩
  cases pre with
  | nil => exact nofun
  | cons e pre =>
    obtain ⟨-, hrest⟩ := List.cons_prefix_cons.mp hpre
    have hmem := hrest.subset (List.mem_append_right pre (List.mem_singleton_self _))
    simp at hmem

/-- A program that sounds the tone for one tick. -/
def MachineConfig.blipping : MachineConfig where
  dialect := .legacy
  program := .listed [0x60, 0x01, 0xF0, 0x18]
  cyclesPerFrame := 12
  random := .ofSequence fun _ => 0
  trace := none

theorem Machine.wordAt_blipping :
    (initial .blipping).cpu.wordAt 0x200 = some 0x6001 ∧
      (initial .blipping).cpu.wordAt 0x202 = some 0xF018 :=
  ⟨Cpu.wordAt_of_program rfl (by decide) 0 rfl rfl (by decide),
    Cpu.wordAt_of_program rfl (by decide) 2 rfl rfl (by decide)⟩

theorem Cpu.sound_of_blipping {c : Cpu} (h : c = (Machine.initial .blipping).cpu) :
    (((c.step .off).cpu.step .off).cpu).timers.sound = 1 := by
  have ht : c.table = .standard := h ▸ Machine.table_initial .blipping
  have hpc : c.pc = 0x200 := h ▸ rfl
  have hi : c.idle = false := h ▸ rfl
  obtain ⟨hset, hsound⟩ := Machine.wordAt_blipping
  rw [← h] at hset hsound
  obtain ⟨-, -, hcpu⟩ := step_of_fits .off ht hi (hpc ▸ hset)
    (show Operation.setByte.Fits 0x6001 by decide) rfl
  obtain ⟨-, -, hcpu'⟩ := step_of_fits .off (c := (c.step .off).cpu) (by rw [hcpu]; exact ht)
    (by rw [hcpu]; exact hi)
    (by rw [hcpu]; show c.wordAt (c.pc + 2) = _; rw [hpc]; exact hsound)
    (show Operation.setSound.Fits 0xF018 by decide) rfl
  rw [hcpu', hcpu]
  show lowByte ((c.advance.setReg (Operands.ofWord 0x6001).x (Operands.ofWord 0x6001).nn).reg
    (Operands.ofWord 0xF018).x) = 1
  rw [reg_setReg, if_pos (by decide)]
  decide

namespace Session

/-- A frontend that is away while the tone ends is out of tune when it comes back. -/
theorem not_inTune_of_absence (dbg : Printer) {s : Session Headless}
    (hs : s.machine.cpu.timers.sound = 1)
    (hon : s.frontend.toneOn = true) : ¬ (run dbg [.detach, .tick, .attach] s).InTune := by
  have htick : (tick dbg s.detach).state =
      { s.detach.setCpu s.machine.cpu.tick.cpu with frontend := s.frontend } :=
    state_install dbg s.machine.cpu.tick s.detach
  have hend : s.machine.cpu.tick.cpu.timers.toneActive = false := by
    show decide (0 < s.machine.cpu.timers.sound - 1) = false
    rw [hs]
    rfl
  show ¬ (attach (tick dbg s.detach).state).state.InTune
  rw [htick, inTune_attach_iff]
  intro hattach
  have hactive : s.machine.cpu.tick.cpu.timers.toneActive = true := hattach hon
  rw [hend] at hactive
  cases hactive

/-- The tone ends while the frontend is away, which hears nothing of it when it comes back. -/
theorem not_inTune_of_run :
    ∃ m, Machine.create .blipping = .ok m ∧
      ¬ (run .off [.step, .step, .detach, .tick, .attach]
        (⟨m, .start, true⟩ : Session Headless)).InTune := by
  obtain ⟨m, hm⟩ : ∃ m, Machine.create .blipping = .ok m :=
    ⟨_, Machine.create_eq_ok_iff.mpr ⟨⟨by decide, by decide, by decide⟩, rfl⟩⟩
  have hinitial := (Machine.create_eq_ok_iff.mp hm).2
  refine ⟨m, hm, ?_⟩
  generalize hs : (⟨m, .start, true⟩ : Session Headless) = s
  have hstep : ∀ t : Session Headless, (step .off t).state = _ := fun t =>
    state_install .off (t.machine.cpu.step .off) t
  have hrun : run .off [.step, .step] s = (step .off (step .off s).state).state := rfl
  have hsound : (run .off [.step, .step] s).machine.cpu.timers.sound = 1 := by
    rw [hrun, hstep, hstep]
    exact Cpu.sound_of_blipping (by rw [← hs, ← hinitial])
  have hatt : (run .off [.step, .step] s).attached = true := by
    rw [hrun, hstep, hstep, ← hs]
    rfl
  have hheard : (run .off [.step, .step] s).Heard := by
    refine run_induction (fun e he _ => heard_apply .off (by rintro f rfl; simp at he)) ?_
    intro _ hon
    rw [← hs, hinitial] at hon
    cases hon
  have hsplit : ([.step, .step, .detach, .tick, .attach] : List (Event Headless)) =
      [.step, .step] ++ [.detach, .tick, .attach] := rfl
  rw [hsplit, run_append]
  refine not_inTune_of_absence .off hsound (hheard hatt ?_)
  rw [Timers.toneActive, hsound]
  rfl

end Session

end Chip8
