import Mathlib.Data.List.Induction
import Chip8.Proofs.Cpu.Footprint
import Chip8.Proofs.Machine.Runs

/-!
# Calls and returns

`Cpu.Inside s a c`: the call stack of `c` has the stack `s` at its bottom and on it the return
address `a`, so that `c` is in the subroutine that was called with the stack `s`. A call gets there
(`step_of_call`), and a step stays there unless it is the return that gives back `s` and goes to `a`
(`Inside.step`).

The first time that a run is as deep as it was before a call, it has therefore just returned from it
(`Session.returns_of_call`).
-/

namespace Chip8

open Debug (Printer)

namespace CallStack

variable {s t : CallStack} {address : Int}

theorem eq_of_push (h : s.push address = .ok t) :
    t = { s with entries := address :: s.entries } := by
  unfold push at h
  split at h
  · cases h
  · cases h
    rfl

end CallStack

namespace Cpu

variable (dbg : Printer) {c : Cpu}

/-! ## Steps -/

theorem step_of_call (ht : c.table = .standard) (hi : c.idle = false) {w : Nat}
    (hw : c.wordAt c.pc = some w) (hfit : Operation.call.Fits w) (hfull : c.stack.isFull = false) :
    (c.step dbg).result = .ok true ∧ (c.step dbg).tones = [] ∧
      (c.step dbg).cpu =
        { c with
          pc := (Operands.ofWord w).nnn
          stack := { c.stack with entries := (c.pc + 2) :: c.stack.entries }
          executed := c.executed + 1 } := by
  have hpush : c.advance.stack.push c.advance.pc =
      .ok { c.stack with entries := (c.pc + 2) :: c.stack.entries } :=
    if_neg (Bool.eq_false_iff.mp hfull)
  have hf : c.advance.fault (.ofWord w) .call = none := if_neg (Bool.eq_false_iff.mp hfull)
  obtain ⟨hresult, htones, hcpu⟩ := step_of_fits dbg ht hi hw hfit hf
  simp only [perform_call, hpush] at htones hcpu
  exact ⟨hresult, htones, hcpu⟩

/-- The next step carries out a return. -/
def Returns (c : Cpu) : Prop := c.idle = false ∧ c.wordAt c.pc = some 0x00EE

theorem step_of_returns (ht : c.table = .standard) (hr : c.Returns) {a : Int} {s : CallStack}
    (hs : c.stack = { s with entries := a :: s.entries }) :
    (c.step dbg).result = .ok true ∧ (c.step dbg).tones = [] ∧
      (c.step dbg).cpu = { c with pc := a, stack := s, executed := c.executed + 1 } := by
  have hpop : c.advance.stack.pop = .ok (a, s) := by
    show c.stack.pop = _
    rw [hs]
    rfl
  have hf : c.advance.fault (.ofWord (0x00EE : Nat)) .ret = none := by
    show (if c.stack.isEmpty then _ else _) = _
    rw [hs]
    rfl
  obtain ⟨hresult, htones, hcpu⟩ := step_of_fits dbg ht hr.1 hr.2 (by decide) hf
  simp only [perform_ret, hpop] at htones hcpu
  exact ⟨hresult, htones, hcpu⟩

/-- A step that is no return leaves the stack alone or calls. -/
theorem stack_step (ht : c.table = .standard) (hr : ¬ c.Returns) :
    (c.step dbg).All fun d =>
      d.stack = c.stack ∨ d.stack = { c.stack with entries := (c.pc + 2) :: c.stack.entries } := by
  rcases step_cases dbg c with
    ⟨d, result, runState, lines, hd, heq⟩ | ⟨w, lines, hi, hw, heq⟩
  · have hstack : d.stack = c.stack := by rcases hd with rfl | ⟨rfl, -⟩ <;> rfl
    rw [heq]
    exact ⟨.inl hstack, .inl hstack⟩
  · obtain ⟨-, -, hlt⟩ := canFetch_of_wordAt hw
    have hfoot : ∀ d, Footprint (·.Fits w) (.ofWord w) c.advance d → d.stack = c.stack ∨
        d.stack = { c.stack with entries := (c.pc + 2) :: c.stack.entries } := by
      intro d hd
      rcases hd.stack with hd | ⟨-, hpush⟩ | ⟨hfit, -⟩
      · exact .inl hd
      · exact .inr (CallStack.eq_of_push hpush)
      · have hword : w = 0x00EE := by
          rwa [Operation.fits_iff rfl, and_ffff hlt] at hfit
        subst hword
        exact absurd ⟨hi, hw⟩ hr
    obtain ⟨hc, htone⟩ := footprint_execute dbg (c := c.advance) ht hlt
    have hstack := hfoot _ hc
    rw [heq]
    exact ⟨hstack, hfoot _ htone⟩

/-! ## Inside a subroutine -/

/-- The processor is in the subroutine that was called with the stack `s` and returns to `a`. -/
def Inside (s : CallStack) (a : Int) (c : Cpu) : Prop :=
  ∃ inner, c.stack = { s with entries := inner ++ a :: s.entries }

variable {s : CallStack} {a : Int}

theorem Inside.suffix (h : c.Inside s a) :
    s.entries <:+ c.stack.entries ∧ s.depth < c.stack.depth := by
  obtain ⟨inner, h⟩ := h
  rw [h]
  refine ⟨⟨inner ++ [a], by simp⟩, ?_⟩
  simp only [CallStack.depth, List.length_append, List.length_cons]
  omega

theorem Inside.step (h : c.Inside s a) (ht : c.table = .standard) (hr : ¬ c.Returns) :
    (c.step dbg).All (Inside s a) := by
  obtain ⟨inner, h⟩ := h
  have hinside : ∀ d : Cpu, d.stack = c.stack ∨
      d.stack = { c.stack with entries := (c.pc + 2) :: c.stack.entries } → d.Inside s a := by
    rintro d (hd | hd)
    · exact ⟨inner, hd.trans h⟩
    · exact ⟨(c.pc + 2) :: inner, by rw [hd, h]; rfl⟩
  obtain ⟨hc, htone⟩ := stack_step dbg ht hr
  exact ⟨hinside _ hc, hinside _ htone⟩

/-- A return leaves an inner subroutine or the one that the processor is in. -/
theorem Inside.step_of_returns (h : c.Inside s a) (ht : c.table = .standard) (hr : c.Returns) :
    (c.step dbg).result = .ok true ∧ (c.step dbg).tones = [] ∧
      ((c.step dbg).cpu.Inside s a ∨ (c.step dbg).cpu.stack = s ∧ (c.step dbg).cpu.pc = a) := by
  obtain ⟨inner, h⟩ := h
  cases inner with
  | nil =>
    obtain ⟨hresult, htones, hcpu⟩ := Cpu.step_of_returns dbg ht hr h
    rw [hcpu]
    exact ⟨hresult, htones, .inr ⟨rfl, rfl⟩⟩
  | cons b inner =>
    obtain ⟨hresult, htones, hcpu⟩ := Cpu.step_of_returns dbg ht hr
      (s := { s with entries := inner ++ a :: s.entries }) h
    rw [hcpu]
    exact ⟨hresult, htones, .inl ⟨inner, rfl⟩⟩

end Cpu

/-! ## Runs -/

namespace Session

variable {F : Type} [Frontend F] {dbg : Printer}

/-- What may happen while a subroutine runs. -/
def Event.IsInner (e : Event F) : Prop :=
  e = .step ∨ e = .tick ∨ ∃ index pressed, e = .key index pressed

variable {s : Session F} {base : CallStack} {a : Int}

/-- The last event was the return from the subroutine that was called with the stack `base`. -/
def Returned (dbg : Printer) (base : CallStack) (a : Int) (s : Session F) (e : Event F) : Prop :=
  e = .step ∧ s.machine.cpu.Returns ∧ (step dbg s).result = .ok true ∧
    (step dbg s).state.machine.cpu.stack = base ∧ (step dbg s).state.machine.cpu.pc = a

theorem inside_apply (ht : s.machine.cpu.table = .standard) (h : s.machine.cpu.Inside base a)
    {e : Event F} (he : e.IsInner) :
    (apply dbg e s).machine.cpu.Inside base a ∨ Returned dbg base a s e := by
  rcases he with rfl | rfl | ⟨index, pressed, rfl⟩
  · by_cases hr : s.machine.cpu.Returns
    · obtain ⟨hresult, htones, hend⟩ := h.step_of_returns dbg ht hr
      have hcpu := cpu_step_of_tones_nil htones
      rcases hend with hin | ⟨hstack, hpc⟩
      · left
        show (step dbg s).state.machine.cpu.Inside base a
        rw [hcpu]
        exact hin
      · refine .inr ⟨rfl, hr, ?_, ?_, ?_⟩
        · rw [step_of_tones_nil htones]
          exact hresult
        · rw [hcpu]
          exact hstack
        · rw [hcpu]
          exact hpc
    · exact .inl (machine_install (Q := (Cpu.Inside base a ·.cpu)) (h.step dbg ht hr))
  · exact .inl (machine_install (Q := (Cpu.Inside base a ·.cpu)) ⟨h, h⟩)
  · exact .inl (machine_install (Q := (Cpu.Inside base a ·.cpu)) ⟨h, h⟩)

/-- As long as no earlier moment was as deep as `base`, the subroutine still runs or has just
returned. -/
theorem inside_run (ht : s.machine.cpu.table = .standard) (h : s.machine.cpu.Inside base a)
    (events : List (Event F)) (he : ∀ e ∈ events, e.IsInner)
    (hd : ∀ pre, pre <+: events → pre ≠ events →
      (run dbg pre s).machine.cpu.stack.depth ≠ base.depth) :
    (run dbg events s).machine.cpu.Inside base a ∨
      ∃ pre e, events = pre ++ [e] ∧ Returned dbg base a (run dbg pre s) e := by
  induction events using List.reverseRecOn with
  | nil => exact .inl h
  | append_singleton events e ih =>
    have hprefix : events <+: events ++ [e] := List.prefix_append events [e]
    have hlast := hd events hprefix (by simp)
    have hrun := ih (fun e' he' => he e' (List.mem_append_left _ he')) fun pre hpre hne =>
      hd pre (hpre.trans hprefix) fun heq => by
        have := hpre.length_le
        rw [heq, List.length_append, List.length_singleton] at this
        omega
    rcases hrun with hin | ⟨pre, e', rfl, hret⟩
    · have htable := (Cpu.table_kept dbg .standard).run events ht
      rw [run_append]
      rcases inside_apply htable hin (he e (by simp)) with hin' | hret
      · exact .inl hin'
      · exact .inr ⟨events, e, rfl, hret⟩
    · -- it had returned before, at a moment as deep as `base`
      obtain ⟨rfl, -, -, hstack, -⟩ := hret
      rw [run_append] at hlast
      exact absurd (congrArg CallStack.depth hstack) hlast

end Session

/-- Between a call and the first later moment that is no deeper than before it, the stack keeps what
it held before the call, and that moment comes with the return behind the call. -/
theorem Session.returns_of_call {config : MachineConfig} {m : Machine}
    (hm : Machine.create config = .ok m) {F : Type} [Frontend F] (dbg : Printer) (frontend : F)
    (attached : Bool) (events : List (Event F)) :
    let s := run dbg events ⟨m, frontend, attached⟩
    let c := s.machine.cpu
    ∀ w, c.memory.load16 c.pc = .ok w → w / 0x1000 = 2 → (step dbg s).result = .ok true →
      ∀ later : List (Event F), (∀ e ∈ later, e.IsInner) →
        let at' := fun es => run dbg es (step dbg s).state
        (∀ pre, pre <+: later → pre ≠ later →
          (at' pre).machine.cpu.stack.depth ≠ c.stack.depth) →
        c.stack.entries <:+ (at' later).machine.cpu.stack.entries ∧
          ((at' later).machine.cpu.stack.depth = c.stack.depth →
            ∃ pre, later = pre ++ [.step] ∧
              (at' pre).machine.cpu.memory.load16 (at' pre).machine.cpu.pc = .ok 0x00EE ∧
              (step dbg (at' pre)).result = .ok true ∧
              (at' later).machine.cpu.stack = c.stack ∧
              (at' later).machine.cpu.pc = c.pc + 2) := by
  intro s c w hword hcall hok later hlater at' hdepth
  obtain ⟨-, rfl⟩ := Machine.create_eq_ok_iff.mp hm
  have ht : c.table = .standard :=
    (Cpu.table_kept dbg .standard).run events (Machine.table_initial config)
  obtain ⟨hi, w', hw, hf⟩ := Cpu.of_step_ok_true dbg (result_of_install hok)
  obtain ⟨-, hload, hlt⟩ := Cpu.canFetch_of_wordAt hw
  obtain rfl : w = w' := Except.ok.inj (hword.symm.trans hload)
  have hfit : Operation.call.Fits w := by
    rw [Operation.fits_iff rfl, and_f000 hlt, hcall]
  have hfull : c.stack.isFull = false := by
    rw [Cpu.wordFault_of_fits (c := c.advance) ht hlt hfit] at hf
    exact Bool.eq_false_iff.mpr fun hfull => nomatch (if_pos hfull).symm.trans hf
  obtain ⟨-, htones, hcpu⟩ := Cpu.step_of_call dbg ht hi hw hfit hfull
  have hstep : (step dbg s).state.machine.cpu = _ := (cpu_step_of_tones_nil htones).trans hcpu
  have ht' : (step dbg s).state.machine.cpu.table = .standard := by
    rw [hstep]
    exact ht
  have hin : (step dbg s).state.machine.cpu.Inside c.stack (c.pc + 2) := by
    rw [hstep]
    exact ⟨[], rfl⟩
  rcases inside_run ht' hin later hlater hdepth with
    hrun | ⟨pre, e, rfl, rfl, hret, hresult, hstack, hpc⟩
  · obtain ⟨hsuffix, hdeep⟩ := hrun.suffix
    exact ⟨hsuffix, fun heq => absurd heq (Nat.ne_of_gt hdeep)⟩
  · have hend : at' (pre ++ [.step]) = (step dbg (at' pre)).state := run_append dbg pre [.step] _
    rw [hend]
    refine ⟨hstack ▸ List.suffix_rfl, fun _ => ⟨pre, rfl, ?_, hresult, hstack, hpc⟩⟩
    exact (Cpu.canFetch_of_wordAt hret.2).2.1

/-- A program that calls a subroutine over and over, which returns at once. -/
def MachineConfig.calling : MachineConfig where
  dialect := .legacy
  program := .listed [0x22, 0x04, 0x12, 0x00, 0x00, 0xEE]
  cyclesPerFrame := 12
  random := .ofSequence fun _ => 0
  trace := none

theorem Machine.wordAt_calling :
    (initial .calling).cpu.wordAt 0x200 = some 0x2204 ∧
      (initial .calling).cpu.wordAt 0x204 = some 0x00EE :=
  ⟨Cpu.wordAt_of_program rfl (by decide) 0 rfl rfl (by decide),
    Cpu.wordAt_of_program rfl (by decide) 4 rfl rfl (by decide)⟩

theorem Session.returns_of_call_calling :
    ∃ m, Machine.create .calling = .ok m ∧
      let s : Session Headless := ⟨m, .start, false⟩
      m.cpu.pc = 0x200 ∧ m.cpu.stack.depth = 0 ∧
        (step .off s).state.machine.cpu.stack.entries = [0x202] ∧
        (run .off [.step] (step .off s).state).machine.cpu.pc = 0x202 := by
  obtain ⟨m, hm⟩ : ∃ m, Machine.create .calling = .ok m :=
    ⟨_, Machine.create_eq_ok_iff.mpr ⟨⟨by decide, by decide, by decide⟩, rfl⟩⟩
  have hinitial := (Machine.create_eq_ok_iff.mp hm).2
  have ht : m.cpu.table = .standard := hinitial ▸ Machine.table_initial .calling
  have hpc : m.cpu.pc = 0x200 := hinitial ▸ rfl
  have hi : m.cpu.idle = false := hinitial ▸ rfl
  have hstack : m.cpu.stack = .standard := hinitial ▸ rfl
  obtain ⟨hword, hinner⟩ := Machine.wordAt_calling
  rw [← hinitial] at hword hinner
  refine ⟨m, hm, ?_⟩
  intro s
  -- the call
  obtain ⟨hresult, htones, hcpu⟩ :=
    Cpu.step_of_call .off ht hi (hpc ▸ hword) (by decide) (by rw [hstack]; rfl)
  have hcalled : (step .off s).state.machine.cpu = _ := (cpu_step_of_tones_nil htones).trans hcpu
  -- the return
  obtain ⟨-, htones', hcpu'⟩ := Cpu.step_of_returns .off (c := (step .off s).state.machine.cpu)
    (a := m.cpu.pc + 2) (s := m.cpu.stack) (by rw [hcalled]; exact ht)
    (by rw [hcalled]; exact ⟨hi, hinner⟩) (by rw [hcalled])
  have hreturned : (run .off [.step] (step .off s).state).machine.cpu = _ :=
    (cpu_step_of_tones_nil htones').trans hcpu'
  obtain ⟨-, hload, -⟩ := Cpu.canFetch_of_wordAt hword
  have hdepth : (step .off s).state.machine.cpu.stack.depth ≠ m.cpu.stack.depth := by
    rw [hcalled]
    exact Nat.succ_ne_self _
  obtain ⟨-, hend⟩ := returns_of_call hm .off Headless.start false [] 0x2204 (hpc ▸ hload)
    (by decide) ((congrArg Outcome.result (step_of_tones_nil htones)).trans hresult) [.step]
    (by simp [Event.IsInner]) (fun pre hpre hne => by
      rcases List.prefix_cons_iff.mp hpre with rfl | ⟨rest, rfl, hrest⟩
      · exact hdepth
      · rw [List.prefix_nil.mp hrest] at hne
        exact absurd rfl hne)
  obtain ⟨-, -, -, -, -, hback⟩ := hend (congrArg (·.stack.depth) hreturned)
  refine ⟨hpc, by rw [hstack]; rfl, ?_, hback.trans (congrArg (· + 2) hpc)⟩
  rw [hcalled, hpc, hstack]
  rfl

end Chip8
