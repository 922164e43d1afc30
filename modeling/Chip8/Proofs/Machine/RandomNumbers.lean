import Chip8.Proofs.Machine.Frontends
import Chip8.Proofs.Machine.Steps

/-!
# Random numbers in a run

A processor whose random numbers are given by a sequence is at a place in it (`Cpu.StandsAt`).
A step goes on to the next place if the word that it carries out takes a random number
(`Cpu.randomWord`), and no other operation of the machine moves: not the rest of a frame, not a
change of a key, not a reset.

Along a run this makes `Session.Numbered`: each step starts at the place that the draws before it
lead to. The draws of a run are then numbered from zero, whatever happens between them
(`Session.random_of_run`).
-/

namespace Chip8

open Debug (Printer)

/-! ## One step -/

namespace Cpu

variable (dbg : Printer) {c : Cpu} {byteAt : Nat → UInt8} {p : Nat}

/-- The word that the next step carries out, if it takes a random number. -/
def randomWord (c : Cpu) : Option Nat := c.fetched.filter fun w => w / 0x1000 = 0xC

/-- How many random numbers the next step takes. -/
def drawn (c : Cpu) : Nat := c.randomWord.isSome.toNat

theorem drawn_of_none (h : c.randomWord = none) : c.drawn = 0 := by
  rw [drawn, h]
  rfl

theorem drawn_of_some {w : Nat} (h : c.randomWord = some w) : c.drawn = 1 := by
  rw [drawn, h]
  rfl

theorem randomWord_eq_some_iff {w : Nat} :
    c.randomWord = some w ↔ c.fetched = some w ∧ w / 0x1000 = 0xC := by
  simp only [randomWord, Option.filter_eq_some_iff, decide_eq_true_eq]

theorem fits_random_iff {w : Nat} (hw : w < 0x10000) :
    Operation.random.Fits w ↔ w / 0x1000 = 0xC := by
  rw [Operation.fits_iff rfl, and_f000 hw]
  omega

theorem random_step_of_none (ht : c.table = .standard) (hn : c.randomWord = none) :
    (c.step dbg).All (·.random = c.random) := by
  refine all_step_of_not_fits dbg ht (fun _ _ _ => rfl) rfl
    (fun hd => hd.random.imp_right And.left) fun w hw hfit => ?_
  have hsome := randomWord_eq_some_iff.mpr ⟨hw, (fits_random_iff (lt_of_fetched hw)).mp hfit⟩
  rw [hn] at hsome
  cases hsome

/-- A step that takes a random number puts it, masked, into a register. -/
theorem step_of_randomWord (ht : c.table = .standard) {w : Nat} (hw : c.randomWord = some w) :
    let o := Operands.ofWord w
    (c.step dbg).result = .ok true ∧ (c.step dbg).tones = [] ∧
      (c.step dbg).cpu =
        { c with
          pc := c.pc + 2
          v := c.v.set o.x.val (c.random.next.1.toNat &&& o.nn : Nat) o.x.isLt
          random := c.random.next.2
          executed := c.executed + 1 } := by
  intro o
  obtain ⟨hfetched, hdigit⟩ := randomWord_eq_some_iff.mp hw
  obtain ⟨hi, hword⟩ := fetched_eq_some_iff.mp hfetched
  have hfit : Operation.random.Fits w := (fits_random_iff (lt_of_fetched hfetched)).mpr hdigit
  exact step_of_fits dbg ht hi hword hfit rfl

/-- The random numbers come from the sequence, of which `p` have been taken. -/
structure StandsAt (byteAt : Nat → UInt8) (p : Nat) (c : Cpu) : Prop where
  table : c.table = .standard
  random : c.random = ⟨.sequence byteAt, p⟩

end Cpu

namespace Session

variable {F : Type} {byteAt : Nat → UInt8} {p q r : Nat}

/-! ## Steps in turn -/

/-- From `p` to `q`: each of the steps starts at the place that the draws before it lead to. -/
inductive Numbered (byteAt : Nat → UInt8) : Nat → List (Session F) → Nat → Prop where
  | nil (p : Nat) : Numbered byteAt p [] p
  | cons {p q : Nat} {t : Session F} {steps : List (Session F)}
      (ht : t.machine.cpu.StandsAt byteAt p)
      (hsteps : Numbered byteAt (p + t.machine.cpu.drawn) steps q) :
      Numbered byteAt p (t :: steps) q

/-- The steps that take a random number, with the words that they carry out. -/
def drawsOf (steps : List (Session F)) : List (Session F × Nat) :=
  steps.filterMap fun t => t.machine.cpu.randomWord.map fun w => (t, w)

theorem drawsOf_nil : drawsOf ([] : List (Session F)) = [] := rfl

section
variable {t : Session F} {steps : List (Session F)}

theorem drawsOf_cons_of_none (hw : t.machine.cpu.randomWord = none) :
    drawsOf (t :: steps) = drawsOf steps := by
  simp [drawsOf, hw]

theorem drawsOf_cons_of_some {w : Nat} (hw : t.machine.cpu.randomWord = some w) :
    drawsOf (t :: steps) = (t, w) :: drawsOf steps := by
  simp [drawsOf, hw]

end

theorem Numbered.append {steps later : List (Session F)} (h : Numbered byteAt p steps q)
    (hlater : Numbered byteAt q later r) : Numbered byteAt p (steps ++ later) r := by
  induction h with
  | nil p => exact hlater
  | cons ht _ ih => exact .cons ht (ih hlater)

theorem Numbered.of_mem {steps : List (Session F)} (h : Numbered byteAt p steps q)
    {t : Session F} (ht : t ∈ steps) : ∃ k, t.machine.cpu.StandsAt byteAt k := by
  induction h with
  | nil p => cases ht
  | cons hfirst _ ih =>
    rcases List.mem_cons.mp ht with rfl | hlater
    · exact ⟨_, hfirst⟩
    · exact ih hlater

/-- The draws of numbered steps are numbered in turn. -/
theorem Numbered.draws {steps : List (Session F)} (h : Numbered byteAt p steps q) :
    q = p + (drawsOf steps).length ∧
      ∀ (k : Nat) (t : Session F) (w : Nat), (drawsOf steps)[k]? = some (t, w) →
        t.machine.cpu.StandsAt byteAt (p + k) ∧ t.machine.cpu.randomWord = some w := by
  induction h with
  | nil p =>
    rw [drawsOf_nil]
    refine ⟨rfl, fun k t w hk => ?_⟩
    rw [List.getElem?_nil] at hk
    cases hk
  | @cons p q first steps hfirst _ ih =>
    obtain ⟨hend, hdraws⟩ := ih
    cases hw : first.machine.cpu.randomWord with
    | none =>
      rw [Cpu.drawn_of_none hw, Nat.add_zero] at hend hdraws
      rw [drawsOf_cons_of_none hw]
      exact ⟨hend, hdraws⟩
    | some word =>
      rw [Cpu.drawn_of_some hw] at hend hdraws
      rw [drawsOf_cons_of_some hw]
      refine ⟨by rw [hend, List.length_cons]; omega, fun k t w hk => ?_⟩
      cases k with
      | zero =>
        obtain ⟨rfl, rfl⟩ := Prod.mk.inj (Option.some.inj hk)
        exact ⟨hfirst, hw⟩
      | succ k =>
        obtain ⟨hat, hword⟩ := hdraws k t w hk
        rw [Nat.add_right_comm, Nat.add_assoc] at hat
        exact ⟨hat, hword⟩

/-! ## The parts of a run -/

variable [Frontend F] {dbg : Printer} {s : Session F}

theorem standsAt_step (h : s.machine.cpu.StandsAt byteAt p) :
    (step dbg s).state.machine.cpu.StandsAt byteAt (p + s.machine.cpu.drawn) := by
  obtain ⟨ht, hr⟩ := h
  cases hw : s.machine.cpu.randomWord with
  | none =>
    obtain ⟨htable, htableAtTone⟩ := (Cpu.table_kept dbg .standard).step ht
    obtain ⟨hrandom, hrandomAtTone⟩ := Cpu.random_step_of_none dbg ht hw
    rw [Cpu.drawn_of_none hw]
    exact machine_install (Q := fun m => m.cpu.StandsAt byteAt p)
      ⟨⟨htable, hrandom.trans hr⟩, htableAtTone, hrandomAtTone.trans hr⟩
  | some w =>
    obtain ⟨-, htones, hcpu⟩ := Cpu.step_of_randomWord dbg ht hw
    rw [Cpu.drawn_of_some hw, cpu_step_of_tones_nil htones, hcpu]
    refine ⟨ht, ?_⟩
    show s.machine.cpu.random.next.2 = _
    rw [hr, RandomSource.next_sequence]

theorem standsAt_cycle (h : s.machine.cpu.StandsAt byteAt p) :
    (cycle dbg s).state.machine.cpu.StandsAt byteAt (p + s.machine.cpu.drawn) := by
  rw [cpu_cycle]
  exact standsAt_step h

/-- A step ends alike whether it is recorded or not. -/
theorem like_step {t : Session F} {o : Outcome (Session F) Bool}
    (ho : o = step dbg t ∨ o = cycle dbg t) :
    o.result = (step dbg t).result ∧
      o.state.machine.cpu = (step dbg t).state.machine.cpu := by
  rcases ho with rfl | rfl
  · exact ⟨rfl, rfl⟩
  · exact ⟨result_cycle dbg t, cpu_cycle dbg t⟩

theorem standsAt_takeInput (h : s.machine.cpu.StandsAt byteAt p) :
    (takeInput dbg s).state.machine.cpu.StandsAt byteAt p := by
  obtain ⟨keypad, hkeys⟩ := machine_takeInput dbg s
  rw [hkeys]
  exact ⟨h.table, h.random⟩

theorem standsAt_tick (h : s.machine.cpu.StandsAt byteAt p) :
    (tick dbg s).state.machine.cpu.StandsAt byteAt p :=
  have htick : ∀ timers, { s.machine.cpu with timers }.StandsAt byteAt p :=
    fun _ => ⟨h.table, h.random⟩
  machine_install (Q := fun m => m.cpu.StandsAt byteAt p) ⟨htick _, htick _⟩

theorem standsAt_reset (h : s.machine.cpu.StandsAt byteAt p) :
    (reset dbg s).state.machine.cpu.StandsAt byteAt p :=
  machine_install (Q := fun m => m.cpu.StandsAt byteAt p)
    ⟨⟨h.table, h.random⟩, h.table, h.random⟩

theorem standsAt_setKey (index : Int) (pressed : Bool) (h : s.machine.cpu.StandsAt byteAt p) :
    (setKey dbg index pressed s).state.machine.cpu.StandsAt byteAt p :=
  machine_install (Q := fun m => m.cpu.StandsAt byteAt p)
    ⟨⟨h.table, h.random⟩, h.table, h.random⟩

theorem standsAt_draw (h : s.machine.cpu.StandsAt byteAt p) :
    (draw s).state.machine.cpu.StandsAt byteAt p := by
  have hdraw : (draw s).state.machine = s.machine := machine_onFrontend _ _
  rw [hdraw]
  exact h

variable (dbg)

theorem numbered_runCycles (count : Nat) (h : s.machine.cpu.StandsAt byteAt p) :
    ∃ q, Numbered byteAt p (stepsOfCycles dbg count s) q ∧
      (runCycles dbg count s).state.machine.cpu.StandsAt byteAt q := by
  induction count generalizing s p with
  | zero => exact ⟨p, .nil p, h⟩
  | succ count ih =>
    have hfirst : (cycle dbg s).state.machine.cpu.StandsAt byteAt (p + s.machine.cpu.drawn) :=
      standsAt_cycle h
    rw [stepsOfCycles]
    cases hr : (cycle dbg s).result with
    | error e =>
      rw [state_runCycles_of_error hr]
      exact ⟨_, .cons h (.nil _), hfirst⟩
    | ok stepped =>
      obtain ⟨q, hsteps, hend⟩ := ih hfirst
      rw [state_runCycles_of_ok hr]
      exact ⟨q, .cons h hsteps, hend⟩

theorem numbered_advanceFrame (h : s.machine.cpu.StandsAt byteAt p) :
    ∃ q, Numbered byteAt p (stepsOfCycles dbg s.machine.cyclesPerFrame s) q ∧
      (advanceFrame dbg s).state.machine.cpu.StandsAt byteAt q := by
  obtain ⟨q, hsteps, hcycles⟩ := numbered_runCycles dbg s.machine.cyclesPerFrame h
  refine ⟨q, hsteps, ?_⟩
  rw [advanceFrame_eq]
  refine Outcome.state_andThen (Q := fun t : Session F => t.machine.cpu.StandsAt byteAt q) hcycles
    fun _ t ht => ?_
  refine Outcome.state_andThen (Q := fun t : Session F => t.machine.cpu.StandsAt byteAt q)
    (standsAt_tick ht) fun _ u hu => ?_
  exact standsAt_draw (s := u.countFrame) hu

theorem numbered_runFrame (h : s.machine.cpu.StandsAt byteAt p) :
    ∃ q, Numbered byteAt p (stepsOfFrame dbg s) q ∧
      (runFrame dbg s).state.machine.cpu.StandsAt byteAt q := by
  have hinput : (takeInput dbg s).state.machine.cpu.StandsAt byteAt p := standsAt_takeInput h
  rw [runFrame_eq, stepsOfFrame]
  generalize takeInput dbg s = o at hinput ⊢
  obtain ⟨result, t, lines⟩ := o
  cases result with
  | error e => exact ⟨p, .nil p, hinput⟩
  | ok goesOn =>
    cases goesOn with
    | false => exact ⟨p, .nil p, hinput⟩
    | true => exact numbered_advanceFrame dbg hinput

theorem numbered_apply (e : Event F) (h : s.machine.cpu.StandsAt byteAt p) :
    ∃ q, Numbered byteAt p (stepsOf dbg e s) q ∧
      (apply dbg e s).machine.cpu.StandsAt byteAt q := by
  cases e with
  | step => exact ⟨_, .cons h (.nil _), standsAt_step h⟩
  | cycles count => exact numbered_runCycles dbg count h
  | frame => exact numbered_runFrame dbg h
  | key index pressed => exact ⟨p, .nil p, standsAt_setKey index pressed h⟩
  | tick => exact ⟨p, .nil p, standsAt_tick h⟩
  | reset => exact ⟨p, .nil p, standsAt_reset h⟩
  | attach =>
    refine ⟨p, .nil p, ?_⟩
    show (attach s).state.machine.cpu.StandsAt byteAt p
    rw [machine_attach]
    exact h
  | detach => exact ⟨p, .nil p, h⟩
  | change f => exact ⟨p, .nil p, h⟩

theorem numbered_run (events : List (Event F)) (h : s.machine.cpu.StandsAt byteAt p) :
    ∃ q, Numbered byteAt p (stepsOfRun dbg events s) q ∧
      (run dbg events s).machine.cpu.StandsAt byteAt q := by
  induction events generalizing s p with
  | nil => exact ⟨p, .nil p, h⟩
  | cons e events ih =>
    obtain ⟨k, hfirst, hnext⟩ := numbered_apply dbg e h
    obtain ⟨q, hlater, hend⟩ := ih hnext
    exact ⟨q, hfirst.append hlater, hend⟩

/-- Along every run, resets included, the draws take the numbers of the sequence in turn, each draw
one, and nothing else takes any: not a step of another word, and nothing between the steps. -/
theorem random_of_run {config : MachineConfig} {m : Machine} (hm : Machine.create config = .ok m)
    {byteAt : Nat → UInt8} (hr : config.random = .ofSequence byteAt) {F : Type} [Frontend F]
    (dbg : Printer) (frontend : F) (attached : Bool) (events : List (Event F)) :
    let s : Session F := ⟨m, frontend, attached⟩
    let steps := stepsOfRun dbg events s
    let draws := drawsOf steps
    (run dbg events s).machine.cpu.random = ⟨.sequence byteAt, draws.length⟩ ∧
      (∀ (k : Nat) (t : Session F) (w : Nat), draws[k]? = some (t, w) →
        t.machine.cpu.random.position = k ∧
          ∀ o, o = step dbg t ∨ o = cycle dbg t →
            let c := o.state.machine.cpu
            let operands := Operands.ofWord w
            o.result = .ok true ∧ c.random.position = k + 1 ∧
              c.reg operands.x = ((byteAt k).toNat &&& operands.nn : Nat)) ∧
      ∀ t ∈ steps, t.machine.cpu.randomWord = none →
        ∀ o, o = step dbg t ∨ o = cycle dbg t →
          o.state.machine.cpu.random = t.machine.cpu.random := by
  intro s steps draws
  obtain ⟨-, hinitial⟩ := Machine.create_eq_ok_iff.mp hm
  have hstart : s.machine.cpu.StandsAt byteAt 0 := by
    subst hinitial
    exact ⟨Machine.table_initial config, hr⟩
  obtain ⟨q, hsteps, hend⟩ := numbered_run dbg events hstart
  obtain ⟨rfl, hdraws⟩ := hsteps.draws
  refine ⟨?_, fun k t w hk => ?_, fun t ht hn o ho => ?_⟩
  · rw [hend.random, Nat.zero_add]
  · obtain ⟨⟨htable, hrandom⟩, hw⟩ := hdraws k t w hk
    rw [Nat.zero_add] at hrandom
    refine ⟨by rw [hrandom], fun o ho => ?_⟩
    obtain ⟨hresult, htones, hcpu⟩ := Cpu.step_of_randomWord dbg htable hw
    obtain ⟨hsame, hsameCpu⟩ := like_step ho
    rw [hrandom, RandomSource.next_sequence] at hcpu
    rw [hsame, hsameCpu, cpu_step_of_tones_nil htones, step_of_tones_nil htones, hcpu]
    exact ⟨hresult, rfl, Vector.getElem_set_self _⟩
  · obtain ⟨k, htable, -⟩ := hsteps.of_mem ht
    obtain ⟨-, hsameCpu⟩ := like_step ho
    rw [hsameCpu]
    exact machine_install (Q := fun u => u.cpu.random = t.machine.cpu.random)
      (Cpu.random_step_of_none dbg htable hn)

end Session

/-- A program that begins with a random number below sixteen. -/
def MachineConfig.rolling : MachineConfig where
  dialect := .legacy
  program := .listed [0xC1, 0x0F]
  cyclesPerFrame := 12
  random := .ofSequence fun k => UInt8.ofNat (0x3C + k)
  trace := none

theorem Cpu.randomWord_rolling {c : Cpu} (hm : c.memory = (Machine.initial .rolling).cpu.memory)
    (hpc : c.pc = programStart) (hs : c.runState = .running) : c.randomWord = some 0xC10F := by
  have hw : c.wordAt (programStart + 0 : Nat) = some 0xC10F :=
    wordAt_of_program hm (by decide) 0 rfl rfl (by decide)
  have hi : c.idle = false := by simp [idle, halted, awaitingKey, hs]
  exact randomWord_eq_some_iff.mpr ⟨fetched_eq_some_iff.mpr ⟨hi, hpc ▸ hw⟩, rfl⟩

/-- Behind a reset the same word takes the second number of the sequence, which ends in `D`. -/
theorem Session.random_of_run_rolling :
    ∃ m, Machine.create .rolling = .ok m ∧
      MachineConfig.rolling.random = .ofSequence (fun k => UInt8.ofNat (0x3C + k)) ∧
      ∃ t : Session Headless, t = run .off [.step, .reset, .step] ⟨m, .start, false⟩ ∧
        t.machine.cpu.reg 1 = 0xD ∧ t.machine.cpu.random.position = 2 := by
  have hm := Machine.create_eq_ok_iff.mpr
    ⟨⟨(by decide : 0 < MachineConfig.rolling.cyclesPerFrame), by decide, by decide⟩, rfl⟩
  obtain ⟨-, htaken, -⟩ :=
    random_of_run hm rfl .off Headless.start false [.step, .reset, .step]
  refine ⟨_, hm, rfl, _, rfl, ?_⟩
  generalize hs : (⟨.initial .rolling, Headless.start, false⟩ : Session Headless) = s at htaken ⊢
  have hmachine : s.machine = .initial .rolling := by rw [← hs]
  have ht : s.machine.cpu.table = .standard := hmachine ▸ Machine.table_initial .rolling
  have hfirst : s.machine.cpu.randomWord = some 0xC10F := by
    rw [hmachine]
    exact Cpu.randomWord_rolling rfl rfl rfl
  obtain ⟨-, htones, hcpu⟩ := Cpu.step_of_randomWord .off ht hfirst
  -- stated of any session, where nothing is there to be evaluated
  have hearlier : ∀ u : Session Headless, run .off [.step, .reset] u =
      (reset .off (step .off u).state).state := fun _ => rfl
  have hrun : ∀ u : Session Headless, run .off [.step, .reset, .step] u =
      (step .off (run .off [.step, .reset] u)).state := fun _ => rfl
  have hsteps : ∀ u : Session Headless, stepsOfRun .off [.step, .reset, .step] u =
      [u, run .off [.step, .reset] u] := fun _ => rfl
  have hagain : (run .off [.step, .reset] s).machine.cpu.randomWord = some 0xC10F := by
    rw [hearlier, cpu_reset Headless.endsTone, cpu_step_of_tones_nil htones, hcpu, hmachine]
    exact Cpu.randomWord_rolling rfl rfl rfl
  have hdraws : drawsOf (stepsOfRun .off [.step, .reset, .step] s) =
      [(s, 0xC10F), (run .off [.step, .reset] s, 0xC10F)] := by
    rw [hsteps, drawsOf_cons_of_some hfirst, drawsOf_cons_of_some hagain, drawsOf_nil]
  obtain ⟨-, hsecond⟩ := htaken 1 (run .off [.step, .reset] s) 0xC10F (by rw [hdraws]; rfl)
  obtain ⟨-, hposition, hreg⟩ := hsecond _ (.inl rfl)
  have hx : (Operands.ofWord (0xC10F : Nat)).x = 1 := by decide
  have hbyte : (UInt8.ofNat (0x3C + 1)).toNat &&& (Operands.ofWord (0xC10F : Nat)).nn = 0xD := by
    decide
  rw [hx, hbyte] at hreg
  rw [hrun]
  exact ⟨hreg, hposition⟩

end Chip8
