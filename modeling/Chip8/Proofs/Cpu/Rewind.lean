import Chip8.Proofs.Cpu.KeyWait

/-!
# Waiting by running again

A plainer processor knows of no wait (`stepRewinding`): unless it has halted it fetches and executes
at every step, and the word that waits for a key just goes back to itself while every key is up.
Parking is an optimisation of it, and nothing that shows of a processor (`Cpu.View`) tells the two
apart: started alike and put through the same events, they give the same observations
(`watch_stepRewinding`).

The proof is a simulation. The plain processor is the parked one with its wait forgotten and
another count of instructions (`Cpu.rewinding`), which is kept by every event (`Matches`). For a
step of a parked processor this rests on `Cpu.WaitState`: the word that it would fetch again is
still the one that waits.
-/

namespace Chip8.Cpu

open Debug (Printer)

/-! ## The plain processor -/

/-- Takes the lowest key that is down, or goes back to try again. -/
def pollKey (c : Cpu) (x : Fin 16) : Cpu :=
  match c.keypad.firstPressed with
  | none => { c with pc := c.pc - 2 }
  | some key => c.setReg x key.val

def executeRewinding (dbg : Printer) (word : Int) (c : Cpu) : CpuOutcome Unit :=
  if c.table.waits word then .done () (c.pollKey (Operands.ofWord word).x)
  else c.execute dbg word

/-- The end of a step whose word, fetched from `address`, has been carried out. -/
def conclude (dbg : Printer) (address : Int) (word : Nat) (o : CpuOutcome Unit) :
    CpuOutcome Bool :=
  let lines := dbg.lines "cpu" "pc=%04x opcode=%04x" [.own address, .own word] ++ o.lines
  match o.result with
  | .error e =>
    let cpu := if e.isMemory then { o.cpu with runState := .halted } else o.cpu
    { result := .error e, cpu, tones := o.tones, lines }
  | .ok () =>
    { result := .ok true
      cpu := { o.cpu with executed := o.cpu.executed + 1 }
      tones := o.tones
      cpuAtTone := o.cpuAtTone
      lines }

theorem executeFetched_eq_conclude (dbg : Printer) (address : Int) (word : Nat) (c : Cpu) :
    c.executeFetched dbg address word = conclude dbg address word (c.execute dbg word) := by
  rw [executeFetched_eq, executeCounted, conclude]
  cases (c.execute dbg word).result <;> rfl

/-- Executes one instruction unless the processor has halted. -/
def stepRewinding (dbg : Printer) (c : Cpu) : CpuOutcome Bool :=
  if c.halted then .done false c
  else
    let o := c.fetch
    match o.result with
    | .error e => .failed e o.cpu
    | .ok word => conclude dbg c.pc word (o.cpu.executeRewinding dbg word)

/-! ## Observations -/

/-- What shows of a processor: all but how it waits and how many instructions it has executed. -/
structure View where
  v : Vector Int 16
  i : Int
  pc : Int
  stack : CallStack
  timers : Timers
  memory : Memory
  display : FrameBuffer
  keypad : Keypad
  random : RandomSource
  halted : Bool

def view (c : Cpu) : View :=
  ⟨c.v, c.i, c.pc, c.stack, c.timers, c.memory, c.display, c.keypad, c.random, c.halted⟩

/-- What shows of an event: whether it failed and why, the changes of the tone, and the processor
after it. -/
structure Observation where
  result : Except Error Unit
  tones : List Bool
  view : View

def observe (o : CpuOutcome Unit) : Observation := ⟨o.result, o.tones, o.cpu.view⟩

/-- What can happen to a processor. -/
inductive Event where
  | step
  | key (index : Int) (pressed : Bool)
  | tick
  | reset

/-- The effect of an event on a processor with the given step. -/
def respond (dbg : Printer) (step : Cpu → CpuOutcome Bool) : Event → Cpu → CpuOutcome Unit
  | .step, c => (step c).map fun _ => ()
  | .key index pressed, c => c.setKey dbg index pressed
  | .tick, c => c.tick
  | .reset, c => c.reset

/-- The observations that events in turn give. -/
def watch (dbg : Printer) (step : Cpu → CpuOutcome Bool) : List Event → Cpu → List Observation
  | [], _ => []
  | e :: events, c =>
    observe (respond dbg step e c) :: watch dbg step events (respond dbg step e c).cpu

/-! ## Simulation -/

/-- The plain processor of one that may wait. -/
def rewinding (c : Cpu) (executed : Nat) : Cpu :=
  c.withControl (if c.halted then .halted else .running) none executed

/-- The second operation ends like the first one, with the plain processor. -/
def Matches {α : Type} (o p : CpuOutcome α) : Prop :=
  (p.result.map fun _ => ()) = (o.result.map fun _ => ()) ∧ p.tones = o.tones ∧
    ∃ n, p.cpu = o.cpu.rewinding n

variable (dbg : Printer) {c : Cpu}

theorem halted_rewinding (n : Nat) : (c.rewinding n).halted = c.halted := by
  cases h : c.halted with
  | true => simp only [rewinding, h, if_true]; rfl
  | false => simp only [rewinding, h, Bool.false_eq_true, if_false]; rfl

theorem view_rewinding (n : Nat) : (c.rewinding n).view = c.view := by
  have h := halted_rewinding (c := c) n
  unfold view
  rw [h]
  rfl

theorem rewinding_of_not_halted (h : c.halted = false) (n : Nat) :
    c.rewinding n = c.withControl .running none n := by
  rw [rewinding, h]
  rfl

theorem map_unit (r : Except Error Unit) : (r.map fun _ => ()) = r := by
  cases r <;> rfl

theorem Matches.observe {o p : CpuOutcome Unit} (h : Matches o p) :
    Cpu.observe p = Cpu.observe o := by
  obtain ⟨hr, ht, n, hc⟩ := h
  rw [map_unit, map_unit] at hr
  simp only [Cpu.observe, hr, ht, hc, view_rewinding]

theorem Matches.forget {o p : CpuOutcome Bool} (h : Matches o p) :
    Matches (o.map fun _ => ()) (p.map fun _ => ()) := by
  obtain ⟨hr, ht, hc⟩ := h
  refine ⟨?_, ht, hc⟩
  show ((p.result.map fun _ => ()).map fun _ => ()) = ((o.result.map fun _ => ()).map fun _ => ())
  rw [hr]

theorem Matches.conclude {o p : CpuOutcome Unit} (h : Matches o p) (address : Int) (word : Nat) :
    Matches (Cpu.conclude dbg address word o) (Cpu.conclude dbg address word p) := by
  obtain ⟨hr, ht, n, hc⟩ := h
  rw [map_unit, map_unit] at hr
  unfold Cpu.conclude
  rw [hr]
  cases o.result with
  | error e =>
    refine ⟨rfl, ht, n, ?_⟩
    by_cases hm : e.isMemory = true
    · simp only [if_pos hm, hc]
      rfl
    · simp only [if_neg hm, hc]
  | ok _ =>
    refine ⟨rfl, ht, n + 1, ?_⟩
    simp only [hc]
    rfl

/-- A word is carried out alike, unless it waits for a key: then the plain processor only goes
back. -/
theorem matches_executeRewinding (ht : c.table = .standard) (hh : c.halted = false) {word : Nat}
    (hlt : word < 0x10000)
    (hfree : c.table.waits word = false → c.runState = .running ∧ c.waitRegister = none) (n : Nat) :
    Matches (c.execute dbg word) ((c.rewinding n).executeRewinding dbg word) := by
  rw [rewinding_of_not_halted hh]
  have htable : (c.withControl .running none n).table = c.table := rfl
  unfold executeRewinding
  rw [htable]
  cases hw : c.table.waits word with
  | true =>
    rw [ht, InstructionTable.waits_standard_iff hlt] at hw
    generalize hx : (Operands.ofWord word).x = x at hw
    subst hw
    rw [if_pos rfl, execute_waitWord dbg ht, pollKey]
    have hkeypad : (c.withControl .running none n).keypad = c.keypad := rfl
    rw [hkeypad]
    cases c.keypad.firstPressed with
    | none => exact ⟨rfl, rfl, n, rfl⟩
    | some key => exact ⟨rfl, rfl, n, rfl⟩
  | false =>
    obtain ⟨hs, hr⟩ := hfree hw
    obtain ⟨⟨hs', hr', -⟩, -⟩ := control_execute dbg ht hw
    rw [if_neg Bool.false_ne_true, execute_withControl dbg ht hw]
    refine ⟨rfl, rfl, n, ?_⟩
    have hh' : (c.execute dbg word).cpu.halted = false := by simp [halted, hs', hs]
    rw [rewinding_of_not_halted hh']
    rfl

theorem stepRewinding_of_word (hh : c.halted = false) {word : Nat}
    (hw : c.wordAt c.pc = some word) :
    c.stepRewinding dbg = conclude dbg c.pc word (c.advance.executeRewinding dbg word) := by
  obtain ⟨hf, hl, -⟩ := canFetch_of_wordAt hw
  rw [stepRewinding, hh, if_neg Bool.false_ne_true, fetch, if_pos hf, hl]
  rfl

theorem stepRewinding_of_unfetchable (hh : c.halted = false) (hw : c.wordAt c.pc = none) :
    c.stepRewinding dbg =
      .failed (.counterOutside c.pc c.memory.size) { c with runState := .halted } := by
  rw [stepRewinding, hh, if_neg Bool.false_ne_true, fetch, wordAt_eq_none_iff.mp hw]
  rfl

/-- Fetching and executing is matched by the plain processor, also where the processor is parked and
would not do it. -/
theorem matches_fetched (h : c.WaitState) (ht : c.table = .standard) (hh : c.halted = false)
    {word : Nat} (hw : c.wordAt c.pc = some word) (n : Nat) :
    Matches (c.advance.executeFetched dbg c.pc word) ((c.rewinding n).stepRewinding dbg) := by
  obtain ⟨-, -, hlt⟩ := canFetch_of_wordAt hw
  have hfree : c.table.waits word = false → c.runState = .running ∧ c.waitRegister = none := by
    intro hn
    obtain ⟨hr, hs⟩ := h.free_of_word ht hw hn
    refine ⟨?_, hr⟩
    cases hrun : c.runState with
    | running => rfl
    | awaitingKey => exact absurd hrun hs
    | halted => simp [halted, hrun] at hh
  have hex : Matches (c.advance.execute dbg word)
      ((c.advance.rewinding n).executeRewinding dbg word) :=
    matches_executeRewinding dbg (c := c.advance) ht hh hlt hfree n
  rw [executeFetched_eq_conclude, stepRewinding_of_word dbg ((halted_rewinding n).trans hh) hw]
  exact hex.conclude dbg c.pc word

theorem matches_step (h : c.WaitState) (ht : c.table = .standard) (n : Nat) :
    Matches (c.step dbg) ((c.rewinding n).stepRewinding dbg) := by
  have hhalt := halted_rewinding (c := c) n
  cases hh : c.halted with
  | true =>
    rw [hh] at hhalt
    have hi : c.idle = true := by simp [idle, hh]
    obtain ⟨lines, heq⟩ := step_of_idle dbg hi
    rw [heq, stepRewinding, hhalt]
    exact ⟨rfl, rfl, n, rfl⟩
  | false =>
    rw [hh] at hhalt
    cases h with
    | free hr hs =>
      have hi : c.idle = false := by simp [idle, hh, awaitingKey, hs]
      cases hw : c.wordAt c.pc with
      | none =>
        rw [step_of_unfetchable dbg hi hw, stepRewinding_of_unfetchable dbg hhalt hw]
        exact ⟨rfl, rfl, n, rfl⟩
      | some word =>
        rw [step_of_word dbg hi hw]
        exact matches_fetched dbg (.free hr hs) ht hh hw n
    | parked x hr hs hw =>
      have hfetched := matches_fetched dbg (.parked x hr hs hw) ht hh hw n
      cases hi : c.idle with
      | false =>
        rw [step_of_word dbg hi hw]
        exact hfetched
      | true =>
        have hany : c.keypad.anyPressed = false := by simpa [idle, hh, awaitingKey, hs] using hi
        have hk := Keypad.firstPressed_eq_none_iff_anyPressed.mpr hany
        obtain ⟨lines, hwait⟩ := executeFetched_waitWord dbg ht hk x
        obtain ⟨lines', heq⟩ := step_of_idle dbg hi
        -- Parking a parked processor again changes nothing but the count.
        rw [hwait, ← hr, ← hs] at hfetched
        rw [heq]
        exact hfetched

theorem matches_respond (h : c.WaitState) (ht : c.table = .standard) (e : Event) (n : Nat) :
    Matches (respond dbg (step dbg) e c) (respond dbg (stepRewinding dbg) e (c.rewinding n)) := by
  cases e with
  | step => exact (matches_step dbg h ht n).forget
  | key index pressed => exact ⟨rfl, rfl, n, rfl⟩
  | tick => exact ⟨rfl, rfl, n, rfl⟩
  | reset => exact ⟨rfl, rfl, 0, rfl⟩

theorem respond_waitState (h : c.WaitState) (ht : c.table = .standard) (e : Event) :
    (respond dbg (step dbg) e c).cpu.WaitState ∧
      (respond dbg (step dbg) e c).cpu.table = .standard := by
  have hk := WaitState.kept dbg
  cases e with
  | step =>
    obtain ⟨ht', h'⟩ := (hk.step ⟨ht, h⟩).1
    exact ⟨h', ht'⟩
  | key index pressed =>
    obtain ⟨ht', h'⟩ := (hk.setKey index pressed ⟨ht, h⟩).1
    exact ⟨h', ht'⟩
  | tick =>
    obtain ⟨ht', h'⟩ := (hk.tick ⟨ht, h⟩).1
    exact ⟨h', ht'⟩
  | reset => exact ⟨.reset c, ht⟩

theorem watch_rewinding (events : List Event) (h : c.WaitState) (ht : c.table = .standard)
    (n : Nat) :
    watch dbg (stepRewinding dbg) events (c.rewinding n) = watch dbg (step dbg) events c := by
  induction events generalizing c n with
  | nil => rfl
  | cons e events ih =>
    have hm := matches_respond dbg h ht e n
    obtain ⟨h', ht'⟩ := respond_waitState dbg h ht e
    unfold watch
    rw [hm.observe]
    obtain ⟨-, -, m, hc⟩ := hm
    rw [hc, ih h' ht' m]

theorem rewinding_create (memory : Memory) (display : FrameBuffer) (keypad : Keypad)
    (dialect : Dialect) (table : InstructionTable) (random : RandomSource) :
    (create memory display keypad dialect table random).rewinding 0 =
      create memory display keypad dialect table random := rfl

/-- Whatever is in memory and whatever happens from the start on, parking does not show. -/
theorem watch_stepRewinding (memory : Memory) (display : FrameBuffer) (keypad : Keypad)
    (dialect : Dialect) (random : RandomSource) (events : List Event) :
    let c := create memory display keypad dialect .standard random
    watch dbg (stepRewinding dbg) events c = watch dbg (step dbg) events c := by
  intro c
  have h : c.WaitState := .create memory display keypad dialect .standard random
  have ht : c.table = .standard := table_create memory display keypad dialect .standard random
  have hw := watch_rewinding dbg events h ht 0
  rwa [rewinding_create] at hw

end Chip8.Cpu
