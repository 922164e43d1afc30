import Chip8.Proofs.Cpu.Kept

/-!
# Changes aside

Few operations work with the dialect, the timers or control, which is the run state, the register
that waits for a key and the number of executed instructions. A change of these (`Aside`) can be
made before an operation or after it, unless the operation works with a part that changes
(`perform_aside`). A step itself works with control alone: a change of dialect and timers can be
made before the step or after it whenever that goes for the operation that it carries out
(`step_aside`).
-/

namespace Chip8

/-- A change of what few operations work with. -/
structure Aside where
  dialect : Dialect → Dialect := id
  timers : Timers → Timers := id
  runState : RunState → RunState := id
  waitRegister : Option (Fin 16) → Option (Fin 16) := id
  executed : Nat → Nat := id

def Operation.UsesDialect (op : Operation) : Prop :=
  op = .jumpIndexed ∨ op = .shiftRight ∨ op = .shiftLeft ∨ op = .prepareShift

def Operation.UsesTimers (op : Operation) : Prop :=
  op = .readDelay ∨ op = .setDelay ∨ op = .setSound

/-- The same end with another view of the processor. -/
def CpuOutcome.mapCpu {α : Type} (f : Cpu → Cpu) (o : CpuOutcome α) : CpuOutcome α :=
  { o with cpu := f o.cpu, cpuAtTone := f o.cpuAtTone }

namespace Cpu

variable (dbg : Debug.Printer) {c : Cpu} {o : Operands} {op : Operation} {a : Aside}

def aside (a : Aside) (c : Cpu) : Cpu :=
  { c with
    dialect := a.dialect c.dialect
    timers := a.timers c.timers
    runState := a.runState c.runState
    waitRegister := a.waitRegister c.waitRegister
    executed := a.executed c.executed }

/-! ## Operations -/

theorem storeAtIndex_aside (data : List Int) :
    (c.aside a).storeAtIndex data = (c.storeAtIndex data).mapCpu (aside a) := by
  unfold storeAtIndex
  simp only [aside]
  split <;> rfl

theorem skipIf_aside (condition : Bool) :
    (c.aside a).skipIf condition = (c.skipIf condition).aside a := by
  cases condition <;> rfl

theorem fillRegisters_aside (bytes : List UInt8) :
    (c.aside a).fillRegisters bytes = (c.fillRegisters bytes).aside a := by
  simp only [fillRegisters, aside, reg]

theorem prepareShift_aside (hd : a.dialect = id) :
    (c.aside a).prepareShift o = (c.prepareShift o).aside a := by
  obtain ⟨dialect, timers, runState, waitRegister, executed⟩ := a
  obtain rfl : dialect = id := hd
  unfold prepareShift
  simp only [aside, id]
  split <;> rfl

/-- An operation that works with no part that changes. -/
theorem perform_aside (hd : op.UsesDialect → a.dialect = id) (ht : op.UsesTimers → a.timers = id)
    (hw : op = .waitKey → a.runState = id ∧ a.waitRegister = id) :
    (c.aside a).perform dbg o op = (c.perform dbg o op).mapCpu (aside a) := by
  cases op with
  | jumpIndexed =>
    obtain ⟨dialect, timers, runState, waitRegister, executed⟩ := a
    obtain rfl : dialect = id := hd (.inl rfl)
    rfl
  | shiftRight | shiftLeft | prepareShift =>
    have hdialect := hd (by simp [Operation.UsesDialect])
    simp only [perform, prepareShift_aside hdialect]
    rfl
  | readDelay | setDelay | setSound =>
    obtain ⟨dialect, timers, runState, waitRegister, executed⟩ := a
    obtain rfl : timers = id := ht (by simp [Operation.UsesTimers])
    rfl
  | waitKey =>
    obtain ⟨dialect, timers, runState, waitRegister, executed⟩ := a
    obtain ⟨rfl, rfl⟩ : runState = id ∧ waitRegister = id := hw rfl
    simp only [perform, aside]
    split <;> rfl
  | ret =>
    simp only [perform_ret, aside]
    split <;> rfl
  | call =>
    simp only [perform_call, aside]
    split <;> rfl
  | draw =>
    simp only [perform, aside]
    split <;> rfl
  | loadRegisters =>
    have hread (n : Int) :
        (c.aside a).memory.readBlock (c.aside a).i n = c.memory.readBlock c.i n := rfl
    simp only [perform, hread]
    cases c.memory.readBlock c.i (o.x.val + 1 : Nat) with
    | error e => rfl
    | ok bytes => exact congrArg (CpuOutcome.done ()) (fillRegisters_aside bytes)
  | skipIfByte | skipUnlessByte | skipIfSame | skipUnlessSame | skipIfPressed
  | skipUnlessPressed => exact congrArg (CpuOutcome.done ()) (skipIf_aside _)
  | addIndex =>
    have hi : (c.aside a).i + (c.aside a).reg o.x = c.i + c.reg o.x := rfl
    simp only [perform, hi]
    split <;> rfl
  | storeDecimal | storeRegisters => exact storeAtIndex_aside _
  | _ => rfl

/-! ## Steps -/

/-- A word whose instruction works with no part that changes. -/
theorem execute_aside {word : Int}
    (hm : ∀ i name, c.table.lookup word = some i → i.handler = .member name .waitRegister →
      a.waitRegister = id)
    (h : ∀ i op, c.table.lookup word = some i → i.handler = .operation op →
      (c.aside a).perform dbg (.ofWord word) op =
        (c.perform dbg (.ofWord word) op).mapCpu (aside a)) :
    (c.aside a).execute dbg word = (c.execute dbg word).mapCpu (aside a) := by
  have htable : (c.aside a).table = c.table := rfl
  rw [execute_eq, execute_eq, htable]
  cases hl : c.table.lookup word with
  | none => rfl
  | some i =>
    simp only
    cases hh : i.handler with
    | operation op => exact h i op hl hh
    | unknown name => rfl
    | member name m =>
      cases m with
      | passive => rfl
      | refuses why => rfl
      | waitRegister =>
        obtain ⟨dialect, timers, runState, waitRegister, executed⟩ := a
        obtain rfl : waitRegister = id := hm i name hl hh
        rfl

variable {dialect : Dialect → Dialect} {timers : Timers → Timers}

theorem executeFetched_aside {word : Nat} (address : Int)
    (h : (c.aside { dialect, timers }).execute dbg word =
      (c.execute dbg word).mapCpu (aside { dialect, timers })) :
    (c.aside { dialect, timers }).executeFetched dbg address word =
      (c.executeFetched dbg address word).mapCpu (aside { dialect, timers }) := by
  rw [executeFetched_eq, executeFetched_eq, executeCounted, executeCounted, h]
  obtain ⟨result, cpu, tones, cpuAtTone, lines⟩ := c.execute dbg word
  cases result with
  | ok _ => rfl
  | error e =>
    simp only [CpuOutcome.mapCpu]
    cases e.isMemory <;> rfl

/-- A step that carries out an operation which works with no part that changes. -/
theorem step_aside (dialect : Dialect → Dialect) (timers : Timers → Timers)
    (h : c.idle = false → ∀ w : Nat, c.wordAt c.pc = some w →
      ∀ i op, c.table.lookup w = some i → i.handler = .operation op →
        (c.advance.aside { dialect, timers }).perform dbg (.ofWord w) op =
          (c.advance.perform dbg (.ofWord w) op).mapCpu (aside { dialect, timers })) :
    (c.aside { dialect, timers }).step dbg =
      (c.step dbg).mapCpu (aside { dialect, timers }) := by
  have hidle : (c.aside { dialect, timers }).idle = c.idle := rfl
  have hword : (c.aside { dialect, timers }).wordAt (c.aside { dialect, timers }).pc =
    c.wordAt c.pc := rfl
  cases hi : c.idle with
  | true =>
    rw [step_eq_of_idle dbg hi, step_eq_of_idle dbg (hidle.trans hi)]
    rfl
  | false =>
    cases hw : c.wordAt c.pc with
    | none =>
      rw [step_of_unfetchable dbg hi hw,
        step_of_unfetchable dbg (hidle.trans hi) (hword.trans hw)]
      rfl
    | some w =>
      have hexec := execute_aside (c := c.advance) dbg (fun _ _ _ _ => rfl) (h hi w hw)
      rw [step_of_word dbg hi hw, step_of_word dbg (hidle.trans hi) (hword.trans hw)]
      exact executeFetched_aside dbg c.pc hexec

end Cpu

end Chip8
