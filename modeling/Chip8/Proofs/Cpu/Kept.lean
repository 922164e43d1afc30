import Chip8.Proofs.Cpu.Fault

/-!
# What operations keep

`CpuOutcome.All P`: an operation leaves a processor behind of which `P` holds, however it ends. A
property that does not look at the run state and the number of instructions is kept by a step if
every operation keeps it from behind the fetch (`all_step`). One such property is what the table of
instructions is (`table_kept`).
-/

namespace Chip8

/-- What holds of the processor however the operation ends, also if it ends at a change of the
tone. -/
def CpuOutcome.All {α : Type} (P : Cpu → Prop) (o : CpuOutcome α) : Prop := P o.cpu ∧ P o.cpuAtTone

namespace CpuOutcome.All

variable {α : Type} {P : Cpu → Prop} {c : Cpu}

theorem done {answer : α} (h : P c) : (CpuOutcome.done answer c).All P := ⟨h, h⟩

theorem failed {e : Error} (h : P c) : (CpuOutcome.failed e c : CpuOutcome α).All P := ⟨h, h⟩

theorem and {Q : Cpu → Prop} {o : CpuOutcome α} (hp : o.All P) (hq : o.All Q) :
    o.All fun c => P c ∧ Q c :=
  ⟨⟨hp.1, hq.1⟩, hp.2, hq.2⟩

end CpuOutcome.All

namespace Cpu

variable {dbg : Debug.Printer} {P : Cpu → Prop} {c : Cpu}

theorem all_execute (h : P c) {word : Int} (hp : ∀ op, (c.perform dbg (.ofWord word) op).All P) :
    (c.execute dbg word).All P := by
  rw [execute_eq]
  split
  · exact ⟨h, h⟩
  split
  · exact hp _
  · rename_i m _
    cases m <;> exact ⟨h, h⟩
  · exact .failed h

theorem all_step (hs : ∀ c r n, P c → P { c with runState := r, executed := n }) (h : P c)
    (hp : ∀ word, c.wordAt c.pc = some word →
      P c.advance ∧ ∀ op, (c.advance.perform dbg (.ofWord word) op).All P) :
    (c.step dbg).All P := by
  rcases step_cases dbg c with
    ⟨d, result, runState, lines, hd, heq⟩ | ⟨word, lines, -, hw, heq⟩
  · have hp : P d := by
      rcases hd with rfl | ⟨rfl, hw⟩
      · exact h
      · obtain ⟨word, hw⟩ := Option.ne_none_iff_exists'.mp hw
        exact (hp word hw).1
    have hend : P { d with runState } := hs d runState d.executed hp
    rw [heq]
    exact ⟨hend, hend⟩
  · obtain ⟨ha, hop⟩ := hp word hw
    obtain ⟨hc, ht⟩ := all_execute ha hop
    rw [heq]
    exact ⟨hs _ _ _ hc, ht⟩

/-- A step, a tick and a change of a key that start where `P` holds end where `P` holds. -/
structure KeptBetweenResets (dbg : Debug.Printer) (P : Cpu → Prop) : Prop where
  step {c : Cpu} : P c → (c.step dbg).All P
  tick {c : Cpu} : P c → c.tick.All P
  setKey {c : Cpu} (index : Int) (pressed : Bool) : P c → (c.setKey dbg index pressed).All P

/-- Every operation of the processor that starts where `P` holds ends where `P` holds. -/
structure Kept (dbg : Debug.Printer) (P : Cpu → Prop) : Prop
    extends KeptBetweenResets dbg P where
  reset {c : Cpu} : P c → c.reset.All P

/-! ## The table stays -/

variable {t : InstructionTable}

theorem table_storeAtIndex (h : c.table = t) (data : List Int) :
    (c.storeAtIndex data).All (·.table = t) := by
  rw [storeAtIndex_eq]
  split <;> exact ⟨h, h⟩

theorem table_skipIf (h : c.table = t) (condition : Bool) : (c.skipIf condition).table = t := by
  unfold skipIf
  split <;> exact h

theorem table_prepareShift (h : c.table = t) (o : Operands) : (c.prepareShift o).table = t := by
  unfold prepareShift
  split <;> exact h

theorem table_fillRegisters (h : c.table = t) (bytes : List UInt8) :
    (c.fillRegisters bytes).table = t := by
  simp only [fillRegisters]
  exact h

theorem table_perform (h : c.table = t) (dbg : Debug.Printer) (o : Operands) (op : Operation) :
    (c.perform dbg o op).All (·.table = t) := by
  cases op with
  | ret =>
    rw [perform_ret]
    split <;> exact ⟨h, h⟩
  | call =>
    rw [perform_call]
    split <;> exact ⟨h, h⟩
  | draw | waitKey | addIndex =>
    simp only [perform]
    split <;> exact ⟨h, h⟩
  | loadRegisters =>
    simp only [perform]
    split
    · exact .failed h
    · exact .done (table_fillRegisters h _)
  | skipIfByte | skipUnlessByte | skipIfSame | skipUnlessSame | skipIfPressed
  | skipUnlessPressed => exact .done (table_skipIf h _)
  | shiftRight | shiftLeft | prepareShift => exact .done (table_prepareShift h o)
  | storeDecimal | storeRegisters => exact table_storeAtIndex h _
  | _ => exact ⟨h, h⟩

theorem table_create (memory : Memory) (display : FrameBuffer) (keypad : Keypad)
    (dialect : Dialect) (t : InstructionTable) (random : RandomSource) :
    (create memory display keypad dialect t random).table = t := rfl

theorem table_kept (dbg : Debug.Printer) (t : InstructionTable) : Kept dbg (·.table = t) where
  step {c} h := all_step (fun _ _ _ h => h) h fun _ _ =>
    have ha : c.advance.table = t := h
    ⟨ha, table_perform ha dbg _⟩
  tick h := ⟨h, h⟩
  reset h := ⟨h, h⟩
  setKey _ _ h := ⟨h, h⟩

end Cpu

end Chip8
