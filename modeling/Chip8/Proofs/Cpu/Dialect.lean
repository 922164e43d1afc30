import Chip8.Proofs.Cpu.Rewind

/-!
# Two dialects

The dialect decides which register a shift takes its operand from, and which one an indexed jump
adds. Where the two registers hold the same (`Cpu.SameOperand`), the operation does the same in
either dialect, and all other operations do so anyway (`perform_withDialect`). A step looks at the
dialect for nothing else (`step_withDialect`). So two processors that differ in the dialect alone
respond to the same events in the same way, as long as every shift and every indexed jump on the
way finds equal registers (`outcomes_withDialect`).
-/

namespace Chip8.Cpu

open Debug (Printer)

variable (dbg : Printer) {c : Cpu} {o : Operands} {op : Operation} {d : Dialect}

def withDialect (d : Dialect) (c : Cpu) : Cpu := { c with dialect := d }

theorem withDialect_self (h : c.dialect = d) : c.withDialect d = c := by
  subst h
  rfl

/-- The registers that an operation may take its operand from hold the same. -/
def SameOperand (c : Cpu) (o : Operands) : Operation → Prop
  | .shiftRight | .shiftLeft | .prepareShift => c.reg o.x = c.reg o.y
  | .jumpIndexed => c.reg o.x = c.reg jumpRegister
  | _ => True

/-! ## Operations -/

theorem setReg_reg_self (x : Fin 16) : c.setReg x (c.reg x) = c := by
  simp only [setReg, reg, Vector.set_getElem_self]

theorem prepareShift_of_same (h : c.reg o.x = c.reg o.y) : c.prepareShift o = c := by
  unfold prepareShift
  rw [← h, setReg_reg_self]
  split <;> rfl

theorem perform_withDialect (h : c.SameOperand o op) :
    (c.withDialect d).perform dbg o op = (c.perform dbg o op).mapCpu (withDialect d) := by
  cases op with
  | jumpIndexed =>
    have h : c.reg o.x = c.reg jumpRegister := h
    have hx : (c.withDialect d).reg o.x = c.reg o.x := rfl
    have h0 : (c.withDialect d).reg jumpRegister = c.reg jumpRegister := rfl
    simp only [perform, hx, h0, h]
    cases d <;> cases c.dialect <;> rfl
  | shiftRight | shiftLeft | prepareShift =>
    have hd : (c.withDialect d).reg o.x = (c.withDialect d).reg o.y := h
    simp only [perform, prepareShift_of_same h, prepareShift_of_same hd]
    rfl
  | _ =>
    exact perform_aside (a := { dialect := fun _ => d }) dbg (by simp [Operation.UsesDialect])
      (fun _ => rfl) fun _ => ⟨rfl, rfl⟩

/-! ## Steps -/

/-- A step finds an instruction that takes the same operand in both dialects, or none. -/
def SameInDialects (c : Cpu) : Prop :=
  c.idle = false → ∀ w, c.wordAt c.pc = some w → ∀ op : Operation, op.Fits w →
    c.SameOperand (.ofWord w) op

theorem step_withDialect (ht : c.table = .standard) (h : c.SameInDialects) :
    (c.withDialect d).step dbg = (c.step dbg).mapCpu (withDialect d) := by
  refine step_aside dbg (fun _ => d) id fun hi w hw i op hl hop => ?_
  obtain ⟨-, -, hlt⟩ := canFetch_of_wordAt hw
  have hfit : op.Fits w := InstructionTable.fits_of_handler hlt (ht ▸ hl) hop
  exact perform_withDialect dbg (h hi w hw op hfit)

/-! ## Runs -/

/-- How events in turn end. -/
def outcomes (dbg : Printer) : List Event → Cpu → List (CpuOutcome Unit)
  | [], _ => []
  | e :: events, c =>
    respond dbg (step dbg) e c :: outcomes dbg events (respond dbg (step dbg) e c).cpu

/-- Every step finds an instruction that takes the same operand in both dialects, or none. -/
def SameAlong (dbg : Printer) : List Event → Cpu → Prop
  | [], _ => True
  | e :: events, c =>
    (e = .step → c.SameInDialects) ∧ SameAlong dbg events (respond dbg (step dbg) e c).cpu

theorem respond_withDialect (ht : c.table = .standard) {e : Event}
    (h : e = .step → c.SameInDialects) :
    respond dbg (step dbg) e (c.withDialect d) =
      (respond dbg (step dbg) e c).mapCpu (withDialect d) := by
  cases e with
  | step =>
    show ((c.withDialect d).step dbg).map _ = _
    rw [step_withDialect dbg ht (h rfl)]
    rfl
  | key index pressed => rfl
  | tick => rfl
  | reset => rfl

theorem table_respond (ht : c.table = .standard) (e : Event) :
    (respond dbg (step dbg) e c).cpu.table = .standard := by
  have hk := table_kept dbg .standard
  cases e with
  | step => exact (hk.step ht).1
  | key index pressed => exact (hk.setKey index pressed ht).1
  | tick => exact (hk.tick ht).1
  | reset => exact (hk.reset ht).1

theorem outcomes_withDialect (ht : c.table = .standard) {events : List Event}
    (h : SameAlong dbg events c) :
    outcomes dbg events (c.withDialect d) =
      (outcomes dbg events c).map (·.mapCpu (withDialect d)) := by
  induction events generalizing c with
  | nil => rfl
  | cons e events ih =>
    obtain ⟨hstep, hrest⟩ := h
    have he := respond_withDialect (d := d) dbg ht hstep
    have hevents := ih (table_respond dbg ht e) hrest
    simp only [outcomes, List.map_cons, he]
    exact congrArg (_ :: ·) hevents

/-- Two processors that differ in the dialect alone respond to the same events in the same way, as
long as every shift and every indexed jump of the legacy one finds the same in both registers. -/
theorem outcomes_superChip (ht : c.table = .standard) {events : List Event}
    (h : SameAlong dbg events (c.withDialect .legacy)) :
    outcomes dbg events (c.withDialect .superChip) =
      (outcomes dbg events (c.withDialect .legacy)).map (·.mapCpu (withDialect .superChip)) :=
  outcomes_withDialect (c := c.withDialect .legacy) dbg ht h

theorem sameInDialects_of_zero (h : c.v = Vector.replicate 16 0) : c.SameInDialects := by
  intro _ w _ op _
  cases op <;> simp [SameOperand, reg, h]

/-- A processor whose program shifts a register and jumps. -/
def shifting : Cpu :=
  create (Memory.standard.overwrite programStart [0x81, 0x26, 0xB2, 0x00]) .standard .released
    .legacy .standard (.cycle [])

theorem outcomes_superChip_shifting :
    let events : List Event := [.step, .key 3 true, .step]
    shifting.table = .standard ∧ SameAlong .off events (shifting.withDialect .legacy) ∧
      outcomes .off events (shifting.withDialect .superChip) =
        (outcomes .off events (shifting.withDialect .legacy)).map
          (·.mapCpu (withDialect .superChip)) := by
  intro events
  have ht : shifting.table = .standard := table_create _ _ _ _ _ _
  have hlegacy : shifting.withDialect .legacy = shifting := withDialect_self rfl
  have hw : shifting.wordAt shifting.pc = some 0x8126 :=
    wordAt_of_program rfl (by decide) 0 rfl rfl (by decide)
  have hfit : Operation.shiftRight.Fits 0x8126 := by decide
  obtain ⟨-, -, hcpu⟩ := step_of_fits .off ht rfl hw hfit rfl
  have hv : (shifting.step .off).cpu.v = Vector.replicate 16 0 := by
    rw [hcpu]
    decide +kernel
  have hfirst : ∀ c : Cpu, (respond .off (step .off) .step c).cpu = (c.step .off).cpu :=
    fun _ => rfl
  have hkey : ∀ c : Cpu, (respond .off (step .off) (.key 3 true) c).cpu.v = c.v := fun _ => rfl
  have h : SameAlong .off events (shifting.withDialect .legacy) := by
    rw [hlegacy]
    exact ⟨fun _ => sameInDialects_of_zero rfl, nofun,
      fun _ => sameInDialects_of_zero (by rw [hkey, hfirst, hv]), trivial⟩
  exact ⟨ht, h, outcomes_superChip .off ht h⟩

end Chip8.Cpu
