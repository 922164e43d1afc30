import Chip8.Proofs.Cpu.Aside
import Chip8.Proofs.Instruction.Decoding

/-!
# Control

The run state, the register that waits for a key and the number of executed instructions say where
a processor is, not what it works with. Only one operation looks at them or changes them: the one
that waits for a key. All others do the same from any of them (`perform_withControl`), and so does
every word of the standard table but those that wait (`execute_withControl`). Hence they leave
control as it is (`control_execute`).

A word that waits is `waitWord x`, where `x` is the register that the key goes to
(`InstructionTable.waits_standard_iff`).
-/

namespace Chip8

/-! ## Words that wait -/

/-- The word that waits for a key and puts it into a register. -/
def waitWord (x : Fin 16) : Nat := 0xF00A + 0x100 * x.val

theorem waitWord_lt (x : Fin 16) : waitWord x < 0x10000 := by
  have := x.isLt
  unfold waitWord
  omega

theorem Operands.x_waitWord (x : Fin 16) : (ofWord (waitWord x)).x = x := by
  apply Fin.ext
  rw [x_ofWord (waitWord_lt x)]
  have := x.isLt
  unfold waitWord
  omega

/-- The instruction of the word waits for a key. -/
def InstructionTable.waits (t : InstructionTable) (word : Int) : Bool :=
  (t.lookup word).map Instruction.handler = some (.operation .waitKey)

theorem InstructionTable.waits_iff {t : InstructionTable} {word : Int} :
    t.waits word = true ↔ ∃ i, t.lookup word = some i ∧ i.handler = .operation .waitKey := by
  simp only [waits, decide_eq_true_eq, Option.map_eq_some_iff]

theorem InstructionTable.waits_standard_iff {w : Nat} (hw : w < 0x10000) :
    standard.waits w = true ↔ w = waitWord (Operands.ofWord w).x := by
  have hdigits : Operation.waitKey.Fits w ↔ w = waitWord (Operands.ofWord w).x := by
    rw [Operation.fits_iff rfl, and_f0ff hw, waitWord, Operands.x_ofWord hw]
    omega
  rw [← hdigits, waits_iff]
  constructor
  · rintro ⟨i, hi, hop⟩
    exact fits_of_handler hw hi hop
  · exact lookup_of_fits hw

theorem InstructionTable.waits_waitWord (x : Fin 16) : standard.waits (waitWord x) = true := by
  rw [waits_standard_iff (waitWord_lt x), Operands.x_waitWord]

/-! ## Operations -/

namespace Cpu

variable (dbg : Debug.Printer) {c : Cpu} {o : Operands} {op : Operation}

def withControl (c : Cpu) (runState : RunState) (waitRegister : Option (Fin 16)) (executed : Nat) :
    Cpu :=
  { c with runState, waitRegister, executed }

variable {r : RunState} {w : Option (Fin 16)} {n : Nat}

/-- Control that is the same whatever it was before. -/
def fixedControl (r : RunState) (w : Option (Fin 16)) (n : Nat) : Aside where
  runState := fun _ => r
  waitRegister := fun _ => w
  executed := fun _ => n

/-- An operation that does not wait for a key takes no notice of control. -/
theorem perform_withControl (hop : op ≠ .waitKey) :
    (c.withControl r w n).perform dbg o op =
      (c.perform dbg o op).mapCpu fun d => d.withControl r w n :=
  perform_aside (a := fixedControl r w n) dbg (fun _ => rfl) (fun _ => rfl) fun h => absurd h hop

/-! ## Words -/

variable {word : Int}

theorem execute_of_operation {i : Instruction} (hi : c.table.lookup word = some i)
    (hop : i.handler = .operation op) :
    c.execute dbg word = c.perform dbg (.ofWord word) op := by
  simp only [execute_eq, hi, hop]

section
variable {w : Nat} (ht : c.table = .standard) (hlt : w < 0x10000) (hfit : op.Fits w)
include ht hlt hfit

theorem execute_of_fits : c.execute dbg w = c.perform dbg (.ofWord w) op := by
  obtain ⟨i, hi, hop⟩ := InstructionTable.lookup_of_fits hlt hfit
  exact execute_of_operation dbg (ht ▸ hi) hop

theorem wordFault_of_fits : c.wordFault w = c.fault (.ofWord w) op := by
  obtain ⟨i, hi, hop⟩ := InstructionTable.lookup_of_fits hlt hfit
  rw [wordFault, ht, hi]
  simp only [hop]

end

/-- A step that finds a word of an operation without a fault carries the operation out. -/
theorem step_of_fits {w : Nat} (ht : c.table = .standard) (hi : c.idle = false)
    (hw : c.wordAt c.pc = some w) (hfit : op.Fits w) (hf : c.advance.fault (.ofWord w) op = none) :
    let o := c.advance.perform dbg (.ofWord w) op
    (c.step dbg).result = .ok true ∧ (c.step dbg).tones = o.tones ∧
      (c.step dbg).cpu = { o.cpu with executed := o.cpu.executed + 1 } := by
  obtain ⟨-, -, hlt⟩ := canFetch_of_wordAt hw
  have hnone := (wordFault_of_fits (c := c.advance) ht hlt hfit).trans hf
  obtain ⟨lines, heq⟩ := executeFetched_of_no_fault dbg c.pc hnone
  rw [step_of_word dbg hi hw, heq, execute_of_fits dbg (c := c.advance) ht hlt hfit]
  exact ⟨rfl, rfl, rfl⟩

/-- A standard word that does not wait for a key takes no notice of control. -/
theorem execute_withControl (ht : c.table = .standard) (hw : c.table.waits word = false) :
    (c.withControl r w n).execute dbg word =
      (c.execute dbg word).mapCpu fun d => d.withControl r w n := by
  refine execute_aside (a := fixedControl r w n) dbg (fun i name hi hh => ?_)
    fun i op hi hh => perform_withControl dbg ?_
  · obtain ⟨op, hop⟩ := standard_operation (InstructionTable.lookup_standard.mp (ht ▸ hi)).1
    rw [hh] at hop
    cases hop
  · rintro rfl
    simp [InstructionTable.waits, hi, hh] at hw

theorem control_execute (ht : c.table = .standard) (hw : c.table.waits word = false) :
    (c.execute dbg word).All fun d =>
      d.runState = c.runState ∧ d.waitRegister = c.waitRegister ∧ d.executed = c.executed := by
  have h := execute_withControl dbg (r := c.runState) (w := c.waitRegister) (n := c.executed) ht hw
  have hc : c.withControl c.runState c.waitRegister c.executed = c := rfl
  rw [hc] at h
  rw [h]
  exact ⟨⟨rfl, rfl, rfl⟩, rfl, rfl, rfl⟩

/-- A word that does not wait for a key leaves control alone, or halts the processor. -/
theorem control_executeFetched (ht : c.table = .standard) {word : Nat}
    (hw : c.table.waits word = false) (address : Int) :
    (c.executeFetched dbg address word).All fun d =>
      d.waitRegister = c.waitRegister ∧ (d.runState = c.runState ∨ d.runState = .halted) := by
  cases hf : c.wordFault word with
  | some e =>
    obtain ⟨lines, heq⟩ := executeFetched_of_fault dbg address hf
    rw [heq]
    by_cases hm : e.isMemory = true
    · simp only [if_pos hm]
      exact ⟨⟨rfl, .inr rfl⟩, rfl, .inr rfl⟩
    · simp only [if_neg hm]
      exact ⟨⟨rfl, .inl rfl⟩, rfl, .inl rfl⟩
  | none =>
    obtain ⟨lines, heq⟩ := executeFetched_of_no_fault dbg address hf
    obtain ⟨⟨hs, hr, -⟩, hs', hr', -⟩ := control_execute dbg ht hw
    rw [heq]
    exact ⟨⟨hr, .inl hs⟩, hr', .inl hs'⟩

theorem fits_waitWord (x : Fin 16) : Operation.waitKey.Fits (waitWord x) := by
  have := x.isLt
  rw [Operation.fits_iff rfl, and_f0ff (waitWord_lt x), waitWord]
  omega

/-- What the word that waits for a key does: it goes back to itself until a key is down. -/
theorem execute_waitWord (ht : c.table = .standard) (x : Fin 16) :
    c.execute dbg (waitWord x) =
      match c.keypad.firstPressed with
      | none =>
        .done () { c with pc := c.pc - 2, runState := .awaitingKey, waitRegister := some x }
      | some key =>
        .done () { c.setReg x key.val with runState := .running, waitRegister := none } := by
  rw [execute_of_fits dbg ht (waitWord_lt x) (fits_waitWord x)]
  cases hk : c.keypad.firstPressed with
  | none => simp only [perform, hk, Operands.x_waitWord]
  | some key => simp only [perform, hk, Operands.x_waitWord]

theorem wordFault_waitWord (ht : c.table = .standard) (x : Fin 16) :
    c.wordFault (waitWord x) = none :=
  wordFault_of_fits ht (waitWord_lt x) (fits_waitWord x)

end Cpu

end Chip8
