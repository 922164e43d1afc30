import Chip8.Proofs.Cpu.Fault

/-!
# Failed steps change nothing

`step_error_atomic`: a step that fails leaves everything as it was but the program counter and the
run state, and no change of the tone is heard. Where there is nothing to fetch the counter stays and
the processor halts; a failed access to memory halts it behind the instruction; a call or a return
that the stack refuses, and a handler that does not exist, leave it running behind the instruction.

Nothing is assumed of the processor: registers, index and counter are any whole numbers, memory and
stack of any size, and the table is any table.
-/

namespace Chip8.Cpu

variable {dbg : Debug.Printer} {c : Cpu} {e : Error}

theorem step_error_atomic (h : (c.step dbg).result = .error e) :
    (c.step dbg).tones = [] ∧
      (c.step dbg).cpu =
        { c with pc := (c.step dbg).cpu.pc, runState := (c.step dbg).cpu.runState } ∧
      (∀ pc limit, e = .counterOutside pc limit →
        (c.step dbg).cpu.pc = c.pc ∧ (c.step dbg).cpu.runState = .halted) ∧
      (e.isMemory = true →
        (c.step dbg).cpu.pc = c.pc + 2 ∧ (c.step dbg).cpu.runState = .halted) ∧
      ((∃ address capacity, e = .stackOverflow address capacity) ∨ e = .stackUnderflow ∨
          (∃ name, e = .noHandler name) →
        (c.step dbg).cpu.pc = c.pc + 2 ∧ (c.step dbg).cpu.runState = c.runState) := by
  rcases step_failed dbg h with ⟨rfl, hs⟩ | ⟨word, lines, hf, hs⟩
  · rw [hs]
    refine ⟨rfl, rfl, fun _ _ _ => ⟨rfl, rfl⟩, fun hm => ?_, fun ho => ?_⟩
    · cases hm
    · rcases ho with ⟨_, _, ho⟩ | ho | ⟨_, ho⟩ <;> cases ho
  · rw [hs]
    refine ⟨rfl, ?_, fun pc limit he => ?_, fun hm => ?_, fun ho => ?_⟩
    · by_cases hm : e.isMemory = true
      · simp only [if_pos hm, advance]
      · simp only [if_neg hm, advance]
    · subst he
      exact absurd hf wordFault_ne_counterOutside
    · rw [if_pos hm]
      exact ⟨rfl, rfl⟩
    · have hm : ¬ e.isMemory = true := by
        rcases ho with ⟨_, _, rfl⟩ | rfl | ⟨_, rfl⟩ <;> exact Bool.false_ne_true
      rw [if_neg hm]
      exact ⟨rfl, rfl⟩

/-- A processor on which every instruction stores three digits, and whose index leaves room for
two. -/
def decimalAtEnd : Cpu :=
  { create .standard .standard .released .legacy
      ⟨Vector.replicate wordCount (some (.mk 0 0 "LD" (.operation .storeDecimal)))⟩
      (.cycle []) with
    i := 0xFFE }

theorem lookup_decimalAtEnd (word : Int) :
    decimalAtEnd.table.lookup word =
      some (.mk 0 0 "LD" (.operation .storeDecimal)) := by
  simp [decimalAtEnd, create, InstructionTable.lookup]

theorem step_decimalAtEnd :
    (decimalAtEnd.step .off).result = .error (.addressOutside 0x1000 0x1000) := by
  have hsize : decimalAtEnd.memory.size = 0x1000 := Memory.size_standard
  have hfetch : decimalAtEnd.canFetch decimalAtEnd.pc = true := by
    rw [canFetch, hsize]
    rfl
  obtain ⟨word, -, hw, -⟩ := load16_of_canFetch hfetch
  have hf : decimalAtEnd.advance.wordFault word = some (.addressOutside 0x1000 0x1000) := by
    rw [wordFault, show decimalAtEnd.advance.table = decimalAtEnd.table from rfl,
      lookup_decimalAtEnd]
    show decimalAtEnd.memory.spanFault 0xFFE 3 = _
    simp [Memory.spanFault, Memory.Holds, Memory.spanError, hsize]
  rw [step_result, show decimalAtEnd.idle = false from rfl, hw]
  simp only [Bool.false_eq_true, if_false, hf]

theorem step_error_atomic_storeDecimal :
    (decimalAtEnd.step .off).result = .error (.addressOutside 0x1000 0x1000) ∧
      (decimalAtEnd.step .off).cpu =
        { decimalAtEnd with
          pc := (decimalAtEnd.step .off).cpu.pc
          runState := (decimalAtEnd.step .off).cpu.runState } ∧
      (decimalAtEnd.step .off).cpu.pc = 0x202 ∧
      (decimalAtEnd.step .off).cpu.runState = .halted :=
  have ⟨_, hc, _, hm, _⟩ := step_error_atomic step_decimalAtEnd
  ⟨step_decimalAtEnd, hc, hm rfl⟩

end Chip8.Cpu
