import Chip8.Proofs.Cpu.Control
import Chip8.Proofs.Input.Keypad
import Chip8.Proofs.Machine.Runs

/-!
# When a step fails

With the standard instructions, and within the bounds of the processor, what goes wrong with a word
can be read off its digits (`wordFault_standard`): a call that finds the stack full, a return that
finds it empty, or a block of `span` cells that does not lie in memory. From this follows how a step
ends that finds the word (`step_result_of_word`, `step_result_iff_of_word`).

Both the bounds and the table are kept by every run (`WellFormed.kept`, `table_kept`), so that it
holds of every machine that has been built, wherever it gets to (`step_result_of_run`).
-/

namespace Chip8

open Debug (Printer)

namespace Cpu

variable {c : Cpu}

/-! ## Words that can fail -/

/-- The operations that can fail, with mask and value of their instructions. -/
def failing : List (Nat × Nat × Operation) :=
  [(0xFFFF, 0x00EE, .ret), (0xF000, 0x2000, .call), (0xF000, 0xD000, .draw),
    (0xF0FF, 0xF033, .storeDecimal), (0xF0FF, 0xF055, .storeRegisters),
    (0xF0FF, 0xF065, .loadRegisters)]

theorem fault_of_not_failing {o : Operands} {op : Operation}
    (h : op ∉ failing.map fun p => p.2.2) : c.fault o op = none := by
  cases op with
  | ret | call | draw | storeDecimal | storeRegisters | loadRegisters => simp [failing] at h
  | _ => rfl

theorem pattern?_of_failing : ∀ p ∈ failing, p.2.2.pattern? = some (p.1, p.2.1) := by decide

theorem wordFault_of_not_failing (ht : c.table = .standard) {w : Nat} (hw : w < 0x10000)
    (hn : ∀ p ∈ failing, w &&& p.1 ≠ p.2.1) : c.wordFault w = none := by
  unfold wordFault
  rw [ht]
  cases hl : InstructionTable.standard.lookup w with
  | none => rfl
  | some i =>
    obtain ⟨op, hop, hfit⟩ := InstructionTable.fits_of_lookup hw hl
    simp only [hop]
    refine fault_of_not_failing fun hfail => ?_
    obtain ⟨p, hp, rfl⟩ := List.mem_map.mp hfail
    exact hn p hp ((Operation.fits_iff (pattern?_of_failing p hp)).mp hfit)

/-! ## Conditions -/

/-- The word is a call and the stack is full. -/
def Overflows (c : Cpu) (w : Nat) : Prop := w / 0x1000 = 2 ∧ c.stack.depth = 16

/-- The word is a return and the stack is empty. -/
def Underflows (c : Cpu) (w : Nat) : Prop := w = 0x00EE ∧ c.stack.depth = 0

/-- The word draws rows, stores digits, or stores or loads registers that reach past memory. -/
def ReachesOut (c : Cpu) (w : Nat) : Prop :=
  w / 0x1000 = 0xD ∧ 0 < w % 0x10 ∧ 0x1000 < c.i + (w % 0x10 : Nat) ∨
    w / 0x1000 = 0xF ∧ w % 0x100 = 0x33 ∧ 0x1000 < c.i + 3 ∨
    w / 0x1000 = 0xF ∧ (w % 0x100 = 0x55 ∨ w % 0x100 = 0x65) ∧
      0x1000 < c.i + (w / 0x100 % 0x10 : Nat) + 1

theorem Overflows.exclusive {w : Nat} (h : c.Overflows w) :
    ¬ c.Underflows w ∧ ¬ c.ReachesOut w := by
  unfold Overflows at h
  unfold Underflows ReachesOut
  omega

theorem Underflows.not_reachesOut {w : Nat} (h : c.Underflows w) : ¬ c.ReachesOut w := by
  unfold Underflows at h
  unfold ReachesOut
  omega

instance (c : Cpu) (w : Nat) : Decidable (c.Overflows w) := inferInstanceAs (Decidable (_ ∧ _))

instance (c : Cpu) (w : Nat) : Decidable (c.Underflows w) := inferInstanceAs (Decidable (_ ∧ _))

instance (c : Cpu) (w : Nat) : Decidable (c.ReachesOut w) := inferInstanceAs (Decidable (_ ∨ _))

/-! ## Digits -/

/-- How many cells the instruction of a word reads or writes where the index points. -/
def span (w : Nat) : Nat :=
  if w / 0x1000 = 0xD then w % 0x10
  else if w / 0x1000 = 0xF ∧ w % 0x100 = 0x33 then 3
  else if w / 0x1000 = 0xF ∧ (w % 0x100 = 0x55 ∨ w % 0x100 = 0x65) then w / 0x100 % 0x10 + 1
  else 0

theorem spanFault_zero (m : Memory) (address : Int) : m.spanFault address 0 = none :=
  Memory.spanFault_eq_none_iff.mpr (.inl rfl)

theorem WellFormed.isFull_iff (h : c.WellFormed) : c.stack.isFull = true ↔ c.stack.depth = 16 := by
  have hc := h.capacity
  have hd := h.depth
  simp only [CallStack.isFull, decide_eq_true_eq]
  omega

theorem isEmpty_iff_depth (s : CallStack) : s.isEmpty = true ↔ s.depth = 0 := by
  simp [CallStack.isEmpty, CallStack.depth]

theorem WellFormed.reachesOut_iff (h : c.WellFormed) (w : Nat) :
    c.ReachesOut w ↔ ¬ c.memory.Holds c.i (span w) := by
  have hi := h.index
  rw [Memory.Holds, h.memory, ReachesOut, span]
  by_cases hdraw : w / 0x1000 = 0xD
  · rw [if_pos hdraw]
    omega
  rw [if_neg hdraw]
  by_cases hbcd : w / 0x1000 = 0xF ∧ w % 0x100 = 0x33
  · rw [if_pos hbcd]
    omega
  rw [if_neg hbcd]
  split <;> omega

/-- Apart from calls and returns, only an access to the cells of the span can fail. -/
theorem wordFault_of_access (ht : c.table = .standard) {w : Nat} (hw : w < 0x10000)
    (hcall : w / 0x1000 ≠ 2) (hret : w ≠ 0x00EE) :
    c.wordFault w = c.memory.spanFault c.i (span w) := by
  by_cases hdraw : w / 0x1000 = 0xD
  · have hf : Operation.draw.Fits w := by rw [Operation.fits_iff rfl, and_f000 hw, hdraw]
    rw [wordFault_of_fits ht hw hf, span, if_pos hdraw, fault, Operands.n_ofWord hw]
  by_cases hbcd : w / 0x1000 = 0xF ∧ w % 0x100 = 0x33
  · have hf : Operation.storeDecimal.Fits w := by
      rw [Operation.fits_iff rfl, and_f0ff hw, hbcd.1, hbcd.2]
    rw [wordFault_of_fits ht hw hf, span, if_neg hdraw, if_pos hbcd, fault]
  by_cases hregs : w / 0x1000 = 0xF ∧ (w % 0x100 = 0x55 ∨ w % 0x100 = 0x65)
  · have hspan : span w = w / 0x100 % 0x10 + 1 := by
      rw [span, if_neg hdraw, if_neg hbcd, if_pos hregs]
    rw [hspan, ← Operands.x_ofWord hw]
    rcases hregs with ⟨hhigh, hlow | hlow⟩
    · have hf : Operation.storeRegisters.Fits w := by
        rw [Operation.fits_iff rfl, and_f0ff hw, hhigh, hlow]
      rw [wordFault_of_fits ht hw hf, fault]
    · have hf : Operation.loadRegisters.Fits w := by
        rw [Operation.fits_iff rfl, and_f0ff hw, hhigh, hlow]
      rw [wordFault_of_fits ht hw hf, fault]
  · have hspan : span w = 0 := by rw [span, if_neg hdraw, if_neg hbcd, if_neg hregs]
    rw [hspan, spanFault_zero]
    refine wordFault_of_not_failing ht hw fun p hp => ?_
    simp only [failing, List.mem_cons, List.not_mem_nil, or_false] at hp
    rcases hp with rfl | rfl | rfl | rfl | rfl | rfl <;>
      simp only [and_f000 hw, and_f0ff hw, and_ffff hw] <;> omega

/-- What goes wrong with a word, in terms of its digits. -/
theorem wordFault_standard (h : c.WellFormed) (ht : c.table = .standard) {w : Nat}
    (hw : w < 0x10000) :
    c.wordFault w =
      if c.Overflows w then some (.stackOverflow c.pc 16)
      else if c.Underflows w then some .stackUnderflow
      else c.memory.spanFault c.i (span w) := by
  by_cases hcall : w / 0x1000 = 2
  · have hf : Operation.call.Fits w := by rw [Operation.fits_iff rfl, and_f000 hw, hcall]
    have hspan : span w = 0 := by simp [span, hcall]
    have hu : ¬ c.Underflows w := by
      unfold Underflows
      omega
    rw [wordFault_of_fits ht hw hf, hspan, spanFault_zero, if_neg hu]
    simp only [fault, h.isFull_iff, h.capacity, Overflows, hcall, true_and]
  rw [if_neg (fun ho : c.Overflows w => hcall ho.1)]
  by_cases hret : w = 0x00EE
  · have hf : Operation.ret.Fits w := (Operation.fits_iff rfl).mpr ((and_ffff hw).trans hret)
    have hspan : span w = 0 := by simp [span, hret]
    rw [wordFault_of_fits ht hw hf, hspan, spanFault_zero]
    simp only [fault, isEmpty_iff_depth, Underflows, hret, true_and]
  rw [if_neg (fun hu : c.Underflows w => hret hu.1)]
  exact wordFault_of_access ht hw hcall hret

/-! ## Steps -/

/-- How a step ends that finds the word `w` at the program counter. -/
theorem step_result_of_word (h : c.WellFormed) (ht : c.table = .standard) (dbg : Printer)
    (hi : c.idle = false) {w : Nat} (hw : c.wordAt c.pc = some w) :
    (c.step dbg).result =
      if c.Overflows w then .error (.stackOverflow (c.pc + 2) 16)
      else if c.Underflows w then .error .stackUnderflow
      else if c.ReachesOut w then .error (c.memory.spanError c.i (span w))
      else .ok true := by
  obtain ⟨-, -, hlt⟩ := canFetch_of_wordAt hw
  have hf := wordFault_standard (h.advance hw).1 ht hlt
  rw [step_result, hi, hw]
  simp only [hf, Bool.false_eq_true, if_false]
  -- The fetch changes nothing that the conditions look at.
  by_cases ho : c.Overflows w
  · rw [if_pos ho, if_pos (show c.advance.Overflows w from ho)]
    rfl
  rw [if_neg ho, if_neg (show ¬ c.advance.Overflows w from ho)]
  by_cases hu : c.Underflows w
  · rw [if_pos hu, if_pos (show c.advance.Underflows w from hu)]
  rw [if_neg hu, if_neg (show ¬ c.advance.Underflows w from hu)]
  have hspan : c.advance.memory.spanFault c.advance.i (span w) = c.memory.spanFault c.i (span w) :=
    rfl
  rw [hspan, Memory.spanFault]
  by_cases hx : c.ReachesOut w
  · rw [if_pos hx, if_neg ((h.reachesOut_iff w).mp hx)]
  · have hn := Decidable.not_not.mp (fun hn => hx ((h.reachesOut_iff w).mpr hn))
    rw [if_neg hx, if_pos hn]

/-- Which word fails in which way. -/
theorem step_result_iff_of_word (h : c.WellFormed) (ht : c.table = .standard) (dbg : Printer)
    (hi : c.idle = false) {w : Nat} (hw : c.wordAt c.pc = some w) :
    let r := (c.step dbg).result
    r ≠ .ok false ∧ (¬ ∃ pc limit, r = .error (.counterOutside pc limit)) ∧
      ((∃ address limit, r = .error (.stackOverflow address limit)) ↔ c.Overflows w) ∧
      (r = .error .stackUnderflow ↔ c.Underflows w) ∧
      ((∃ address size, r = .error (.addressOutside address size)) ↔ c.ReachesOut w) ∧
      (r = .ok true ↔ ¬ c.Overflows w ∧ ¬ c.Underflows w ∧ ¬ c.ReachesOut w) := by
  intro r
  have hr : r = _ := step_result_of_word h ht dbg hi hw
  rw [hr]
  by_cases ho : c.Overflows w
  · obtain ⟨hu, hx⟩ := ho.exclusive
    simp [ho, hu, hx]
  by_cases hu : c.Underflows w
  · have hx := hu.not_reachesOut
    simp [ho, hu, hx]
  by_cases hx : c.ReachesOut w
  · simp [ho, hu, hx, Memory.spanError]
  · simp [ho, hu, hx]

/-- There is nothing to execute. -/
theorem idle_iff : c.idle = true ↔
    c.runState = .halted ∨ c.runState = .awaitingKey ∧ ∀ key, c.keypad.isDown key = false := by
  simp [idle, halted, awaitingKey, Keypad.anyPressed_eq_false_iff]

theorem WellFormed.wordAt_eq_none_iff (h : c.WellFormed) :
    c.wordAt c.pc = none ↔ 0xFFE < c.pc := by
  have hp := h.counter
  have hm := h.memory
  rw [Cpu.wordAt_eq_none_iff, canFetch, decide_eq_false_iff_not]
  omega

end Cpu

/-- When a step of a machine that has been built fails, and with which error. -/
theorem Session.step_result_of_run {config : MachineConfig} {m : Machine}
    (hm : Machine.create config = .ok m) {F : Type} [Frontend F] (dbg : Printer) (frontend : F)
    (attached : Bool) (events : List (Event F)) :
    let c := (run dbg events ⟨m, frontend, attached⟩).machine.cpu
    let r := (c.step dbg).result
    (r = .ok false ↔ c.runState = .halted ∨
        c.runState = .awaitingKey ∧ ∀ key, c.keypad.isDown key = false) ∧
      (r ≠ .ok false →
        ((∃ pc limit, r = .error (.counterOutside pc limit)) ↔ 0xFFE < c.pc) ∧
          (c.pc ≤ 0xFFE → ∃ w, c.memory.load16 c.pc = .ok w ∧
            ((∃ address limit, r = .error (.stackOverflow address limit)) ↔ c.Overflows w) ∧
            (r = .error .stackUnderflow ↔ c.Underflows w) ∧
            ((∃ address size, r = .error (.addressOutside address size)) ↔ c.ReachesOut w) ∧
            (r = .ok true ↔
              ¬ c.Overflows w ∧ ¬ c.Underflows w ∧ ¬ c.ReachesOut w))) := by
  intro c r
  obtain ⟨⟨-, -, hl⟩, rfl⟩ := Machine.create_eq_ok_iff.mp hm
  have hw : c.WellFormed := (Cpu.WellFormed.kept dbg).run events (Machine.initial_wellFormed hl)
  have ht : c.table = .standard :=
    (Cpu.table_kept dbg .standard).run events (Machine.table_initial config)
  by_cases hi : c.idle = true
  · have hr : r = .ok false := (Cpu.step_result dbg c).trans (if_pos hi)
    exact ⟨iff_of_true hr (Cpu.idle_iff.mp hi), fun hne => absurd hr hne⟩
  have hni : ¬ (c.runState = .halted ∨
      c.runState = .awaitingKey ∧ ∀ key, c.keypad.isDown key = false) :=
    fun h => hi (Cpu.idle_iff.mpr h)
  rw [Bool.not_eq_true] at hi
  cases hword : c.wordAt c.pc with
  | none =>
    have hpc := hw.wordAt_eq_none_iff.mp hword
    have hr : r = .error (.counterOutside c.pc c.memory.size) := by
      show (c.step dbg).result = _
      rw [Cpu.step_of_unfetchable dbg hi hword]
      rfl
    rw [hr]
    refine ⟨iff_of_false (by simp) hni, fun _ => ⟨iff_of_true ⟨_, _, rfl⟩ hpc, fun hle => ?_⟩⟩
    omega
  | some w =>
    have hpc : ¬ 0xFFE < c.pc := fun hlt => by
      rw [hw.wordAt_eq_none_iff.mpr hlt] at hword
      cases hword
    obtain ⟨-, hload, -⟩ := Cpu.canFetch_of_wordAt hword
    obtain ⟨hne, hcounter, hiffs⟩ := Cpu.step_result_iff_of_word hw ht dbg hi hword
    exact ⟨iff_of_false hne hni, fun _ => ⟨iff_of_false hcounter hpc, fun _ => ⟨w, hload, hiffs⟩⟩⟩

theorem Session.step_result_of_run_beeping :
    ∃ m, Machine.create .beeping = .ok m ∧
      let c := (run .off [.step, .key 3 true, .tick, .frame]
        (⟨m, Headless.start, true⟩ : Session Headless)).machine.cpu
      ((c.step .off).result = .ok false ↔ c.runState = .halted ∨
        c.runState = .awaitingKey ∧ ∀ key, c.keypad.isDown key = false) := by
  have hm := Machine.create_eq_ok_iff.mpr
    ⟨⟨(by decide : 0 < MachineConfig.beeping.cyclesPerFrame), by decide, by decide⟩, rfl⟩
  exact ⟨_, hm, (step_result_of_run hm .off Headless.start true _).1⟩

end Chip8
