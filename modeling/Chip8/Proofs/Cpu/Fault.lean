import Chip8.Proofs.Cpu.Lines
import Chip8.Proofs.Memory.Spans

/-!
# Failing instructions

What goes wrong with an operation (`fault`), with the instruction of a word (`wordFault`) and so
with a step is known before it is carried out. An operation with a fault ends with it and changes
nothing (`perform_of_fault`); any other one succeeds (`perform_of_no_fault`). The same holds of
words (`execute_of_fault`, `execute_of_no_fault`), and a step is one of three things: it is idle,
there is nothing to fetch, or it carries out the word at the program counter (`step_of_idle`,
`step_of_unfetchable`, `step_of_word`). To what it leaves behind only a word that succeeds matters
(`step_cases`).

Hence a step that fails moves the program counter at most and halts the processor at most
(`step_failed`).
-/

namespace Chip8.Cpu

variable (dbg : Debug.Printer) {c : Cpu} {o : Operands} {op : Operation} {e : Error}

/-! ## Operations -/

/-- What goes wrong with an operation, if anything does. -/
def fault (c : Cpu) (o : Operands) : Operation → Option Error
  | .ret => if c.stack.isEmpty then some .stackUnderflow else none
  | .call => if c.stack.isFull then some (.stackOverflow c.pc c.stack.capacity) else none
  | .draw => c.memory.spanFault c.i o.n
  | .storeDecimal => c.memory.spanFault c.i 3
  | .storeRegisters | .loadRegisters => c.memory.spanFault c.i (o.x.val + 1)
  | _ => none

theorem storeAtIndex_eq (c : Cpu) (data : List Int) :
    c.storeAtIndex data =
      match c.memory.spanFault c.i data.length with
      | some e => .failed e c
      | none => .done () { c with memory := c.memory.overwrite c.i.toNat (data.map toCell) } := by
  unfold storeAtIndex Memory.spanFault
  rw [Memory.writeBlock_eq]
  by_cases h : c.memory.Holds c.i data.length
  · simp only [if_pos h]
  · simp only [if_neg h]

theorem length_stored (c : Cpu) (x : Fin 16) :
    (c.v.toList.take (x.val + 1)).length = x.val + 1 := by
  have := x.isLt
  simp only [List.length_take, Vector.length_toList]
  omega

/-- An operation with a fault ends with it and changes nothing. -/
theorem perform_of_fault (h : c.fault o op = some e) : c.perform dbg o op = .failed e c := by
  cases op with
  | ret =>
    simp only [fault, CallStack.isEmpty, List.isEmpty_iff] at h
    split at h
    · rename_i hs
      cases h
      simp only [perform, CallStack.pop, hs]
    · cases h
  | call =>
    simp only [fault] at h
    split at h
    · rename_i hs
      cases h
      simp only [perform_call, CallStack.push, hs, if_true]
    · cases h
  | draw =>
    simp only [fault, Memory.spanFault] at h
    split at h
    · cases h
    · rename_i hs
      cases h
      simp only [perform, Memory.readBlock_eq, if_neg hs]
  | storeDecimal =>
    have h : c.memory.spanFault c.i (decimalDigits (c.reg o.x)).length = some e := h
    simp only [perform, storeAtIndex_eq, h]
  | storeRegisters =>
    simp only [fault] at h
    simp only [perform, storeAtIndex_eq, length_stored, h]
  | loadRegisters =>
    simp only [fault, Memory.spanFault] at h
    split at h
    · cases h
    · rename_i hs
      cases h
      simp only [perform, Memory.readBlock_eq, if_neg hs]
  | _ => cases h

/-- An operation without a fault succeeds. -/
theorem perform_of_no_fault (h : c.fault o op = none) :
    (c.perform dbg o op).result = .ok () := by
  cases op with
  | ret =>
    simp only [fault, CallStack.isEmpty, List.isEmpty_iff] at h
    split at h
    · cases h
    · rename_i hs
      obtain ⟨address, rest, hr⟩ := List.exists_cons_of_ne_nil hs
      simp only [perform_ret, CallStack.pop, hr]
  | call =>
    simp only [fault] at h
    split at h
    · cases h
    · rename_i hs
      simp only [perform_call, CallStack.push, if_neg hs]
  | draw =>
    have hs := Memory.spanFault_eq_none_iff.mp h
    simp only [perform, Memory.readBlock_eq, if_pos hs]
    rfl
  | waitKey =>
    simp only [perform]
    split <;> rfl
  | storeDecimal =>
    have h : c.memory.spanFault c.i (decimalDigits (c.reg o.x)).length = none := h
    simp only [perform, storeAtIndex_eq, h]
    rfl
  | storeRegisters =>
    simp only [fault] at h
    simp only [perform, storeAtIndex_eq, length_stored, h]
    rfl
  | loadRegisters =>
    have hs := Memory.spanFault_eq_none_iff.mp h
    simp only [perform, Memory.readBlock_eq, if_pos hs]
    rfl
  | _ => rfl

/-! ## Words -/

/-- What goes wrong with a member that is given operands, if anything does. -/
def memberFault (c : Cpu) (name : String) : Member → Option Error
  | .passive => none
  | .refuses why => some (.refused why)
  | .waitRegister =>
    some (if c.waitRegister.isSome then .refused (.idle "int") else .noHandler name)

/-- What goes wrong with the instruction of a word, if anything does. -/
def wordFault (c : Cpu) (word : Int) : Option Error :=
  match c.table.lookup word with
  | none => none
  | some instruction =>
    match instruction.handler with
    | .operation op => c.fault (.ofWord word) op
    | .member name m => c.memberFault name m
    | .unknown name => some (.noHandler name)

theorem execute_of_fault {word : Int} (h : c.wordFault word = some e) :
    c.execute dbg word = .failed e c := by
  unfold wordFault at h
  unfold execute
  cases hi : c.table.lookup word with
  | none =>
    rw [hi] at h
    cases h
  | some instruction =>
    cases hh : instruction.handler with
    | operation op =>
      simp only [hi, hh] at h ⊢
      exact perform_of_fault dbg h
    | member name m =>
      simp only [hi, hh] at h ⊢
      cases m <;> cases h <;> rfl
    | unknown name =>
      simp only [hi, hh] at h ⊢
      cases h
      rfl

theorem execute_of_no_fault {word : Int} (h : c.wordFault word = none) :
    (c.execute dbg word).result = .ok () := by
  unfold wordFault at h
  rw [execute_eq]
  cases hi : c.table.lookup word with
  | none => rfl
  | some instruction =>
    cases hh : instruction.handler with
    | operation op =>
      simp only [hi, hh] at h ⊢
      exact perform_of_no_fault dbg h
    | member name m =>
      simp only [hi, hh] at h ⊢
      cases m with
      | passive => rfl
      | refuses why => cases h
      | waitRegister => cases h
    | unknown name =>
      simp only [hi, hh] at h
      cases h

/-- What may go wrong with an instruction that was fetched. -/
def mayFault : Error → Bool
  | .addressOutside _ _ | .stackOverflow _ _ | .stackUnderflow | .noHandler _ | .refused _ => true
  | _ => false

theorem mayFault_of_fault (h : c.fault o op = some e) : mayFault e = true := by
  cases op <;> simp only [fault, Memory.spanFault, Memory.spanError] at h
  all_goals first
    | (split at h <;> cases h; rfl)
    | cases h

theorem mayFault_of_wordFault {word : Int} (h : c.wordFault word = some e) :
    mayFault e = true := by
  unfold wordFault at h
  split at h
  · cases h
  split at h
  · exact mayFault_of_fault h
  · rename_i name m _
    cases m with
    | passive => cases h
    | refuses why =>
      cases h
      rfl
    | waitRegister =>
      simp only [memberFault, Option.some.injEq] at h
      split at h <;> cases h <;> rfl
  · cases h
    rfl

/-- Only fetching fails because of the program counter. -/
theorem wordFault_ne_counterOutside {word pc : Int} {limit : Nat} :
    c.wordFault word ≠ some (.counterOutside pc limit) :=
  fun h => Bool.noConfusion (mayFault_of_wordFault h)

/-! ## Steps -/

/-- There is nothing to execute: the processor has halted, or waits for a key while none is down. -/
def idle (c : Cpu) : Bool := c.halted || c.awaitingKey && !c.keypad.anyPressed

/-- The processor behind the instruction that it fetches. -/
def advance (c : Cpu) : Cpu := { c with pc := c.pc + 2 }

/-- Wherever an instruction can be fetched there is a word of sixteen bits. -/
theorem load16_of_canFetch {address : Int} (h : c.canFetch address = true) :
    ∃ word, c.memory.load16 address = .ok word ∧ c.wordAt address = some word ∧
      word < 0x10000 := by
  have hb : 0 ≤ address ∧ address < c.memory.size - 1 := by simpa [canFetch] using h
  obtain ⟨word, hw, hlt⟩ := Memory.load16_eq_ok hb.1 hb.2
  refine ⟨word, hw, ?_, hlt⟩
  rw [wordAt, if_pos h, hw]
  rfl

theorem canFetch_of_wordAt {address : Int} {word : Nat} (h : c.wordAt address = some word) :
    c.canFetch address = true ∧ c.memory.load16 address = .ok word ∧ word < 0x10000 := by
  unfold wordAt at h
  split at h
  · rename_i hf
    obtain ⟨w, hl, -, hlt⟩ := load16_of_canFetch hf
    rw [hl] at h
    cases h
    exact ⟨hf, hl, hlt⟩
  · cases h

/-- A word of a program, at its offset from the start of programs. -/
theorem wordAt_of_program {program : List UInt8}
    (hm : c.memory = Memory.standard.overwrite programStart program)
    (hfits : program.length ≤ maxProgramSize) (k : Nat) {high low : UInt8} {word : Nat}
    (hh : program[k]? = some high) (hl : program[k + 1]? = some low)
    (hw : high.toNat * 256 + low.toNat = word) :
    c.wordAt (programStart + k : Nat) = some word := by
  obtain ⟨hk, -⟩ := List.getElem?_eq_some_iff.mp hl
  have hroom := Memory.room_standard hfits
  have hsize : c.memory.size = 0x1000 := by
    rw [hm, Memory.size_overwrite hroom, Memory.size_standard]
  have hfetch : c.canFetch (programStart + k : Nat) = true := by
    simp only [canFetch, hsize, decide_eq_true_eq]
    rw [Memory.size_standard] at hroom
    omega
  rw [wordAt, if_pos hfetch, hm, Memory.load16_overwrite hroom hh hl, hw]
  rfl

theorem wordAt_eq_none_iff {address : Int} :
    c.wordAt address = none ↔ c.canFetch address = false := by
  constructor
  · intro h
    cases hf : c.canFetch address with
    | false => rfl
    | true =>
      obtain ⟨w, -, hw, -⟩ := load16_of_canFetch hf
      rw [h] at hw
      cases hw
  · intro h
    rw [wordAt, h]
    rfl

theorem step_eq_of_idle (h : c.idle = true) :
    c.step dbg =
      { result := .ok false, cpu := c, lines := if c.halted then [] else c.waitLines dbg } := by
  rw [step_eq]
  cases hh : c.halted with
  | true => rfl
  | false =>
    rw [idle, hh, Bool.false_or] at h
    rw [if_pos h]
    rfl

theorem step_of_idle (h : c.idle = true) :
    ∃ lines, c.step dbg = { result := .ok false, cpu := c, lines } :=
  ⟨_, step_eq_of_idle dbg h⟩

theorem step_of_not_idle (h : c.idle = false) :
    c.step dbg =
      match c.fetch.result with
      | .error e => .failed e c.fetch.cpu
      | .ok word => c.fetch.cpu.executeFetched dbg c.pc word := by
  rw [idle, Bool.or_eq_false_iff] at h
  have hh : ¬ c.halted = true := Bool.eq_false_iff.mp h.1
  have hw : ¬ (c.awaitingKey && !c.keypad.anyPressed) = true := Bool.eq_false_iff.mp h.2
  exact (if_neg hh).trans (if_neg hw)

theorem step_of_unfetchable (h : c.idle = false) (hw : c.wordAt c.pc = none) :
    c.step dbg =
      .failed (.counterOutside c.pc c.memory.size) { c with runState := .halted } := by
  rw [step_of_not_idle dbg h, fetch, wordAt_eq_none_iff.mp hw]
  rfl

theorem step_of_word {word : Nat} (h : c.idle = false) (hw : c.wordAt c.pc = some word) :
    c.step dbg = c.advance.executeFetched dbg c.pc word := by
  obtain ⟨hf, hl, -⟩ := canFetch_of_wordAt hw
  rw [step_of_not_idle dbg h, fetch, if_pos hf, hl]
  rfl

/-- A fetched word with a fault ends with it; a failed access to memory halts the processor. -/
theorem executeFetched_of_fault (address : Int) {word : Nat} (h : c.wordFault word = some e) :
    ∃ lines, c.executeFetched dbg address word =
      { result := .error e, cpu := if e.isMemory then { c with runState := .halted } else c,
        lines } := by
  rw [executeFetched_eq, executeCounted, execute_of_fault dbg h]
  exact ⟨_, rfl⟩

/-- A fetched word without a fault is carried out and counted. -/
theorem executeFetched_of_no_fault (address : Int) {word : Nat} (h : c.wordFault word = none) :
    ∃ lines, c.executeFetched dbg address word =
      { result := .ok true
        cpu := { (c.execute dbg word).cpu with executed := (c.execute dbg word).cpu.executed + 1 }
        tones := (c.execute dbg word).tones
        cpuAtTone := (c.execute dbg word).cpuAtTone
        lines } := by
  have hr := execute_of_no_fault dbg h
  rw [executeFetched_eq, executeCounted]
  simp only [hr]
  exact ⟨_, rfl⟩

/-- What a step does: it carries out the word that it fetched, without a fault, or it gets no
further than the fetch and changes the run state at most. -/
theorem step_cases (c : Cpu) :
    (∃ d result runState lines, (d = c ∨ d = c.advance ∧ c.wordAt c.pc ≠ none) ∧
        c.step dbg = { result, cpu := { d with runState }, lines }) ∨
      ∃ word lines, c.idle = false ∧ c.wordAt c.pc = some word ∧
        c.step dbg =
          { result := .ok true
            cpu :=
              { (c.advance.execute dbg word).cpu with
                executed := (c.advance.execute dbg word).cpu.executed + 1 }
            tones := (c.advance.execute dbg word).tones
            cpuAtTone := (c.advance.execute dbg word).cpuAtTone
            lines } := by
  by_cases hi : c.idle = true
  · obtain ⟨lines, hs⟩ := step_of_idle dbg hi
    exact .inl ⟨c, _, c.runState, lines, .inl rfl, hs⟩
  rw [Bool.not_eq_true] at hi
  cases hw : c.wordAt c.pc with
  | none => exact .inl ⟨c, _, .halted, [], .inl rfl, step_of_unfetchable dbg hi hw⟩
  | some word =>
    rw [step_of_word dbg hi hw]
    cases hf : c.advance.wordFault word with
    | some e =>
      obtain ⟨lines, hs⟩ := executeFetched_of_fault dbg c.pc hf
      refine .inl ⟨c.advance, .error e, if e.isMemory then .halted else c.runState, lines,
        .inr ⟨rfl, nofun⟩, hs.trans ?_⟩
      split <;> rfl
    | none =>
      obtain ⟨lines, hs⟩ := executeFetched_of_no_fault dbg c.pc hf
      exact .inr ⟨word, lines, hi, rfl, hs⟩

theorem executeFetched_result (c : Cpu) (address : Int) (word : Nat) :
    (c.executeFetched dbg address word).result =
      match c.wordFault word with
      | some e => .error e
      | none => .ok true := by
  cases h : c.wordFault word with
  | some e =>
    obtain ⟨lines, hs⟩ := executeFetched_of_fault dbg address h
    rw [hs]
  | none =>
    obtain ⟨lines, hs⟩ := executeFetched_of_no_fault dbg address h
    rw [hs]

/-- How a step ends. -/
theorem step_result (c : Cpu) :
    (c.step dbg).result =
      if c.idle then .ok false
      else match c.wordAt c.pc with
        | none => .error (.counterOutside c.pc c.memory.size)
        | some word =>
          match c.advance.wordFault word with
          | some e => .error e
          | none => .ok true := by
  by_cases hi : c.idle = true
  · obtain ⟨lines, hs⟩ := step_of_idle dbg hi
    rw [hs, if_pos hi]
  rw [if_neg hi]
  rw [Bool.not_eq_true] at hi
  cases hw : c.wordAt c.pc with
  | none =>
    rw [step_of_unfetchable dbg hi hw]
    rfl
  | some word =>
    rw [step_of_word dbg hi hw]
    exact executeFetched_result dbg _ _ _

theorem idle_iff_step_false (c : Cpu) : c.idle = true ↔ (c.step dbg).result = .ok false := by
  constructor
  · intro h
    obtain ⟨lines, hs⟩ := step_of_idle dbg h
    rw [hs]
  · intro h
    rw [← Bool.not_eq_false]
    intro hi
    rw [step_result, hi] at h
    cases hw : c.wordAt c.pc with
    | none => simp [hw] at h
    | some word =>
      cases hf : c.advance.wordFault word <;> simp [hw, hf] at h

/-- What a step has found that executed an instruction. -/
theorem of_step_ok_true (h : (c.step dbg).result = .ok true) :
    c.idle = false ∧ ∃ w, c.wordAt c.pc = some w ∧ c.advance.wordFault w = none := by
  rw [step_result] at h
  cases hi : c.idle with
  | true => simp [hi] at h
  | false =>
    refine ⟨rfl, ?_⟩
    cases hw : c.wordAt c.pc with
    | none => simp [hi, hw] at h
    | some w =>
      refine ⟨w, rfl, ?_⟩
      cases hf : c.advance.wordFault w with
      | none => rfl
      | some e => simp [hi, hw, hf] at h

/-- The two ways in which a step fails: there is nothing to fetch, or the word that was fetched has
a fault. -/
theorem step_failed (h : (c.step dbg).result = .error e) :
    e = .counterOutside c.pc c.memory.size ∧
        c.step dbg = .failed e { c with runState := .halted } ∨
      ∃ word lines, c.advance.wordFault word = some e ∧
        c.step dbg =
          { result := .error e
            cpu := if e.isMemory then { c.advance with runState := .halted } else c.advance
            lines } := by
  have hr := step_result dbg c
  rw [h] at hr
  by_cases hi : c.idle = true
  · rw [if_pos hi] at hr
    cases hr
  rw [if_neg hi] at hr
  rw [Bool.not_eq_true] at hi
  cases hw : c.wordAt c.pc with
  | none =>
    simp only [hw, Except.error.injEq] at hr
    subst hr
    exact .inl ⟨rfl, step_of_unfetchable dbg hi hw⟩
  | some word =>
    simp only [hw] at hr
    cases hf : c.advance.wordFault word with
    | none =>
      simp only [hf] at hr
      cases hr
    | some e' =>
      simp only [hf, Except.error.injEq] at hr
      subst hr
      obtain ⟨lines, hs⟩ := executeFetched_of_fault dbg c.pc hf
      exact .inr ⟨word, lines, hf, (step_of_word dbg hi hw).trans hs⟩

end Chip8.Cpu
