import Chip8.Proofs.Debug.Spoken

/-!
# The lines of the processor

The processor speaks behind what it does. Its messages can be printed, so an instruction, a word and
a step are what they are without them, with the lines of the messages added.
-/

namespace Chip8.Cpu

variable (dbg : Debug.Printer)

/-- The lines that report a wait for a key. -/
def waitLines (c : Cpu) : List Debug.Line :=
  dbg.lines "cpu" "key wait pc=%04x register=V%X" [.own c.pc, c.reportedRegister]

theorem perform_ret (c : Cpu) (o : Operands) :
    c.perform dbg o .ret =
      match c.stack.pop with
      | .error e => .failed e c
      | .ok (pc, stack) =>
        { result := .ok (), cpu := { c with pc, stack }
          lines := dbg.lines "stack" "ret pc=%04x depth=%d" [.own pc, .own stack.depth] } := by
  simp only [perform]
  cases c.stack.pop with
  | error e => rfl
  | ok popped => exact CpuOutcome.saying_eq (.ret popped.1 popped.2.depth) dbg _

theorem perform_call (c : Cpu) (o : Operands) :
    c.perform dbg o .call =
      match c.stack.push c.pc with
      | .error e => .failed e c
      | .ok stack =>
        { result := .ok (), cpu := { c with pc := o.nnn, stack }
          lines := dbg.lines "stack" "call pc=%04x depth=%d" [.own o.nnn, .own stack.depth] } := by
  simp only [perform]
  cases c.stack.push c.pc with
  | error e => rfl
  | ok stack => exact CpuOutcome.saying_eq (.call o.nnn stack.depth) dbg _

theorem execute_eq (word : Int) (c : Cpu) :
    c.execute dbg word =
      match c.table.lookup word with
      | none =>
        { result := .ok (), cpu := c
          lines := dbg.lines "cpu" "unknown opcode=%04x pc=%04x" [.own word, .own (c.pc - 2)] }
      | some instruction =>
        match instruction.handler with
        | .operation op => c.perform dbg (.ofWord word) op
        | .member name m => c.useMember name m
        | .unknown name => .failed (.noHandler name) c := by
  unfold execute
  cases c.table.lookup word with
  | none => exact CpuOutcome.saying_eq (.unknownWord word (c.pc - 2)) dbg _
  | some instruction => rfl

theorem executeFetched_eq (address : Int) (word : Nat) (c : Cpu) :
    c.executeFetched dbg address word =
      { c.executeCounted dbg word with
        lines := dbg.lines "cpu" "pc=%04x opcode=%04x" [.own address, .own word] ++
          (c.executeCounted dbg word).lines } := by
  rw [executeFetched, Debug.Spoken.say (.fetched _ _) dbg]

theorem step_eq (c : Cpu) :
    c.step dbg =
      if c.halted then .done false c
      else if c.awaitingKey && !c.keypad.anyPressed then
        { result := .ok false, cpu := c, lines := c.waitLines dbg }
      else
        match c.fetch.result with
        | .error e => .failed e c.fetch.cpu
        | .ok word => c.fetch.cpu.executeFetched dbg c.pc word := by
  rw [step, CpuOutcome.saying_eq (.keyWait c) dbg]
  rfl

end Chip8.Cpu
