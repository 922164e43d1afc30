import Chip8.Cpu.Execute

/-!
# Steps

A step fetches the word at the program counter and carries it out. A processor that has halted, or
that waits for a key while none is down, stays as it is. A fetch from outside memory and a failed
memory access halt the processor.
-/

namespace Chip8

namespace Cpu

/-- Reads the word at the program counter, which moves on. -/
def fetch (c : Cpu) : CpuOutcome Nat :=
  if c.canFetch c.pc then
    match c.memory.load16 c.pc with
    | .error e => .failed e c
    | .ok word => .done word { c with pc := c.pc + 2 }
  else .failed (.counterOutside c.pc c.memory.size) { c with runState := .halted }

/-- The register that a wait for a key reports. -/
def reportedRegister (c : Cpu) : Text.Value :=
  match c.waitRegister with
  | some x => .own x.val
  | none => .absent

@[simp] theorem isWritable_reportedRegister (c : Cpu) : c.reportedRegister.isWritable = true := by
  unfold reportedRegister
  split <;> rfl

/-- Carries a word out and counts it. -/
def executeCounted (dbg : Debug.Printer) (word : Nat) (c : Cpu) : CpuOutcome Bool :=
  let o := c.execute dbg word
  match o.result with
  | .error e =>
    let cpu := if e.isMemory then { o.cpu with runState := .halted } else o.cpu
    { result := .error e, cpu, tones := o.tones, lines := o.lines }
  | .ok () =>
    { result := .ok true
      cpu := { o.cpu with executed := o.cpu.executed + 1 }
      tones := o.tones
      cpuAtTone := o.cpuAtTone
      lines := o.lines }

/-- Carries a word out that was fetched from `address`. -/
def executeFetched (dbg : Debug.Printer) (address : Int) (word : Nat) (c : Cpu) :
    CpuOutcome Bool :=
  match dbg.say "cpu" "pc=%04x opcode=%04x" [.own address, .own word] with
  | .error e => .failed e c
  | .ok lines =>
    let o := c.executeCounted dbg word
    { o with lines := lines ++ o.lines }

/-- Executes one instruction; false if there was none to execute. -/
def step (dbg : Debug.Printer) (c : Cpu) : CpuOutcome Bool :=
  if c.halted then .done false c
  else if c.awaitingKey && !c.keypad.anyPressed then
    (CpuOutcome.done false c).saying
      (dbg.say "cpu" "key wait pc=%04x register=V%X" [.own c.pc, c.reportedRegister])
  else
    let o := c.fetch
    match o.result with
    | .error e => .failed e o.cpu
    | .ok word => o.cpu.executeFetched dbg c.pc word

end Cpu

end Chip8
