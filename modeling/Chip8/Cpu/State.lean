import Chip8.CallStack
import Chip8.Input.Keypad
import Chip8.Instruction.Standard
import Chip8.Memory
import Chip8.Random.Source
import Chip8.Timers
import Chip8.Video.FrameBuffer

/-!
# The state of the processor

Sixteen registers, the index, the program counter, the call stack and the timers, together with
what the instructions work on: memory, the picture, the keypad and the source of random bytes.
Registers, index and counter hold whole numbers; it is the instructions that keep them in range.
-/

namespace Chip8

/-- Whether the processor runs. -/
inductive RunState where
  | running
  /-- An instruction waits for a key. -/
  | awaitingKey
  /-- The processor has stopped for good. -/
  | halted
  deriving DecidableEq, Repr

/-- Which registers the shifts and the indexed jump use. -/
inductive Dialect where
  /-- Shifts take their operand from the second register, indexed jumps add the first one. -/
  | legacy
  /-- Shifts work in place, indexed jumps add the register named by their target. -/
  | superChip
  deriving DecidableEq, Repr

/-- The processor and all that it works on. -/
structure Cpu where
  memory : Memory
  display : FrameBuffer
  keypad : Keypad
  dialect : Dialect
  table : InstructionTable
  random : RandomSource
  v : Vector Int 16
  i : Int
  pc : Int
  stack : CallStack
  timers : Timers
  runState : RunState
  /-- The register that the awaited key goes to. -/
  waitRegister : Option (Fin 16)
  /-- The number of instructions executed. -/
  executed : Nat

/-- How an operation of the processor ended, and the changes of the tone that it caused. -/
structure CpuOutcome (α : Type) where
  result : Except Error α
  cpu : Cpu
  tones : List Bool := []
  /-- The processor when the tone changes, where the operation ends if whoever follows the tone
  fails. -/
  cpuAtTone : Cpu := cpu
  lines : List Debug.Line := []

namespace CpuOutcome

variable {α : Type}

def done (answer : α) (cpu : Cpu) : CpuOutcome α := { result := .ok answer, cpu }

def failed (error : Error) (cpu : Cpu) : CpuOutcome α := { result := .error error, cpu }

/-- The same end with another answer. -/
def map {β : Type} (f : α → β) (o : CpuOutcome α) : CpuOutcome β :=
  ⟨o.result.map f, o.cpu, o.tones, o.cpuAtTone, o.lines⟩

/-- The same end, followed by a message. One that cannot be printed is the end. -/
def saying (o : CpuOutcome α) (said : Except Error (List Debug.Line)) : CpuOutcome α :=
  match said with
  | .ok lines => { o with lines := o.lines ++ lines }
  | .error e => { o with result := .error e }

end CpuOutcome

namespace Cpu

def flagRegister : Fin 16 := Fin.last 15

/-- The register that indexed jumps of the legacy dialect add. -/
def jumpRegister : Fin 16 := ⟨0, by decide⟩

/-- A processor at the start of a program. -/
def create (memory : Memory) (display : FrameBuffer) (keypad : Keypad) (dialect : Dialect)
    (table : InstructionTable) (random : RandomSource) : Cpu :=
  { memory, display, keypad, dialect, table, random
    v := Vector.replicate 16 0
    i := 0
    pc := programStart
    stack := .standard
    timers := .zero
    runState := .running
    waitRegister := none
    executed := 0 }

/-- The value of a register. -/
def reg (c : Cpu) (x : Fin 16) : Int :=
  have h : x.val < 16 := x.isLt
  c.v[x.val]

/-- The processor with another value in a register. -/
def setReg (c : Cpu) (x : Fin 16) (value : Int) : Cpu := { c with v := c.v.set x.val value x.isLt }

/-- The value of the register of flags. -/
def flag (c : Cpu) : Int := c.reg flagRegister

/-- The processor with a flag set to one or zero. -/
def setFlag (c : Cpu) (on : Bool) : Cpu := c.setReg flagRegister (if on then 1 else 0)

def awaitingKey (c : Cpu) : Bool := c.runState = .awaitingKey

def halted (c : Cpu) : Bool := c.runState = .halted

/-- The processor with another sound timer. -/
def setSound (c : Cpu) (value : Int) : CpuOutcome Unit :=
  let (timers, crossing) := c.timers.setSound value
  { result := .ok (), cpu := { c with timers }, tones := Timers.events crossing }

/-- The timers go down. -/
def tick (c : Cpu) : CpuOutcome Unit :=
  let (timers, crossing) := c.timers.tick
  { result := .ok (), cpu := { c with timers }, tones := Timers.events crossing }

/-- Back to the start of the program. Memory, picture, keypad and random source stay. -/
def reset (c : Cpu) : CpuOutcome Unit :=
  let (timers, crossing) := c.timers.reset
  let cleared :=
    { c with
      v := Vector.replicate 16 0
      i := 0
      pc := programStart
      stack := c.stack.clear
      timers }
  { result := .ok ()
    cpu := { cleared with runState := .running, waitRegister := none, executed := 0 }
    tones := Timers.events crossing
    cpuAtTone := cleared }

/-- Changes a key of the keypad. -/
def setKey (dbg : Debug.Printer) (index : Int) (pressed : Bool) (c : Cpu) : CpuOutcome Unit :=
  let o := c.keypad.setKey dbg index pressed
  { result := o.result.map fun _ => (), cpu := { c with keypad := o.state }, lines := o.lines }

/-- Whether an instruction can be fetched from an address. -/
def canFetch (c : Cpu) (address : Int) : Bool := 0 ≤ address ∧ address < c.memory.size - 1

/-- The word at an address from which an instruction can be fetched. -/
def wordAt (c : Cpu) (address : Int) : Option Nat :=
  if c.canFetch address then (c.memory.load16 address).toOption else none

/-- The word before the program counter, where the last instruction was fetched. -/
def lastWord (c : Cpu) : Option Nat := c.wordAt (c.pc - 2)

/-- The word at the program counter and the mnemonic of its instruction. There is neither where
nothing can be fetched. -/
def upcoming (c : Cpu) : Except Error (Option Nat × String) :=
  if c.canFetch c.pc then
    match c.memory.load16 c.pc with
    | .error e => .error e
    | .ok word => .ok (some word, ((c.table.lookup word).map Instruction.mnemonic).getD "")
  else .ok (none, "")

end Cpu

end Chip8
