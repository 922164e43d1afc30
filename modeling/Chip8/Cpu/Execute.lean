import Chip8.Cpu.State

/-!
# Instructions at work

What each operation does with the operands of its word. Operations that can fail look before they
write, so that a failed one leaves the processor as it found it.
-/

namespace Chip8

namespace Cpu

/-- The next instruction is passed over. -/
def skip (c : Cpu) : Cpu := { c with pc := c.pc + 2 }

/-- The next instruction is passed over on a condition. -/
def skipIf (c : Cpu) (condition : Bool) : Cpu := if condition then c.skip else c

/-- The difference of two bytes, and whether it needed no borrow. -/
def subtractBytes (a b : Int) : Int × Bool :=
  (lowByte ((lowByte a : Int) - lowByte b), lowByte b ≤ lowByte a)

/-- The processor before a shift: the legacy dialect copies the operand first. -/
def prepareShift (c : Cpu) (o : Operands) : Cpu :=
  match c.dialect with
  | .legacy => c.setReg o.x (c.reg o.y)
  | .superChip => c

/-- The processor after a shift of the operand `value` with the given result and flag. -/
def shifted (c : Cpu) (o : Operands) (result : Int) (out : Bool) : Cpu :=
  (c.setReg o.x (lowByte result)).setFlag out

/-- The processor with the first registers taken from a list of bytes. -/
def fillRegisters (c : Cpu) (bytes : List UInt8) : Cpu :=
  { c with
    v := Vector.ofFn fun x =>
      match bytes[x.val]? with
      | some b => b.toNat
      | none => c.reg x }

/-- The digits of a number in base ten, of which the first one takes all that is left. -/
def decimalDigits (value : Int) : List Int := [value / 100, value / 10 % 10, value % 10]

/-- Puts data into memory where the index points. -/
def storeAtIndex (c : Cpu) (data : List Int) : CpuOutcome Unit :=
  match c.memory.writeBlock c.i data with
  | (.error e, memory) => .failed e { c with memory }
  | (.ok (), memory) => .done () { c with memory }

/-- Carries an operation out. -/
def perform (dbg : Debug.Printer) (c : Cpu) (o : Operands) : Operation → CpuOutcome Unit
  | .clearScreen => .done () { c with display := c.display.clear }
  | .ret =>
    match c.stack.pop with
    | .error e => .failed e c
    | .ok (pc, stack) =>
      (CpuOutcome.done () { c with pc, stack }).saying
        (dbg.say "stack" "ret pc=%04x depth=%d" [.own pc, .own stack.depth])
  | .jump => .done () { c with pc := o.nnn }
  | .call =>
    match c.stack.push c.pc with
    | .error e => .failed e c
    | .ok stack =>
      (CpuOutcome.done () { c with pc := o.nnn, stack }).saying
        (dbg.say "stack" "call pc=%04x depth=%d" [.own o.nnn, .own stack.depth])
  | .jumpIndexed =>
    let base :=
      match c.dialect with
      | .legacy => c.reg jumpRegister
      | .superChip => c.reg o.x
    .done () { c with pc := base + o.nnn }
  | .skipIfByte => .done () (c.skipIf (c.reg o.x = o.nn))
  | .skipUnlessByte => .done () (c.skipIf (c.reg o.x ≠ o.nn))
  | .skipIfSame => .done () (c.skipIf (c.reg o.x = c.reg o.y))
  | .skipUnlessSame => .done () (c.skipIf (c.reg o.x ≠ c.reg o.y))
  | .setByte => .done () (c.setReg o.x o.nn)
  | .addByte => .done () (c.setReg o.x (lowByte (c.reg o.x + o.nn)))
  | .copy => .done () (c.setReg o.x (c.reg o.y))
  | .or => .done () (c.setReg o.x (lowByte (c.reg o.x) ||| lowByte (c.reg o.y) : Nat))
  | .and => .done () (c.setReg o.x (lowByte (c.reg o.x) &&& lowByte (c.reg o.y) : Nat))
  | .xor => .done () (c.setReg o.x (lowByte (c.reg o.x) ^^^ lowByte (c.reg o.y) : Nat))
  | .add =>
    let total := c.reg o.x + c.reg o.y
    .done () ((c.setReg o.x (lowByte total)).setFlag (total > 0xFF))
  | .subtract =>
    let (difference, noBorrow) := subtractBytes (c.reg o.x) (c.reg o.y)
    .done () ((c.setReg o.x difference).setFlag noBorrow)
  | .subtractFrom =>
    let (difference, noBorrow) := subtractBytes (c.reg o.y) (c.reg o.x)
    .done () ((c.setReg o.x difference).setFlag noBorrow)
  | .shiftRight =>
    let c := c.prepareShift o
    let value := c.reg o.x
    .done () (c.shifted o (value / 2) (value % 2 = 1))
  | .shiftLeft =>
    let c := c.prepareShift o
    let value := c.reg o.x
    .done () (c.shifted o (value * 2) (value / 128 % 2 = 1))
  | .setIndex => .done () { c with i := o.nnn }
  | .random =>
    let (byte, random) := c.random.next
    .done () ({ c with random }.setReg o.x (byte.toNat &&& o.nn : Nat))
  | .draw =>
    match c.memory.readBlock c.i o.n with
    | .error e => .failed e c
    | .ok rows =>
      let (display, collision) :=
        c.display.drawSprite (c.reg o.x) (c.reg o.y) (rows.map fun b => (b.toNat : Int))
      .done () ({ c with display }.setFlag collision)
  | .skipIfPressed => .done () (c.skipIf (c.keypad.isPressed (c.reg o.x)))
  | .skipUnlessPressed => .done () (c.skipIf (!c.keypad.isPressed (c.reg o.x)))
  | .waitKey =>
    match c.keypad.firstPressed with
    | none =>
      -- The instruction runs again until a key is down.
      .done () { c with pc := c.pc - 2, runState := .awaitingKey, waitRegister := some o.x }
    | some key =>
      .done () { c.setReg o.x key.val with runState := .running, waitRegister := none }
  | .readDelay => .done () (c.setReg o.x c.timers.delay)
  | .setDelay => .done () { c with timers := c.timers.setDelay (c.reg o.x) }
  | .setSound => c.setSound (c.reg o.x)
  | .addIndex =>
    let i := (c.i + c.reg o.x) % 0x10000
    let c := { c with i }
    .done () (if i > 0x1000 then c.setFlag true else c)
  | .setGlyph => .done () { c with i := fontStart + Font.glyphOffset (c.reg o.x) }
  | .storeDecimal => c.storeAtIndex (decimalDigits (c.reg o.x))
  | .storeRegisters => c.storeAtIndex (c.v.toList.take (o.x.val + 1))
  | .loadRegisters =>
    match c.memory.readBlock c.i (o.x.val + 1 : Nat) with
    | .error e => .failed e c
    | .ok bytes => .done () (c.fillRegisters bytes)
  | .prepareShift => .done () (c.prepareShift o)

/-- Gives operands to the member of a name. A register that waits for a key counts as missing while
none waits. -/
def useMember (c : Cpu) (name : String) : Member → CpuOutcome Unit
  | .passive => .done () c
  | .refuses why => .failed (.refused why) c
  | .waitRegister =>
    .failed (if c.waitRegister.isSome then .refused (.idle "int") else .noHandler name) c

/-- Carries the instruction of a word out. A word without an instruction does nothing. -/
def execute (dbg : Debug.Printer) (word : Int) (c : Cpu) : CpuOutcome Unit :=
  match c.table.lookup word with
  | none =>
    (CpuOutcome.done () c).saying
      (dbg.say "cpu" "unknown opcode=%04x pc=%04x" [.own word, .own (c.pc - 2)])
  | some instruction =>
    match instruction.handler with
    | .operation op => c.perform dbg (.ofWord word) op
    | .member name m => c.useMember name m
    | .unknown name => .failed (.noHandler name) c

end Cpu

end Chip8
