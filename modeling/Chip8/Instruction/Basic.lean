import Chip8.Instruction.Member

/-!
# Instructions

An instruction is a pattern of 16-bit words: the mask selects the bits that tell it from others,
the value gives those bits, and all other bits are operands. The handler says what the instruction
does.
-/

namespace Chip8

inductive Operation where
  | clearScreen
  | ret
  | jump
  | call
  | jumpIndexed
  | skipIfByte
  | skipUnlessByte
  | skipIfSame
  | skipUnlessSame
  | setByte
  | addByte
  | copy
  | or
  | and
  | xor
  | add
  | subtract
  | subtractFrom
  | shiftRight
  | shiftLeft
  | setIndex
  | random
  | draw
  | skipIfPressed
  | skipUnlessPressed
  | waitKey
  | readDelay
  | setDelay
  | setSound
  | addIndex
  | setGlyph
  | storeDecimal
  | storeRegisters
  | loadRegisters
  /-- The preparation of a shift by itself. -/
  | prepareShift
  deriving DecidableEq, Repr

namespace Operation

/-- The operations by the names under which instruction tables refer to them. -/
def named : List (String × Operation) :=
  [("op_cls", clearScreen), ("op_ret", ret), ("op_jp", jump), ("op_call", call),
   ("op_jp_indexed", jumpIndexed), ("op_se_immediate", skipIfByte),
   ("op_sne_immediate", skipUnlessByte), ("op_se_register", skipIfSame),
   ("op_sne_register", skipUnlessSame), ("op_ld_immediate", setByte),
   ("op_add_immediate", addByte), ("op_ld_register", copy), ("op_or", or), ("op_and", and),
   ("op_xor", xor), ("op_add_register", add), ("op_sub", subtract), ("op_shr", shiftRight),
   ("op_subn", subtractFrom), ("op_shl", shiftLeft), ("op_ld_index", setIndex),
   ("op_rnd", random), ("op_drw", draw), ("op_skp", skipIfPressed),
   ("op_sknp", skipUnlessPressed), ("op_ld_key", waitKey), ("op_ld_from_delay", readDelay),
   ("op_ld_delay", setDelay), ("op_ld_sound", setSound), ("op_add_index", addIndex),
   ("op_ld_font", setGlyph), ("op_ld_bcd", storeDecimal),
   ("op_store_registers", storeRegisters), ("op_load_registers", loadRegisters),
   ("_shift_source", prepareShift)]

def name (op : Operation) : String :=
  ((named.find? fun entry => entry.2 = op).map Prod.fst).getD ""

def ofName? (name : String) : Option Operation := named.lookup name

@[simp] theorem ofName?_name (op : Operation) : ofName? op.name = some op := by
  cases op <;> rfl

end Operation

/-- What a table gives for an instruction: an operation, another member of the processor, or a name
that nothing has. -/
inductive Handler where
  | operation (op : Operation)
  | member (name : String) (m : Member)
  | unknown (name : String)
  deriving DecidableEq, Repr

namespace Handler

def ofName (name : String) : Handler :=
  match Operation.ofName? name, Member.named.lookup name with
  | some op, _ => operation op
  | none, some m => member name m
  | none, none => unknown name

def name : Handler → String
  | operation op => op.name
  | member name _ => name
  | unknown name => name

@[simp] theorem ofName_name_operation (op : Operation) :
    ofName (operation op).name = operation op := by
  simp [ofName, name]

end Handler

/-- A pattern of words and its meaning. The value has no bits outside the mask. -/
structure Instruction where
  mask : Nat
  value : Nat
  mnemonic : String
  handler : Handler
  mask_lt : mask < 0x10000 := by decide
  value_and : value &&& mask = value := by decide
  deriving DecidableEq, Repr

namespace Instruction

/-- The instruction of a mask and a value. -/
def create (mask value : Int) (mnemonic : String) (handler : Handler) :
    Except Error Instruction :=
  if hm : 0 ≤ mask ∧ mask < 0x10000 then
    if hv : 0 ≤ value ∧ value.toNat &&& mask.toNat = value.toNat then
      .ok ⟨mask.toNat, value.toNat, mnemonic, handler, by omega, hv.2⟩
    else .error (.patternOutsideMask value mask)
  else .error (.maskOutOfRange mask)

/-- Whether the pattern fits a word. -/
def fits (i : Instruction) (word : Nat) : Bool := word &&& i.mask = i.value

/-- The bits of a word that hold operands. -/
def free (i : Instruction) : Nat := i.mask ^^^ 0xFFFF

/-- The greatest operand bits below some that are not all zero. -/
def operandBelow (i : Instruction) (operand : Nat) : Nat := (operand - 1) &&& i.free

theorem operandBelow_lt (i : Instruction) {operand : Nat} (h : 0 < operand) :
    i.operandBelow operand < operand :=
  Nat.lt_of_le_of_lt Nat.and_le_left (Nat.sub_lt h Nat.one_pos)

end Instruction

/-- The low sixteen bits of a number. -/
def lowWord (word : Int) : Nat := (word % 0x10000).toNat

theorem lowWord_lt (word : Int) : lowWord word < 0x10000 := by
  unfold lowWord
  omega

/-- The fields of an instruction word that hold operands. -/
structure Operands where
  word : Nat
  x : Fin 16
  y : Fin 16
  n : Nat
  nn : Nat
  nnn : Nat
  deriving DecidableEq, Repr

def Operands.ofWord (word : Int) : Operands :=
  let w := lowWord word
  { word := w
    x := ⟨w / 0x100 % 16, Nat.mod_lt _ (by decide)⟩
    y := ⟨w / 0x10 % 16, Nat.mod_lt _ (by decide)⟩
    n := w % 0x10
    nn := w % 0x100
    nnn := w % 0x1000 }

end Chip8
