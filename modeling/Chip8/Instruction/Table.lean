import Chip8.Instruction.Basic

/-!
# Instruction tables

A table gives the instruction of every 16-bit word. It is filled by registering instructions, each
for all the words that it fits, from the greatest word down: the operand bits are counted down, with
the bits of the pattern masked out after each step. Two instructions may not claim the same word:
registering stops at the first word that is taken and keeps what it had stored.
-/

namespace Chip8

/-- The number of words. -/
def wordCount : Nat := 0x10000

/-- The instruction of each word, where there is one. -/
structure InstructionTable where
  entries : Vector (Option Instruction) wordCount

namespace InstructionTable

/-- No word has an instruction. -/
def empty : InstructionTable := ⟨Vector.replicate wordCount none⟩

/-- The instruction of the low sixteen bits of a number. -/
def lookup (t : InstructionTable) (word : Int) : Option Instruction :=
  have h : lowWord word < wordCount := lowWord_lt word
  t.entries[lowWord word]

def put (t : InstructionTable) (word : Nat) (i : Instruction) : InstructionTable :=
  ⟨t.entries.setIfInBounds word (some i)⟩

/-- Registers an instruction for the word with the given operand bits and then for those with fewer
of them. -/
def registerFrom (i : Instruction) (operand : Nat) (t : InstructionTable) :
    Except Error Unit × InstructionTable :=
  let word := i.value ||| operand
  match t.lookup word with
  | some other => (.error (.wordTaken word other.mnemonic), t)
  | none =>
    if _ : operand = 0 then (.ok (), t.put word i)
    else registerFrom i (i.operandBelow operand) (t.put word i)
termination_by operand
decreasing_by exact i.operandBelow_lt (Nat.pos_of_ne_zero ‹¬operand = 0›)

def register (t : InstructionTable) (i : Instruction) : Except Error Unit × InstructionTable :=
  registerFrom i i.free t

/-- Registers instructions in turn, up to the first that fails. -/
def registerAll : List Instruction → InstructionTable → Except Error Unit × InstructionTable
  | [], t => (.ok (), t)
  | i :: is, t =>
    match t.register i with
    | (.ok (), t) => registerAll is t
    | (.error e, t) => (.error e, t)

/-- The table of a list of instructions. -/
def build (is : List Instruction) : Except Error InstructionTable :=
  match registerAll is empty with
  | (.ok (), t) => .ok t
  | (.error e, _) => .error e

/-- The table of instructions up to the first that cannot be registered. -/
def ofList (is : List Instruction) : InstructionTable := (registerAll is empty).2

end InstructionTable

end Chip8
