import Chip8.Instruction.Table

/-!
# The standard instructions
-/

namespace Chip8

open Operation in
/-- The instructions of the interpreter. -/
def standardInstructions : List Instruction :=
  [ -- flow of control
   .mk 0xFFFF 0x00E0 "CLS" (.operation clearScreen),
   .mk 0xFFFF 0x00EE "RET" (.operation ret),
   .mk 0xF000 0x1000 "JP" (.operation jump),
   .mk 0xF000 0x2000 "CALL" (.operation call),
   .mk 0xF000 0xB000 "JP" (.operation jumpIndexed),
   -- skips
   .mk 0xF000 0x3000 "SE" (.operation skipIfByte),
   .mk 0xF000 0x4000 "SNE" (.operation skipUnlessByte),
   .mk 0xF00F 0x5000 "SE" (.operation skipIfSame),
   .mk 0xF00F 0x9000 "SNE" (.operation skipUnlessSame),
   -- registers and arithmetic
   .mk 0xF000 0x6000 "LD" (.operation setByte),
   .mk 0xF000 0x7000 "ADD" (.operation addByte),
   .mk 0xF00F 0x8000 "LD" (.operation copy),
   .mk 0xF00F 0x8001 "OR" (.operation or),
   .mk 0xF00F 0x8002 "AND" (.operation and),
   .mk 0xF00F 0x8003 "XOR" (.operation xor),
   .mk 0xF00F 0x8004 "ADD" (.operation add),
   .mk 0xF00F 0x8005 "SUB" (.operation subtract),
   .mk 0xF00F 0x8006 "SHR" (.operation shiftRight),
   .mk 0xF00F 0x8007 "SUBN" (.operation subtractFrom),
   .mk 0xF00F 0x800E "SHL" (.operation shiftLeft),
   -- index, random numbers and drawing
   .mk 0xF000 0xA000 "LD" (.operation setIndex),
   .mk 0xF000 0xC000 "RND" (.operation random),
   .mk 0xF000 0xD000 "DRW" (.operation draw),
   -- keypad
   .mk 0xF0FF 0xE09E "SKP" (.operation skipIfPressed),
   .mk 0xF0FF 0xE0A1 "SKNP" (.operation skipUnlessPressed),
   .mk 0xF0FF 0xF00A "LD" (.operation waitKey),
   -- timers
   .mk 0xF0FF 0xF007 "LD" (.operation readDelay),
   .mk 0xF0FF 0xF015 "LD" (.operation setDelay),
   .mk 0xF0FF 0xF018 "LD" (.operation setSound),
   -- index and memory
   .mk 0xF0FF 0xF01E "ADD" (.operation addIndex),
   .mk 0xF0FF 0xF029 "LD" (.operation setGlyph),
   .mk 0xF0FF 0xF033 "LD" (.operation storeDecimal),
   .mk 0xF0FF 0xF055 "LD" (.operation storeRegisters),
   .mk 0xF0FF 0xF065 "LD" (.operation loadRegisters)]

/-- The table of the standard instructions, which do not overlap. -/
def InstructionTable.standard : InstructionTable := ofList standardInstructions

end Chip8
