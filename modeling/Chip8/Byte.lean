/-!
# Bytes

Registers and data hold whole numbers; memory and the results of arithmetic keep their low eight
bits.
-/

namespace Chip8

/-- The low eight bits of `n` in two's complement, as a number from 0 to 255. -/
def lowByte (n : Int) : Nat := (n % 256).toNat

/-- The low eight bits of `n` as a memory cell. -/
def toCell (n : Int) : UInt8 := UInt8.ofNat (lowByte n)

def isByte (n : Int) : Bool := 0 ≤ n ∧ n < 256

theorem lowByte_eq (n : Int) : (lowByte n : Int) = n % 256 := by
  unfold lowByte
  omega

theorem lowByte_lt (n : Int) : lowByte n < 256 := by
  unfold lowByte
  omega

theorem lowByte_of_lt {n : Int} (h₀ : 0 ≤ n) (h₁ : n < 256) : (lowByte n : Int) = n := by
  unfold lowByte
  omega

@[simp] theorem toNat_toCell (n : Int) : (toCell n).toNat = lowByte n := by
  have := lowByte_lt n
  simp only [toCell, UInt8.toNat_ofNat']
  omega

@[simp] theorem toCell_toNat (b : UInt8) : toCell (b.toNat : Int) = b := by
  apply UInt8.toNat_inj.mp
  have := b.toNat_lt
  simp only [toNat_toCell, lowByte]
  omega

end Chip8
