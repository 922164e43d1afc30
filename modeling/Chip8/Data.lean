import Chip8.Byte
import Chip8.Error

/-!
# Data

Numbers to be stored, given one by one or as one number many times. What has to be known before any
of them is stored, how many there are (`length_toList`) and whether all of them are bytes
(`allBytes_eq`), is known without writing them out.
-/

namespace Chip8

/-- Numbers in a row. -/
inductive Data where
  | listed (numbers : List Int)
  | repeated (count : Nat) (number : Int)
  deriving DecidableEq, Repr

namespace Data

def toList : Data → List Int
  | listed numbers => numbers
  | repeated count number => List.replicate count number

/-- How many numbers there are. -/
def length : Data → Nat
  | listed numbers => numbers.length
  | repeated count _ => count

def allBytes : Data → Bool
  | listed numbers => numbers.all isByte
  | repeated count number => count = 0 || isByte number

@[simp] theorem length_toList (d : Data) : d.toList.length = d.length := by
  cases d <;> simp [toList, length]

theorem allBytes_eq (d : Data) : d.allBytes = d.toList.all isByte := by
  cases d with
  | listed numbers => rfl
  | repeated count number => cases count <;> simp [allBytes, toList]

end Data

end Chip8
