import Chip8.Random.MersenneTwister

/-!
# Sources of random bytes

Where the random instruction takes its numbers from: any infinite sequence of bytes, or the
Mersenne Twister. A source counts the numbers that have been taken.
-/

namespace Chip8

/-- How the numbers come about. -/
inductive Generator where
  /-- The number at each position is given. -/
  | sequence (byteAt : Nat → UInt8)
  | twister (state : MersenneTwister.State)

/-- A generator and the number of bytes taken from it. -/
structure RandomSource where
  generator : Generator
  position : Nat

namespace RandomSource

/-- The source whose numbers are given. -/
def ofSequence (byteAt : Nat → UInt8) : RandomSource := ⟨.sequence byteAt, 0⟩

/-- The source of a seed. -/
def ofSeed (seed : Int) : RandomSource := ⟨.twister (.ofInt seed), 0⟩

/-- The source that repeats a list of numbers, of which the low bytes count. An empty list gives
zeros. -/
def cycle (numbers : List Int) : RandomSource :=
  let bytes := (numbers.map fun n => UInt8.ofNat (n % 256).toNat).toArray
  ofSequence fun k => bytes.getD (k % bytes.size) 0

/-- The next byte and the source behind it. -/
def next (r : RandomSource) : UInt8 × RandomSource :=
  match r.generator with
  | .sequence byteAt => (byteAt r.position, ⟨.sequence byteAt, r.position + 1⟩)
  | .twister state =>
    let (byte, state) := state.nextByte
    (byte, ⟨.twister state, r.position + 1⟩)

@[simp] theorem next_sequence (byteAt : Nat → UInt8) (position : Nat) :
    next ⟨.sequence byteAt, position⟩ =
      (byteAt position, ⟨.sequence byteAt, position + 1⟩) := rfl

end RandomSource

end Chip8
