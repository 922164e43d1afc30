import Chip8.Error

/-!
# Call stack

The return addresses of the subroutines that are running, at most `capacity` of them.
-/

namespace Chip8

/-- Return addresses, the last one pushed first. -/
structure CallStack where
  capacity : Nat
  entries : List Int
  deriving DecidableEq, Repr

namespace CallStack

def standardCapacity : Nat := 16

/-- The usual stack, empty. -/
def standard : CallStack := ⟨standardCapacity, []⟩

/-- An empty stack of the given capacity. -/
def create (capacity : Int) : Except Error CallStack :=
  if capacity ≤ 0 then .error .capacityNotPositive else .ok ⟨capacity.toNat, []⟩

/-- The number of return addresses. -/
def depth (s : CallStack) : Nat := s.entries.length

def isEmpty (s : CallStack) : Bool := s.entries.isEmpty

def isFull (s : CallStack) : Bool := s.capacity ≤ s.depth

/-- The stack with one more address. -/
def push (s : CallStack) (address : Int) : Except Error CallStack :=
  if s.isFull then .error (.stackOverflow address s.capacity)
  else .ok { s with entries := address :: s.entries }

/-- The last address pushed and the stack without it. -/
def pop (s : CallStack) : Except Error (Int × CallStack) :=
  match s.entries with
  | [] => .error .stackUnderflow
  | address :: rest => .ok (address, { s with entries := rest })

/-- The last address pushed. -/
def peek (s : CallStack) : Option Int := s.entries.head?

def clear (s : CallStack) : CallStack := { s with entries := [] }

/-- The addresses in the order in which they were pushed. -/
def toList (s : CallStack) : List Int := s.entries.reverse

end CallStack

end Chip8
