import Chip8.Number.Rounding

/-!
# Double-precision numbers

The exact values of double-precision numbers, which are rational, and the way back: the double
nearest to a rational number. Numbers are compared by their exact values.
-/

namespace Chip8.Number

/-- The value of a finite double-precision number, which is `m * 2 ^ e` for whole `m` and `e`. -/
def exactValue (x : Float) : Option Rat :=
  let bits : Nat := x.toBits.toNat
  let exponent : Nat := bits / Nat.pow 2 52 % Nat.pow 2 11
  let fraction : Nat := bits % Nat.pow 2 52
  let sign : Int := if bits / Nat.pow 2 63 = 1 then -1 else 1
  if exponent = 2047 then none
  else
    let m : Nat := if exponent = 0 then fraction else fraction + Nat.pow 2 52
    let e : Nat := if exponent = 0 then 1 else exponent
    some (if e ≥ 1075 then (sign * (m * Nat.pow 2 (e - 1075) : Nat) : Int)
      else mkRat (sign * m) (Nat.pow 2 (1075 - e)))

/-- The size of `r` in units of `2 ^ e`. -/
def inUnits (r : Rat) (e : Int) : Rat :=
  mkRat (r.num.natAbs * Nat.pow 2 (-e).toNat : Nat) (r.den * Nat.pow 2 e.toNat)

/-- The exponent of the last place of the doubles around `r`: of 53 binary places the first one is
that of `r`, but no place is below `2 ^ -1074`. -/
def lastPlace (r : Rat) : Int :=
  let guess : Int := r.num.natAbs.log2 - r.den.log2 - 52
  max (-1074) (if inUnits r guess < (Nat.pow 2 52 : Nat) then guess - 1 else guess)

/-- The double nearest to `r`; of two, the one with the even last place. There is none if all
finite ones are too small. -/
def nearestDouble (r : Rat) : Option Float :=
  let e := lastPlace r
  let m : Nat := (roundEven (inUnits r e)).toNat
  let size : Nat := if m = 0 then 0 else (e + 1074).toNat * Nat.pow 2 52 + m
  if size < 2047 * Nat.pow 2 52 then
    some (.ofBits (.ofNat (if r < 0 then Nat.pow 2 63 + size else size)))
  else none

example : (nearestDouble (mkRat 1 10)).map Float.toBits = some 0x3FB999999999999A := by
  decide +kernel

example : (nearestDouble (2 ^ 53 + 1)).map Float.toBits = some 0x4340000000000000 := by
  decide +kernel

example : (nearestDouble (2 ^ 1024 - 2 ^ 970)).isNone = true := by decide +kernel

/-- Whether `x` is less than `r`. NaN is not. -/
def isBelow (x : Float) (r : Rat) : Bool :=
  match exactValue x with
  | some v => v < r
  | none => x < 0.0

/-- Whether `x` is greater than `r`. NaN is not. -/
def isAbove (x : Float) (r : Rat) : Bool :=
  match exactValue x with
  | some v => r < v
  | none => 0.0 < x

/-- A number that is either whole, of any size, or a double. -/
inductive Scalar where
  | whole (n : Int)
  | double (x : Float)
  deriving DecidableEq, Repr

namespace Scalar

/-- The exact value of a finite number. -/
def value : Scalar → Option Rat
  | whole n => some n
  | double x => exactValue x

/-- Whether two numbers have the same value. NaN has none. -/
def same : Scalar → Scalar → Bool
  | whole m, whole n => m = n
  | double x, double y => x == y
  | s, t => s.value.any fun v => t.value = some v

/-- Whether the number is less than `r`. NaN is not. -/
def isBelow (r : Rat) : Scalar → Bool
  | whole n => n < r
  | double x => Number.isBelow x r

/-- Whether the number is greater than `r`. NaN is not. -/
def isAbove (r : Rat) : Scalar → Bool
  | whole n => r < n
  | double x => Number.isAbove x r

/-- Whether the number is at most zero. NaN is not. -/
def isAtMostZero : Scalar → Bool
  | whole n => n ≤ 0
  | double x => x ≤ 0.0

/-- The number brought between two bounds. NaN goes to the upper one. -/
def clamp (low high : Rat) (s : Scalar) : Rat :=
  if s.isBelow low then low
  else match s.value with
    | some v => if high < v then high else v
    | none => high

end Scalar

end Chip8.Number
