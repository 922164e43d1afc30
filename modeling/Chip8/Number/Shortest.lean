import Chip8.Number.Double

/-!
# Shortest decimals

A double is written with the fewest digits that read back as the same double; of the numbers with
so many digits that do, with the nearest one. The point stands among the digits unless it is far
from them; then a power of ten follows.
-/

namespace Chip8.Number

/-- The decimal number `digits * 10 ^ exponent`. -/
structure Decimal where
  digits : Nat
  exponent : Int
  deriving DecidableEq, Repr

namespace Decimal

def value (d : Decimal) : Rat :=
  mkRat (d.digits * Nat.pow 10 d.exponent.toNat : Nat) (Nat.pow 10 (-d.exponent).toNat)

/-- Whether the double nearest to the number has the value `v`. -/
def readsBack (v : Rat) (d : Decimal) : Bool := (nearestDouble d.value).bind exactValue = some v

/-- The greatest power of ten that is at most a positive number. -/
def power (v : Rat) : Int :=
  let guess : Int := (Nat.toDigits 10 v.num.natAbs).length - (Nat.toDigits 10 v.den).length
  if value ⟨1, guess⟩ ≤ v then guess else guess - 1

/-- The two numbers of `count` digits next to `v`, the nearer one first; of two that are equally
near the even one. -/
def neighbours (v : Rat) (count : Nat) : List Decimal :=
  let exponent := power v - count + 1
  let scaled := v / value ⟨1, exponent⟩
  let low := scaled.floor.toNat
  if roundEven scaled = low then [⟨low, exponent⟩, ⟨low + 1, exponent⟩]
  else [⟨low + 1, exponent⟩, ⟨low, exponent⟩]

/-- The number of `count` digits next to `v` that reads back as `v`, if there is one. -/
def withDigits? (v : Rat) (count : Nat) : Option Decimal := (neighbours v count).find? (readsBack v)

/-- The number with the fewest digits that reads back as the double of value `v`. No double needs
more than seventeen. -/
def shortest? (v : Rat) : Option Decimal := (List.range' 1 17).findSome? (withDigits? v)

/-! ## Written forms -/

/-- The digits with the point behind the first `point` of them. Zeros fill up what lies between. -/
def positional (digits : List Char) (point : Int) : List Char :=
  if 0 < point then
    let before := digits.take point.toNat
    let behind := digits.drop point.toNat
    before ++ List.replicate (point.toNat - before.length) '0' ++
      '.' :: (if behind.isEmpty then ['0'] else behind)
  else '0' :: '.' :: (List.replicate (-point).toNat '0' ++ digits)

/-- The digits with the point behind the first one, and the power of ten with two digits or more. -/
def withPower (digits : List Char) (power : Int) : List Char :=
  let size := Nat.toDigits 10 power.natAbs
  digits.take 1 ++ (if digits.length ≤ 1 then [] else '.' :: digits.drop 1) ++
    'e' :: (if power < 0 then '-' else '+') :: (List.replicate (2 - size.length) '0' ++ size)

def written (d : Decimal) : List Char :=
  let all := Nat.toDigits 10 d.digits
  let point := all.length + d.exponent
  let digits := (all.reverse.dropWhile (· = '0')).reverse
  if -4 < point ∧ point ≤ 16 then positional digits point else withPower digits (point - 1)

end Decimal

/-- Whether a double has a sign. Zero can have one; that of NaN does not count. -/
def isNegative (x : Float) : Bool := !x.isNaN && x.toBits.toNat / Nat.pow 2 63 = 1

def written (x : Float) : List Char :=
  (if isNegative x then ['-'] else []) ++
    match exactValue x with
    | some v =>
      let size : Rat := if v < 0 then -v else v
      if size = 0 then ['0', '.', '0'] else ((Decimal.shortest? size).getD ⟨0, 0⟩).written
    | none => if x.isNaN then ['n', 'a', 'n'] else ['i', 'n', 'f']

example : Decimal.shortest? (mkRat 3602879701896397 (2 ^ 55)) = some ⟨1, -1⟩ := by decide +kernel

example : Decimal.written ⟨15, 15⟩ = "1.5e+16".toList := by decide +kernel

example : Decimal.written ⟨15, -5⟩ = "0.00015".toList := by decide +kernel

end Chip8.Number
