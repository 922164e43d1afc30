import Chip8.Number.Rounding

/-!
# Decimal notations

A number with finitely many decimals, as every finite double is, written with a decimal point.
Fixed notation writes a number of decimals; scientific notation a number of significant digits, one
of them before the point, and the power of ten; general notation is the fixed one while the point
falls within the significant digits or just before them and the scientific one beyond, without the
zeros that end the decimals. What is not written is rounded, a half to the even neighbour.
-/

namespace Chip8.Number

/-- How a number with a point is written. -/
structure PointForm where
  /-- The letter before the power of ten. -/
  mark : Char
  /-- The point stands even without decimals, and no decimal is left out. -/
  whole : Bool

/-- The number `digits / 10 ^ decimals`. -/
structure Expansion where
  digits : Nat
  decimals : Nat
  deriving DecidableEq, Repr

namespace Expansion

/-- The size of a number whose denominator is a power of two. -/
def ofRat (r : Rat) : Expansion :=
  let decimals := r.den.log2
  ⟨r.num.natAbs * Nat.pow 5 decimals, decimals⟩

example : ofRat (mkRat (-5) 4) = ⟨125, 2⟩ := by decide +kernel

/-- The number with no more decimals than `places`. -/
def rounded (places : Nat) (x : Expansion) : Expansion :=
  if x.decimals ≤ places then x
  else ⟨(roundEven (mkRat x.digits (Nat.pow 10 (x.decimals - places)))).toNat, places⟩

end Expansion

/-- The first `count` significant digits of `n` and the power of ten of the first one. What follows
is rounded, a half to the even neighbour. -/
def significant (count n : Nat) : List Char × Nat :=
  let digits := Nat.toDigits 10 n
  let power := digits.length - 1
  if digits.length ≤ count then (digits ++ List.replicate (count - digits.length) '0', power)
  else
    let rounded := (roundEven (mkRat n (Nat.pow 10 (digits.length - count)))).toNat
    let kept := Nat.toDigits 10 rounded
    if kept.length ≤ count then (kept, power) else (kept.take count, power + 1)

namespace PointForm

def join (form : PointForm) (before behind : List Char) : List Char :=
  if behind.isEmpty && !form.whole then before else before ++ '.' :: behind

/-- The power of ten, with two digits or more. -/
def exponent (form : PointForm) (power : Int) : List Char :=
  let digits := Nat.toDigits 10 power.natAbs
  form.mark :: (if power < 0 then '-' else '+') ::
    (List.replicate (2 - digits.length) '0' ++ digits)

/-- The decimals that general notation keeps. -/
def kept (form : PointForm) (decimals : List Char) : List Char :=
  if form.whole then decimals else (decimals.reverse.dropWhile (· = '0')).reverse

def fixed (form : PointForm) (places : Nat) (x : Expansion) : List Char :=
  let x := x.rounded places
  let digits := Nat.toDigits 10 x.digits
  let digits := List.replicate (x.decimals + 1 - digits.length) '0' ++ digits
  let point := digits.length - x.decimals
  form.join (digits.take point)
    (digits.drop point ++ List.replicate (places - x.decimals) '0')

/-- The number with one digit before the point and `places` behind it. -/
def scientific (form : PointForm) (places : Nat) (x : Expansion) : List Char :=
  let (digits, power) := significant (places + 1) x.digits
  form.join (digits.take 1) (digits.drop 1) ++ form.exponent (power - x.decimals)

/-- The number with `count` significant digits, or one if none is asked for. Where no zeros are
kept, there are no more digits than the number has. -/
def general (form : PointForm) (count : Nat) (x : Expansion) : List Char :=
  let count :=
    max 1 (if form.whole then count else min count (Nat.toDigits 10 x.digits).length)
  let (digits, place) := significant count x.digits
  let power : Int := place - x.decimals
  if -4 ≤ power ∧ power < 0 then
    form.join ['0'] (form.kept (List.replicate (power.natAbs - 1) '0' ++ digits))
  else if 0 ≤ power ∧ power < count then
    form.join (digits.take (power.toNat + 1)) (form.kept (digits.drop (power.toNat + 1)))
  else form.join (digits.take 1) (form.kept (digits.drop 1)) ++ form.exponent power

end PointForm

example : (PointForm.mk 'e' false).scientific 0 ⟨25, 0⟩ = "2e+01".toList := by decide +kernel

example : (PointForm.mk 'e' false).fixed 2 ⟨1005, 3⟩ = "1.00".toList := by decide +kernel

example : (PointForm.mk 'e' false).general 6 ⟨1000000, 0⟩ = "1e+06".toList := by decide +kernel

example : (PointForm.mk 'e' false).general 6 ⟨15, 5⟩ = "0.00015".toList := by decide +kernel

example : (PointForm.mk 'e' true).general 6 ⟨5, 0⟩ = "5.00000".toList := by decide +kernel

end Chip8.Number
