import Chip8.Text.Hex

/-!
# Directives

A message may hold directives, each of which shows a value: a percent sign, flags, a least width, a
precision behind a point, a letter for the size of the value, which means nothing, and the letter
that says how the value is written. An asterisk as width or precision stands for one more value.
Two percent signs stand for one.

`pieces` cuts a message into characters and directives; nothing of it is lost, and what is wrong
with a directive shows only when it is filled in.
-/

namespace Chip8.Text

structure Flags where
  /-- The value stands on the left of its field. -/
  left : Bool
  /-- Numbers that are not negative have a plus sign. -/
  plus : Bool
  /-- They have a blank in place of the sign. -/
  blank : Bool
  /-- Numbers are marked by their base, and decimal points are kept. -/
  marked : Bool
  /-- Fields of numbers are filled with zeros. -/
  zeros : Bool
  deriving DecidableEq, Repr

/-- A width or a precision. -/
inductive Measure where
  | digits (n : Nat)
  /-- That of the next value. -/
  | ofValue
  deriving DecidableEq, Repr

structure Directive where
  flags : Flags
  width : Option Measure
  precision : Option Measure
  /-- How the value is written. The message may end before the letter. -/
  letter : Option Char
  deriving DecidableEq, Repr

inductive Piece where
  | literal (c : Char)
  | directive (d : Directive)
  deriving DecidableEq, Repr

def isFlag (c : Char) : Bool := ['-', '+', ' ', '#', '0'].contains c

def Flags.ofChars (cs : List Char) : Flags :=
  ⟨cs.contains '-', cs.contains '+', cs.contains ' ', cs.contains '#', cs.contains '0'⟩

/-- The number that digits stand for. -/
def digitsValue (cs : List Char) : Nat :=
  cs.foldl (fun n c => 10 * n + (c.toNat - '0'.toNat)) 0

/-- The measure at the start of `cs`, if there is one, and what follows. -/
def readMeasure (cs : List Char) : Option Measure × List Char :=
  if cs.head? = some '*' then (some .ofValue, cs.drop 1)
  else if cs.head?.any Char.isDigit then
    (some (.digits (digitsValue (cs.takeWhile Char.isDigit))), cs.dropWhile Char.isDigit)
  else (none, cs)

/-- The precision at the start of `cs`, if there is one, and what follows. A lone point stands for
the precision zero. -/
def readPrecision (cs : List Char) : Option Measure × List Char :=
  if cs.head? = some '.' then
    let (measure, rest) := readMeasure (cs.drop 1)
    (some (measure.getD (.digits 0)), rest)
  else (none, cs)

/-- What follows the letter for the size of a value. -/
def dropSize (cs : List Char) : List Char :=
  if cs.head?.any ['h', 'l', 'L'].contains then cs.drop 1 else cs

/-- The directive whose percent sign stands before `cs`, and what follows. -/
def Directive.read (cs : List Char) : Directive × List Char :=
  let (width, afterWidth) := readMeasure (cs.dropWhile isFlag)
  let (precision, afterPrecision) := readPrecision afterWidth
  let rest := dropSize afterPrecision
  (⟨.ofChars (cs.takeWhile isFlag), width, precision, rest.head?⟩, rest.drop 1)

theorem length_dropWhile_le (p : Char → Bool) (cs : List Char) :
    (cs.dropWhile p).length ≤ cs.length :=
  (List.dropWhile_suffix p).length_le

theorem length_readMeasure_le (cs : List Char) : (readMeasure cs).2.length ≤ cs.length := by
  unfold readMeasure
  split
  · simp
  · split
    · exact length_dropWhile_le _ _
    · exact Nat.le_refl _

theorem length_readPrecision_le (cs : List Char) : (readPrecision cs).2.length ≤ cs.length := by
  unfold readPrecision
  split
  · have h := length_readMeasure_le (cs.drop 1)
    rw [List.length_drop] at h
    exact Nat.le_trans h (Nat.sub_le _ _)
  · exact Nat.le_refl _

theorem length_dropSize_le (cs : List Char) : (dropSize cs).length ≤ cs.length := by
  unfold dropSize
  split
  · simp
  · exact Nat.le_refl _

theorem length_read_le (cs : List Char) : (Directive.read cs).2.length ≤ cs.length := by
  have flags := length_dropWhile_le isFlag cs
  have width := length_readMeasure_le (cs.dropWhile isFlag)
  have precision := length_readPrecision_le (readMeasure (cs.dropWhile isFlag)).2
  have size := length_dropSize_le (readPrecision (readMeasure (cs.dropWhile isFlag)).2).2
  simp only [Directive.read, List.length_drop]
  omega

def pieces : List Char → List Piece
  | [] => []
  | c :: cs =>
    if c ≠ '%' then .literal c :: pieces cs
    else if cs.head? = some '%' then .literal '%' :: pieces (cs.drop 1)
    else .directive (Directive.read cs).1 :: pieces (Directive.read cs).2
termination_by cs => cs.length
decreasing_by
  · exact Nat.lt_succ_self _
  · exact Nat.lt_succ_of_le (by rw [List.length_drop]; exact Nat.sub_le _ _)
  · exact Nat.lt_succ_of_le (length_read_le cs)

end Chip8.Text
