import Chip8.Host
import Chip8.Input.Gamepad

/-!
# Inputs of a game controller

What the axes, the hat and the buttons of a game controller reported last, and the directions that
they point to. As long as they report numbers they point somewhere (`directions_of_numbers`); other
reports are kept all the same, and nothing follows from the inputs until they are replaced.
-/

namespace Chip8

/-- What the open game controller reported last. -/
structure StickInputs where
  x : Reading := .whole 0
  y : Reading := .whole 0
  hat : Reading := .list [.whole 0, .whole 0]
  /-- The buttons that are down. -/
  buttons : List Reading := []
  deriving Repr

namespace StickInputs

/-- How far an axis has to be moved to count. -/
def threshold : Rat := mkRat 1 2

/-- Whether an axis is moved far enough to one side. -/
def axisPoints (side : Comparison) (axis : Reading) : Except Error Bool :=
  axis.compares side .double (if side = .below then -threshold else threshold)

/-- Whether a direction is pointed to by an axis, or else by a part of the hat. -/
def pointsTo (axisSide hatSide : Comparison) (axis hat : Reading) : Except Error Bool := do
  if ← axisPoints axisSide axis then return true
  hat.compares hatSide .whole 0

@[simp] theorem pointsTo_number (axisSide hatSide : Comparison) (axis hat : Number.Scalar) :
    pointsTo axisSide hatSide (.number axis) (.number hat) =
      .ok (axis.compares axisSide (if axisSide = .below then -threshold else threshold) ||
        hat.compares hatSide 0) := by
  simp only [pointsTo, axisPoints, Reading.compares_number, bind, Except.bind]
  cases axis.compares axisSide _ <;> rfl

/-- The directions that axes and hat point to. -/
def directions (s : StickInputs) : Except Error Directions := do
  let (hatX, hatY) ← s.hat.pair
  let left ← pointsTo .below .below s.x hatX
  let right ← pointsTo .above .above s.x hatX
  let up ← pointsTo .below .above s.y hatY
  let down ← pointsTo .above .below s.y hatY
  return { left := some left, right := some right, up := some up, down := some down }

/-- Axes and hat that report numbers point somewhere. -/
theorem directions_of_numbers {s : StickInputs} {x y hatX hatY : Number.Scalar}
    (hx : s.x = .number x) (hy : s.y = .number y)
    (hhat : s.hat = .list [.number hatX, .number hatY]) :
    s.directions = .ok
      { left := some (x.isBelow (-threshold) || hatX.isBelow 0)
        right := some (x.isAbove threshold || hatX.isAbove 0)
        up := some (y.isBelow (-threshold) || hatY.isAbove 0)
        down := some (y.isAbove threshold || hatY.isBelow 0) } := by
  simp only [directions, hx, hy, hhat, Reading.pair_list, pointsTo_number, bind, Except.bind, pure,
    Except.pure]
  rfl

def button (number : Option Reading) : Except Error Reading := do
  let number ← Reading.need "button" number
  if !number.isKey then throw (.notAKey number.kind)
  return number

/-- The inputs after a change, if it is one of inputs that count. -/
def apply (s : StickInputs) : StickChange → Except Error (Option StickInputs)
  | .removed => return none
  | .axis number value => do
    let number ← Reading.need "axis" number
    if number.same (.whole 0) then return some { s with x := ← Reading.need "value" value }
    if number.same (.whole 1) then return some { s with y := ← Reading.need "value" value }
    return none
  | .hat position => return some { s with hat := ← Reading.need "value" position }
  | .buttonDown number => do
    let number ← button number
    let known := s.buttons.any number.same
    return some { s with buttons := if known then s.buttons else number :: s.buttons }
  | .buttonUp number => do
    let number ← button number
    return some { s with buttons := s.buttons.filter (!number.same ·) }

end StickInputs

end Chip8
