/-!
# Rounding

Rational numbers rounded to whole numbers and to decimals.
-/

namespace Chip8.Number

/-- The nearest whole number; of two, the even one. -/
def roundEven (r : Rat) : Int :=
  let down := r.floor
  let rest := r - down
  if rest < mkRat 1 2 then down
  else if mkRat 1 2 < rest then down + 1
  else if down % 2 = 0 then down else down + 1

/-- The whole number next to `r` on the side of zero. -/
def truncate (r : Rat) : Int := if r < 0 then r.ceil else r.floor

/-- A number between two bounds on either side of zero stays there without its decimals. -/
theorem truncate_mem {bound : Int} {r : Rat} (hlow : -(bound : Rat) ≤ r) (hhigh : r ≤ bound) :
    -bound ≤ truncate r ∧ truncate r ≤ bound := by
  have hlow : ((-bound : Int) : Rat) ≤ r := by rwa [Rat.intCast_neg]
  rw [truncate]
  split
  · exact ⟨Rat.intCast_le_intCast.mp (Rat.le_trans hlow Rat.le_ceil), Rat.ceil_le_iff.mpr hhigh⟩
  · exact ⟨Rat.le_floor_iff.mpr hlow,
      Rat.intCast_le_intCast.mp (Rat.le_trans (Rat.floor_le r) hhigh)⟩

end Chip8.Number
