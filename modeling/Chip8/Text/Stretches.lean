/-!
# Stretches of code points

A set of characters, given by the lengths of its stretches: the code points in order of size are
cut into stretches that lie in the set and stretches that do not, and each pair counts one of
either kind. What follows the last pair is not in the set.
-/

namespace Chip8.Text

/-- Whether the code point `n` lies in the set that the pairs describe. -/
def inStretches : List (Nat × Nat) → Nat → Bool
  | [], _ => false
  | (inside, outside) :: rest, n =>
    if n < inside then true
    else if n < inside + outside then false
    else inStretches rest (n - inside - outside)

end Chip8.Text
