import Chip8.Error

/-!
# Room

Cells are counted in signed words of 64 bits, and there is room for some of them. How many that are
is not known: whatever asks for cells is given the room that it finds.
-/

namespace Chip8

/-- The greatest number of cells that can be counted. -/
def greatestCount : Nat := 0x7FFFFFFFFFFFFFFF

/-- There is room for `cells` cells. -/
structure Room where
  cells : Nat
  /-- With less than that nothing would run. -/
  least : 0x10000 ≤ cells
  most : cells ≤ greatestCount
  deriving DecidableEq, Repr

/-- As much room as can be counted. -/
def Room.full : Room := ⟨greatestCount, by decide, Nat.le_refl _⟩

/-- Makes sure that there is room for cells that need not be counted. -/
def findRoom (room : Room) (cells : Nat) : Except Error Unit :=
  if room.cells < cells then .error .noRoom else .ok ()

/-- Makes sure that there is room for cells. -/
def needRoom (room : Room) (cells : Nat) : Except Error Unit :=
  if greatestCount < cells then .error .countTooGreat else findRoom room cells

/-- Makes sure that there is room for copies of cells. -/
def needCopies (room : Room) (cells copies : Nat) : Except Error Unit :=
  if greatestCount < copies then .error .countTooGreat
  else if greatestCount < cells * copies then .error .copiesTooMany
  else needRoom room (cells * copies)

/-- One check after another succeeds if both do. -/
theorem andThen_eq_ok_iff {α : Type} (check : Except Error Unit) (next : Except Error α) (a : α) :
    (check >>= fun _ => next) = .ok a ↔ check = .ok () ∧ next = .ok a := by
  cases check <;> simp [bind, Except.bind]

theorem findRoom_eq_ok_iff (room : Room) (cells : Nat) :
    findRoom room cells = .ok () ↔ cells ≤ room.cells := by
  unfold findRoom
  split <;> simp <;> omega

theorem needRoom_eq_ok_iff (room : Room) (cells : Nat) :
    needRoom room cells = .ok () ↔ cells ≤ room.cells := by
  have hmost := room.most
  unfold needRoom
  split
  · simp
    omega
  · exact findRoom_eq_ok_iff room cells

theorem needCopies_eq_ok_iff (room : Room) (cells copies : Nat) :
    needCopies room cells copies = .ok () ↔
      copies ≤ greatestCount ∧ cells * copies ≤ room.cells := by
  have hmost := room.most
  unfold needCopies
  split
  · simp
    omega
  · split
    · simp
      omega
    · rw [needRoom_eq_ok_iff]
      omega

end Chip8
