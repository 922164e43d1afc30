import Chip8.Room

/-!
# Frame buffer

The picture that programs draw: a grid of pixels that are on or off. Drawing wraps around the edges
and flips pixels; it reports whether a pixel that was on went off.
-/

namespace Chip8

/-- Rows of numbers; a pixel is on where the number is not zero. -/
abbrev Grid := List (List Int)

/-- A picture of `width` times `height` pixels, row after row. -/
structure FrameBuffer where
  width : Nat
  height : Nat
  pixels : Vector Bool (width * height)
  width_pos : 0 < width
  height_pos : 0 < height

namespace FrameBuffer

def standardWidth : Nat := 64

def standardHeight : Nat := 32

/-- A picture with all pixels off. -/
def dark (width height : Nat) (hw : 0 < width) (hh : 0 < height) : FrameBuffer :=
  ⟨width, height, Vector.replicate _ false, hw, hh⟩

/-- The usual picture, all pixels off. -/
def standard : FrameBuffer := dark standardWidth standardHeight (by decide) (by decide)

/-- A picture of the given size with all pixels off, if there is room for it. -/
def create (room : Room) (width height : Int) : Except Error FrameBuffer :=
  if h : 0 < width ∧ 0 < height then
    (needRoom room (width.toNat * height.toNat)).map fun _ =>
      dark width.toNat height.toNat (by omega) (by omega)
  else .error .sizeNotPositive

/-- All pixels go off. -/
def clear (f : FrameBuffer) : FrameBuffer := dark f.width f.height f.width_pos f.height_pos

/-- The place of the pixel in column `x` and row `y`, counted on beyond the edges. -/
def place (f : FrameBuffer) (x y : Int) : Nat :=
  (y % f.height).toNat * f.width + (x % f.width).toNat

theorem place_lt (f : FrameBuffer) (x y : Int) : f.place x y < f.width * f.height := by
  have hw := f.width_pos
  have hh := f.height_pos
  have hx : (x % f.width).toNat < f.width := by
    have := Int.emod_lt_of_pos x (b := f.width) (by omega)
    omega
  have hy : (y % f.height).toNat < f.height := by
    have := Int.emod_lt_of_pos y (b := f.height) (by omega)
    omega
  calc (y % f.height).toNat * f.width + (x % f.width).toNat
      < (y % f.height).toNat * f.width + f.width := by omega
    _ = ((y % f.height).toNat + 1) * f.width := by rw [Nat.succ_mul]
    _ ≤ f.height * f.width := Nat.mul_le_mul_right _ hy
    _ = f.width * f.height := Nat.mul_comm _ _

/-- The pixel in column `x` and row `y`, counted on beyond the edges. -/
def wrapped (f : FrameBuffer) (x y : Int) : Bool :=
  have h : f.place x y < f.width * f.height := f.place_lt x y
  f.pixels[f.place x y]

/-- The pixel in column `x` and row `y`. -/
def getPixel (f : FrameBuffer) (x y : Int) : Except Error Bool :=
  if 0 ≤ x ∧ x < f.width ∧ 0 ≤ y ∧ y < f.height then .ok (f.wrapped x y)
  else .error (.pixelOutside x y .frameBuffer f.width f.height)

/-- Flips a pixel, and whether it went off. -/
def flip (f : FrameBuffer) (x y : Int) : FrameBuffer × Bool :=
  let i := f.place x y
  have h : i < f.width * f.height := f.place_lt x y
  let old := f.pixels[i]
  ({ f with pixels := f.pixels.set i (!old) }, old)

/-- Flips a pixel if the low bit of `bit` is set, and whether it went off. -/
def xorPixel (f : FrameBuffer) (x y bit : Int) : FrameBuffer × Bool :=
  if bit % 2 = 1 then f.flip x y else (f, false)

/-- Whether the pixel in a column of a sprite row is set. Only the low eight bits of the row count,
the highest of them for column zero. -/
def spriteBit (row : Int) (column : Nat) : Bool := row / (Nat.pow 2 (7 - column) : Nat) % 2 = 1

/-- Draws `count` more columns of a sprite row, up to the last one. -/
def drawColumns (row x y : Int) : Nat → FrameBuffer → FrameBuffer × Bool
  | 0, f => (f, false)
  | count + 1, f =>
    let column := 7 - count
    if spriteBit row column then
      let (f, hit) := f.flip (x + column) y
      let (f, hits) := drawColumns row x y count f
      (f, hit || hits)
    else drawColumns row x y count f

/-- Draws a sprite with its top left pixel in column `x` and row `y`, and whether a pixel went
off. -/
def drawSprite (f : FrameBuffer) (x y : Int) : List Int → FrameBuffer × Bool
  | [] => (f, false)
  | row :: rows =>
    let (f, hit) := drawColumns row x y 8 f
    let (f, hits) := drawSprite f x (y + 1) rows
    (f, hit || hits)

/-- A row as numbers, one for a pixel that is on. -/
def row (f : FrameBuffer) (y : Nat) : List Int :=
  (List.range f.width).map fun x => if f.pixels.getD (y * f.width + x) false then 1 else 0

/-- The picture as rows of numbers. -/
def rows (f : FrameBuffer) : Grid := (List.range f.height).map f.row

theorem wrapped_flip_self (f : FrameBuffer) (x y : Int) :
    (f.flip x y).1.wrapped x y = !f.wrapped x y :=
  Vector.getElem_set_self (f.place_lt x y)

theorem wrapped_flip_of_ne (f : FrameBuffer) {x y x' y' : Int}
    (h : f.place x y ≠ f.place x' y') : (f.flip x y).1.wrapped x' y' = f.wrapped x' y' :=
  Vector.getElem_set_ne (f.place_lt x y) (f.place_lt x' y') h

@[simp] theorem length_rows (f : FrameBuffer) : f.rows.length = f.height := by simp [rows]

end FrameBuffer

end Chip8
