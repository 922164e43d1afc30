import Chip8.Room
import Chip8.Video.FrameBuffer
import Chip8.Video.Palette

/-!
# Images

A picture in colours. Its pixels stand in a row of bytes, line after line, with three bytes for each
pixel.

Rendering draws every value of a grid as a square of `scale` times `scale` pixels. Each row of the
grid becomes one line of pixels, which is then repeated. Whatever bytes this takes need room, and
the first for which there is none decide how rendering fails.
-/

namespace Chip8

@[ext] structure Image where
  width : Nat
  height : Nat
  pixels : ByteArray

theorem Image.same_iff (i j : Image) :
    (i.width = j.width ∧ i.height = j.height ∧ i.pixels.data = j.pixels.data) ↔ i = j :=
  ⟨fun ⟨hw, hh, hp⟩ => Image.ext hw hh (ByteArray.ext hp), fun h => h ▸ ⟨rfl, rfl, rfl⟩⟩

instance : DecidableEq Image := fun i j => decidable_of_decidable_of_iff (Image.same_iff i j)

/-- The bytes of a pixel. -/
def Rgb.bytes (c : Rgb) : ByteArray := ⟨#[c.red, c.green, c.blue]⟩

namespace Image

/-- The pixel in column `x` and row `y`. An image that is made of a grid whose rows differ in length
may end before it. -/
def getPixel (i : Image) (x y : Int) : Except Error Rgb :=
  if 0 ≤ x ∧ x < i.width ∧ 0 ≤ y ∧ y < i.height then
    let offset := (y.toNat * i.width + x.toNat) * 3
    match i.pixels[offset]?, i.pixels[offset + 1]?, i.pixels[offset + 2]? with
    | some red, some green, some blue => .ok ⟨red, green, blue⟩
    | _, _, _ => .error .pixelMissing
  else .error (.pixelOutside x y .image i.width i.height)

/-! ## Rendering -/

/-- Bytes, so many times. No bytes are still none, however often they are repeated. -/
def copies (bytes : ByteArray) (count : Nat) : ByteArray :=
  if bytes.isEmpty then .empty else Nat.repeat (· ++ bytes) count .empty

/-- The line of pixels that a row of a grid becomes. -/
def line (palette : Palette) (scale : Nat) (row : List Int) : ByteArray :=
  row.foldl (fun bytes value => bytes ++ copies (palette.colour value).bytes scale) .empty

/-- The pixels of earlier rows of a grid, and behind them those of one more row. Even a row without
values is repeated. -/
def addRow (room : Room) (palette : Palette) (scale : Nat) (pixels : ByteArray) (row : List Int) :
    Except Error ByteArray := do
  if row ≠ [] then needCopies room 3 scale
  findRoom room (3 * scale * row.length)
  let line := line palette scale row
  needCopies room line.size scale
  findRoom room (pixels.size + line.size * scale)
  return pixels ++ copies line scale

/-- The image of a grid. The first row of the grid decides how wide it is. -/
def render (room : Room) (palette : Palette) (grid : Grid) (scale : Int) : Except Error Image :=
  if scale ≤ 0 then .error .scaleNotPositive
  else if grid.isEmpty then .error .gridEmpty
  else do
    let pixels ← grid.foldlM (addRow room palette scale.toNat) .empty
    return ⟨(grid.headD []).length * scale.toNat, grid.length * scale.toNat, pixels⟩

end Image

end Chip8
