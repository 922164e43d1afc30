/-!
# Font

The glyphs of the sixteen hexadecimal digits, four pixels wide and five rows high. Each row is a
byte with its pixels in the high bits.
-/

namespace Chip8.Font

/-- Rows of a glyph. -/
def glyphRows : Nat := 5

/-- The rows of all glyphs, in the order of the digits. -/
def rows : List UInt8 :=
  [0xF0, 0x90, 0x90, 0x90, 0xF0,  -- 0
   0x20, 0x60, 0x20, 0x20, 0x70,  -- 1
   0xF0, 0x10, 0xF0, 0x80, 0xF0,  -- 2
   0xF0, 0x10, 0xF0, 0x10, 0xF0,  -- 3
   0x90, 0x90, 0xF0, 0x10, 0x10,  -- 4
   0xF0, 0x80, 0xF0, 0x10, 0xF0,  -- 5
   0xF0, 0x80, 0xF0, 0x90, 0xF0,  -- 6
   0xF0, 0x10, 0x20, 0x40, 0x40,  -- 7
   0xF0, 0x90, 0xF0, 0x90, 0xF0,  -- 8
   0xF0, 0x90, 0xF0, 0x10, 0xF0,  -- 9
   0xF0, 0x90, 0xF0, 0x90, 0x90,  -- A
   0xE0, 0x90, 0xE0, 0x90, 0xE0,  -- B
   0xF0, 0x80, 0x80, 0x80, 0xF0,  -- C
   0xE0, 0x90, 0x90, 0x90, 0xE0,  -- D
   0xF0, 0x80, 0xF0, 0x80, 0xF0,  -- E
   0xF0, 0x80, 0xF0, 0x80, 0x80]  -- F

/-- The offset of a digit's glyph from the start of the font. Only the low four bits of the digit
count. -/
def glyphOffset (digit : Int) : Nat := (digit % 16).toNat * glyphRows

/-- The rows of a digit's glyph. -/
def glyph (digit : Int) : List UInt8 := (rows.drop (glyphOffset digit)).take glyphRows

@[simp] theorem length_rows : rows.length = 80 := rfl

theorem glyphOffset_le (digit : Int) : glyphOffset digit ≤ 75 := by
  unfold glyphOffset glyphRows
  omega

@[simp] theorem length_glyph (digit : Int) : (glyph digit).length = glyphRows := by
  have := glyphOffset_le digit
  simp only [glyph, List.length_take, List.length_drop, length_rows, glyphRows]
  omega

end Chip8.Font
