import Chip8.Byte
import Chip8.Error

/-!
# Palettes

The two colours of a picture.
-/

namespace Chip8

structure Rgb where
  red : UInt8
  green : UInt8
  blue : UInt8
  deriving DecidableEq, Repr

/-- The colours of pixels that are off and on. -/
structure Palette where
  background : Rgb
  foreground : Rgb
  deriving DecidableEq, Repr

namespace Palette

/-- White on black. -/
def monochrome : Palette := ⟨⟨0, 0, 0⟩, ⟨0xFF, 0xFF, 0xFF⟩⟩

/-- The colours of an amber screen. -/
def amber : Palette := ⟨⟨0x1A, 0x10, 0x00⟩, ⟨0xFF, 0xB0, 0x00⟩⟩

def named : List (String × Palette) := [("amber", amber), ("mono", monochrome)]

def find? (name : String) : Option Palette := named.lookup name

/-- The colour of three channels, each of which counts by its low byte. -/
def colour? : List Int → Option Rgb
  | [red, green, blue] => some ⟨toCell red, toCell green, toCell blue⟩
  | _ => none

/-- The palette of a list of colours: exactly two colours of exactly three channels. -/
def validate (colours : List (List Int)) : Except Error Palette :=
  match colours with
  | [background, foreground] =>
    match colour? background, colour? foreground with
    | some background, some foreground => .ok ⟨background, foreground⟩
    | _, _ => .error .paletteColour
  | _ => .error .paletteSize

/-- The colour of a pixel given as a number. -/
def colour (p : Palette) (value : Int) : Rgb := if value = 0 then p.background else p.foreground

end Palette

end Chip8
