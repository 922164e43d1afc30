import Chip8.Text.Printable
import Chip8.Text.Hex

/-!
# Quoted texts

A text in quotes, as messages show a value that was given as text. Apostrophes enclose it, unless
the text holds an apostrophe and no double quote. Backslash and the enclosing quote are escaped,
line feed, carriage return and tab have letters, and what cannot be shown is written by its code
point.
-/

namespace Chip8.Text

/-- The quote that encloses `cs`. -/
def enclosing (cs : List Char) : Char :=
  if cs.contains '\'' && !cs.contains '"' then '"' else '\''

/-- A code point of `width` hexadecimal digits. -/
def codePoint (width : Nat) (c : Char) : List Char :=
  padLeft width '0' (hexDigits false c.toNat)

/-- The character `c` written by its code point. -/
def byCodePoint (c : Char) : List Char :=
  if c.toNat < 0x100 then '\\' :: 'x' :: codePoint 2 c
  else if c.toNat < 0x10000 then '\\' :: 'u' :: codePoint 4 c
  else '\\' :: 'U' :: codePoint 8 c

/-- A text in which the characters beyond ASCII are written by their code points. -/
def asciiOnly (cs : List Char) : List Char :=
  cs.flatMap fun c => if c.toNat < 0x80 then [c] else byCodePoint c

/-- The character `c` inside the quotes `quote`. -/
def escape (quote c : Char) : List Char :=
  if c = quote ∨ c = '\\' then ['\\', c]
  else if c = '\n' then ['\\', 'n']
  else if c = '\r' then ['\\', 'r']
  else if c = '\t' then ['\\', 't']
  else if isPrintable c then [c]
  else byCodePoint c

def quoted (text : String) : String :=
  let cs := text.toList
  let quote := enclosing cs
  .ofList (quote :: cs.flatMap (escape quote) ++ [quote])

end Chip8.Text
