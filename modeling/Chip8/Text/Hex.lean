/-!
# Hexadecimal numerals

Numbers in base sixteen as the debug lines, the error messages and the trace write them. A width
counts every character of the numeral: a minus sign and the mark `0x` take their places from it,
and zeros fill the rest.
-/

namespace Chip8.Text

/-- `cs` filled on the left with `fill` up to a length of `width`. -/
def padLeft {α : Type} (width : Nat) (fill : α) (cs : List α) : List α :=
  List.replicate (width - cs.length) fill ++ cs

/-- `cs` filled on the right with `fill` up to a length of `width`. -/
def padRight {α : Type} (width : Nat) (fill : α) (cs : List α) : List α :=
  cs ++ List.replicate (width - cs.length) fill

/-- How a hexadecimal numeral is written. -/
structure HexForm where
  width : Nat
  /-- The digits above nine are capitals. -/
  capital : Bool
  /-- The digits follow the mark `0x`. -/
  marked : Bool

/-- The digits of `n` in base sixteen, most significant first. -/
def hexDigits (capital : Bool) (n : Nat) : List Char :=
  let digits := Nat.toDigits 16 n
  if capital then digits.map Char.toUpper else digits

/-- The numeral of `n`: sign, mark, then the digits filled with zeros. -/
def hexNumeral (form : HexForm) (n : Int) : String :=
  let sign := if n < 0 then ['-'] else []
  let mark := if form.marked then ['0', 'x'] else []
  let digits := hexDigits form.capital n.natAbs
  .ofList (sign ++ mark ++ padLeft (form.width - sign.length - mark.length) '0' digits)

/-- Addresses in messages: `0x0fff`, `0x12345`, `-0x001`. -/
def addressText (n : Int) : String := hexNumeral ⟨6, false, true⟩ n

/-- Words in reports: `0FFF`. -/
def wordText (n : Int) : String := hexNumeral ⟨4, true, false⟩ n

/-- Bytes in the trace: `0F`. -/
def byteText (n : Int) : String := hexNumeral ⟨2, true, false⟩ n

/-- A decimal numeral of at least two characters: `07`, `-7`, `123`. -/
def twoDigits (n : Int) : String :=
  let sign := if n < 0 then ['-'] else []
  .ofList (sign ++ padLeft (2 - sign.length) '0' (Nat.toDigits 10 n.natAbs))

end Chip8.Text
