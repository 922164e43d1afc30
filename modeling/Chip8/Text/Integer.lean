import Chip8.Text.Blank

/-!
# Whole numbers in texts

A whole number is written with an optional sign and decimal digits of any script, between which
single underscores may stand. White space may surround it; of the ASCII characters only the tab,
the space and the line breaks are white space here. No more than 4300 digits are read.
-/

namespace Chip8.Text

/-- The zeros of the scripts of Unicode 14 that have decimal digits; the other digits follow their
zero in order. -/
def zeroDigits : List Nat :=
  [0x30, 0x660, 0x6F0, 0x7C0, 0x966, 0x9E6, 0xA66, 0xAE6, 0xB66, 0xBE6, 0xC66, 0xCE6, 0xD66,
   0xDE6, 0xE50, 0xED0, 0xF20, 0x1040, 0x1090, 0x17E0, 0x1810, 0x1946, 0x19D0, 0x1A80, 0x1A90,
   0x1B50, 0x1BB0, 0x1C40, 0x1C50, 0xA620, 0xA8D0, 0xA900, 0xA9D0, 0xA9F0, 0xAA50, 0xABF0,
   0xFF10, 0x104A0, 0x10D30, 0x11066, 0x110F0, 0x11136, 0x111D0, 0x112F0, 0x11450, 0x114D0,
   0x11650, 0x116C0, 0x11730, 0x118E0, 0x11950, 0x11C50, 0x11D50, 0x11DA0, 0x16A60, 0x16AC0,
   0x16B50, 0x1D7CE, 0x1D7D8, 0x1D7E2, 0x1D7EC, 0x1D7F6, 0x1E140, 0x1E2F0, 0x1E950, 0x1FBF0]

/-- The value of a decimal digit. -/
def decimalDigit? (c : Char) : Option Nat :=
  (zeroDigits.find? fun first => first ≤ c.toNat ∧ c.toNat < first + 10).map (c.toNat - ·)

/-- White space around a number. -/
def isNumberBlank (c : Char) : Bool :=
  (9 ≤ c.toNat && c.toNat ≤ 13) || c == ' ' || (128 ≤ c.toNat && isBlank c)

/-- The digits of a number: its value so far, how many there were, and whether the last character
was one. -/
def readDigits (value count : Nat) (afterDigit : Bool) : List Char → Option (Nat × Nat)
  | [] => if afterDigit then some (value, count) else none
  | c :: cs =>
    match decimalDigit? c with
    | some digit => readDigits (10 * value + digit) (count + 1) true cs
    | none => if c = '_' ∧ afterDigit then readDigits value count false cs else none

/-- The most digits that are read. -/
def mostDigits : Nat := 4300

/-- The value of an unsigned number. -/
def readNatural (cs : List Char) : Option Nat :=
  match readDigits 0 0 false cs with
  | some (value, count) => if count ≤ mostDigits then some value else none
  | none => none

/-- The value of a number. -/
def readInteger (text : String) : Option Int :=
  match trim isNumberBlank text.toList with
  | '-' :: cs => (readNatural cs).map fun (n : Nat) => -(n : Int)
  | '+' :: cs => (readNatural cs).map fun (n : Nat) => (n : Int)
  | cs => (readNatural cs).map fun (n : Nat) => (n : Int)

/-- `cs` without a line feed at its end. -/
def withoutLineFeed (cs : List Char) : List Char :=
  if cs.getLast? = some '\n' then cs.dropLast else cs

/-- Whether a text is a minus sign with digits, among which one point may stand before the last
digit. A line feed may end the text. -/
def isNegativeNumber (text : String) : Bool :=
  let isDigit := fun c => (decimalDigit? c).isSome
  match withoutLineFeed text.toList with
  | '-' :: cs =>
    match cs.dropWhile isDigit with
    | [] => cs ≠ []
    | '.' :: rest => rest ≠ [] && rest.all isDigit
    | _ => false
  | _ => false

end Chip8.Text
