import Chip8.Number.Double
import Chip8.Number.Notation
import Chip8.Room
import Chip8.Text.CodePoint
import Chip8.Text.Directive
import Chip8.Text.Value

/-!
# Messages

A message whose directives its values fill in, in order. A message that its values do not fit, too
few or too many or of the wrong kind, is followed by the list of the values instead. Writing a
message fails where a number is too great for its directive, where there is no room for what a
directive asks for, and where the list of the values has to be written and one of them cannot be.
What goes wrong first decides.

A message is first cut into fields, which settles whether the values fit; a field can always be
written.
-/

namespace Chip8.Text

/-- What keeps values from filling a message. -/
inductive Trouble where
  /-- The values do not fit the directives. -/
  | misfit
  | failed (e : Error)
  deriving DecidableEq, Repr

/-! ## Fields -/

/-- Which notation a number with a point has. -/
inductive PointStyle where
  | fixed
  | scientific
  | general
  deriving DecidableEq, Repr

/-- What stands in a field. -/
inductive Content where
  | text (cs : List Char)
  | codePoint (p : CodePoint)
  /-- A whole number in the base that a letter stands for, with a least number of digits. -/
  | whole (n : Int) (letter : Char) (least : Nat)
  /-- A number with a point; the notation is the one of a letter. -/
  | point (negative : Bool) (size : Number.Expansion) (style : PointStyle) (mark : Char)
    (precision : Nat)
  /-- A number that has no digits. -/
  | unending (negative : Bool) (name : List Char)
  deriving DecidableEq, Repr

/-- The place that a value has in a message. -/
structure Field where
  flags : Flags
  width : Nat
  content : Content
  deriving DecidableEq, Repr

/-- A single character by itself. -/
def Field.literal (c : Char) : Field := ⟨⟨false, false, false, false, false⟩, 0, .text [c]⟩

def Flags.sign (f : Flags) (negative : Bool) : List Char :=
  if negative then ['-'] else if f.plus then ['+'] else if f.blank then [' '] else []

/-- The digits of a number in the base that a letter stands for. -/
def digitsOf (letter : Char) (n : Nat) : List Char :=
  match letter with
  | 'o' => Nat.toDigits 8 n
  | 'x' => hexDigits false n
  | 'X' => hexDigits true n
  | _ => Nat.toDigits 10 n

/-- Whether a letter stands for a base other than ten. -/
def isOtherBase (letter : Char) : Bool := ['o', 'x', 'X'].contains letter

/-- The mark of the base that a letter stands for. -/
def Flags.base (f : Flags) (letter : Char) : List Char :=
  if f.marked && isOtherBase letter then ['0', letter] else []

def PointStyle.write (form : Number.PointForm) (precision : Nat) (size : Number.Expansion) :
    PointStyle → List Char
  | fixed => form.fixed precision size
  | scientific => form.scientific precision size
  | general => form.general precision size

/-- Text on one side of a field, and blanks on the other. -/
def Flags.aligned {α : Type} (f : Flags) (width : Nat) (blank : α) (cs : List α) : List α :=
  if f.left then padRight width blank cs else padLeft width blank cs

/-- A number in a field. Zeros stand between sign and mark and the digits. -/
def Flags.number (f : Flags) (width : Nat) (head digits : List Char) : List Char :=
  if f.zeros && !f.left then head ++ padLeft (width - head.length) '0' digits
  else f.aligned width ' ' (head ++ digits)

def Field.write (f : Field) : List CodePoint :=
  match f.content with
  | .text cs => codePoints (f.flags.aligned f.width ' ' cs)
  | .codePoint p => f.flags.aligned f.width (.char ' ') [p]
  | .whole n letter least =>
    codePoints (f.flags.number f.width (f.flags.sign (n < 0) ++ f.flags.base letter)
      (padLeft least '0' (digitsOf letter n.natAbs)))
  | .point negative size style mark precision =>
    codePoints (f.flags.number f.width (f.flags.sign negative)
      (style.write ⟨mark, f.flags.marked⟩ precision size))
  | .unending negative name =>
    codePoints (f.flags.number f.width (f.flags.sign negative) name)

/-! ## Values in fields -/

/-- The greatest precision that can be written down. -/
def greatestPrecision : Nat := 0x7FFFFFFF

/-- The whole number that a directive needs. -/
def needNumber (v : Value) : Except Trouble Int :=
  match v.number? with
  | some n => .ok n
  | none => .error .misfit

/-- The whole number that is left of the value without its decimals. -/
def needWhole (v : Value) : Except Trouble Int :=
  match v with
  | .double x =>
    match Number.exactValue x with
    | some r => .ok (Number.truncate r)
    | none => .error (if x.isNaN then .misfit else .failed .infinityNotWhole)
  | v => needNumber v

/-- A value as text, cut off behind as many characters as the precision says. -/
def textContent (precision : Option Nat) (cs : List Char) (v : Value) : Except Trouble Content :=
  if v.isWritable then .ok (.text (cs.take (precision.getD cs.length))) else .error .misfit

/-- Room for what a directive asks for. -/
def needSpace (room : Room) (cells : Nat) : Except Trouble Unit :=
  (needRoom room cells).mapError .failed

/-- The whole number that a base takes. Only base ten takes numbers with decimals, and cuts them
off. -/
def needInBase (letter : Char) (v : Value) : Except Trouble Int :=
  if isOtherBase letter then needNumber v else needWhole v

/-- A whole number, with at least as many digits as the precision asks for. Only in base ten a
number can be too long. -/
def wholeContent (room : Room) (precision : Option Nat) (letter : Char) (v : Value) :
    Except Trouble Content := do
  let n ← needInBase letter v
  let least := precision.getD 0
  if greatestPrecision - 3 < least then throw (.failed .precisionTooLarge)
  if !isOtherBase letter && !v.isWritable then throw .misfit
  needSpace room least
  return .whole n letter least

/-- The double that a directive needs: the value or the nearest to it. -/
def needDouble (v : Value) : Except Trouble Float :=
  match v with
  | .double x => .ok x
  | v => do
    match Number.nearestDouble (← needNumber v) with
    | some x => return x
    | none => throw (.failed .numberTooGreat)

/-- A number with a decimal point. In scientific notation the greatest precision counts as zero. -/
def pointContent (room : Room) (precision : Option Nat) (letter : Char) (v : Value) :
    Except Trouble Content := do
  let x ← needDouble v
  let negative := Number.isNegative x
  match Number.exactValue x with
  | none =>
    let name := (Number.written x).filter (· ≠ '-')
    return .unending negative (if letter.isUpper then name.map Char.toUpper else name)
  | some r =>
    let style := match letter.toLower with
      | 'e' => .scientific
      | 'f' => .fixed
      | _ => .general
    let asked := precision.getD 6
    let places := if style = .scientific ∧ asked = greatestPrecision then 0 else asked
    needSpace room places
    return .point negative (.ofRat r) style (if letter.isUpper then 'E' else 'e') places

/-- A single character, given by itself or by its code point. -/
def characterContent (v : Value) : Except Trouble Content :=
  match v with
  | .text s => if s.length = 1 then .ok (.text s.toList) else .error .misfit
  | v => do
    let n ← needNumber v
    if n < 0 ∨ 0x110000 ≤ n then throw (.failed .noSuchCharacter)
    return .codePoint (.ofNat n.toNat)

/-- A value as the letter of a directive asks for it. -/
def content (room : Room) (precision : Option Nat) (letter : Char) (v : Value) :
    Except Trouble Content :=
  match letter with
  | 's' => textContent precision v.plain v
  | 'r' => textContent precision v.shown v
  | 'a' => textContent precision (asciiOnly v.shown) v
  | 'c' => characterContent v
  | 'd' | 'i' | 'u' | 'o' | 'x' | 'X' => wholeContent room precision letter v
  | 'e' | 'E' | 'f' | 'F' | 'g' | 'G' => pointContent room precision letter v
  | _ => .error .misfit

/-! ## Filling in -/

/-- The next value and those behind it. -/
def nextValue : List Value → Except Trouble (Value × List Value)
  | [] => .error .misfit
  | v :: vs => .ok (v, vs)

/-- A measure in numbers, from `-most - 1` to `most`, and the values behind it. -/
def measured (most : Nat) (tooGreat : Error) (m : Option Measure) (values : List Value) :
    Except Trouble (Option Int × List Value) :=
  match m with
  | none => .ok (none, values)
  | some (.digits n) => if most < n then .error .misfit else .ok (some n, values)
  | some .ofValue => do
    let (v, rest) ← nextValue values
    let n ← needNumber v
    if n < -most - 1 ∨ most < n then throw (.failed tooGreat)
    return (some n, rest)

/-- The field of a directive and the values behind the ones that it shows. A negative width means
that the value stands on the left, the least one without a field; a negative precision counts as
zero. -/
def Directive.field (room : Room) (d : Directive) (values : List Value) :
    Except Trouble (Field × List Value) := do
  let (width, values) ← measured greatestCount .widthTooGreat d.width values
  let (precision, values) ← measured greatestPrecision .precisionTooGreat d.precision values
  match d.letter with
  | none => throw .misfit
  | some letter =>
    let (v, values) ← nextValue values
    let content ← content room (precision.map Int.toNat) letter v
    let width := width.getD 0
    let flags := { d.flags with left := d.flags.left || width < 0 }
    let width := if greatestCount < width.natAbs then 0 else width.natAbs
    needSpace room width
    return (⟨flags, width, content⟩, values)

def fill (room : Room) : List Piece → List Value → Except Trouble (List Field)
  | [], [] => .ok []
  | [], _ :: _ => .error .misfit
  | .literal c :: ps, vs => (.literal c :: ·) <$> fill room ps vs
  | .directive d :: ps, vs => do
    let (field, vs) ← d.field room vs
    return field :: (← fill room ps vs)

/-- The text of a message. Without values it is the message as it stands. -/
def compose (room : Room) (message : String) (values : List Value) :
    Except Error (List CodePoint) :=
  if values.isEmpty then .ok (codePoints message.toList)
  else match fill room (pieces message.toList) values with
    | .ok fields => .ok (fields.flatMap Field.write)
    | .error .misfit =>
      if values.all Value.isWritable then
        .ok (codePoints (message.toList ++ ' ' :: valueList values))
      else .error .tooManyDigits
    | .error (.failed e) => .error e

end Chip8.Text
