import Chip8.Number.Shortest
import Chip8.Text.Quoted

/-!
# Values of messages

What a message can show: a number, a text, a truth value or nothing, as running text or as a member
of a list of values, where texts stand in quotes. Any other value is given by the way it is written.

Whole numbers of more than `greatestDigits` decimal digits cannot be written (`Value.isWritable`).
The interpreter never counts that far: its own numbers are taken to be short enough.
-/

namespace Chip8.Text

/-- The most decimal digits with which a whole number is written. -/
def greatestDigits : Nat := 4300

inductive Value where
  | int (n : Int)
  /-- One of the interpreter's own numbers. -/
  | own (n : Int)
  | double (x : Float)
  | text (s : String)
  | flag (b : Bool)
  | absent
  /-- A value that is written the same way wherever it stands. -/
  | written (s : String)
  /-- A value with a number inside that cannot be written. -/
  | unwritable
  deriving DecidableEq, Repr

namespace Value

/-- Whether the value can be written in base ten. -/
def isWritable : Value → Bool
  | int n => n.natAbs < Nat.pow 10 greatestDigits
  | unwritable => false
  | _ => true

/-- The value as running text, if it can be written. -/
def plain : Value → List Char
  | int n | own n => (toString n).toList
  | double x => Number.written x
  | text s => s.toList
  | flag b => if b then "True".toList else "False".toList
  | absent => "None".toList
  | written s => s.toList
  | unwritable => []

/-- The value as a member of a list of values: texts stand in quotes. -/
def shown : Value → List Char
  | text s => (quoted s).toList
  | v => v.plain

/-- The whole number of a value; a flag counts as one or zero. -/
def number? : Value → Option Int
  | int n | own n => some n
  | flag b => some (if b then 1 else 0)
  | double _ | text _ | absent | written _ | unwritable => none

@[simp] theorem isWritable_own (n : Int) : (own n).isWritable = true := rfl

@[simp] theorem isWritable_text (s : String) : (text s).isWritable = true := rfl

@[simp] theorem isWritable_flag (b : Bool) : (flag b).isWritable = true := rfl

end Value

/-- Values between round brackets; a single one is followed by a comma. -/
def valueList (values : List Value) : List Char :=
  let body := [',', ' '].intercalate (values.map Value.shown)
  '(' :: body ++ (if values.length = 1 then [',', ')'] else [')'])

end Chip8.Text
