import Chip8.Error
import Chip8.Text.Value

/-!
# Readings

Values as a host reports them. Nothing keeps a device from reporting a value of the wrong kind, so
whatever is done with a reading may fail. Truth values count as numbers, and numbers are compared by
their exact values (`same_whole`).
-/

namespace Chip8

/-- How a number compares with a limit. NaN does in no way. -/
def Number.Scalar.compares (n : Scalar) (comparison : Comparison) (limit : Rat) : Bool :=
  match comparison with
  | .below => n.isBelow limit
  | .above => n.isAbove limit
  | .atMost => n.isBelow limit || n.value = some limit

/-- A value that a host reports. -/
inductive Reading where
  | nothing
  | flag (on : Bool)
  | number (n : Number.Scalar)
  | text (s : String)
  | list (items : List Reading)
  /-- Values with names, which ascend. -/
  | record (names : List String) (values : List Reading)
  deriving Inhabited, Repr

namespace Reading

def whole (n : Int) : Reading := .number (.whole n)

def kind : Reading → ValueKind
  | nothing => .nothing
  | flag _ => .flag
  | number (.whole _) => .whole
  | number (.double _) => .double
  | text _ => .text
  | list _ => .list
  | record _ _ => .record

/-- The number of a reading; a truth value counts as one or zero. -/
def number? : Reading → Option Number.Scalar
  | flag on => some (.whole (if on then 1 else 0))
  | number n => some n
  | _ => none

/-- The parts of a reading that can be taken apart. -/
def parts? : Reading → Option (List Reading)
  | text s => some (s.toList.map fun c => .text c.toString)
  | list items => some items
  | record names _ => some (names.map .text)
  | _ => none

/-- The two parts of a reading that should have two. -/
def pair (r : Reading) : Except Error (Reading × Reading) :=
  match r.parts? with
  | none => .error (.noParts r.kind)
  | some [first, second] => .ok (first, second)
  | some parts => .error (if parts.length < 2 then .tooFewParts parts.length else .tooManyParts)

@[simp] theorem pair_list (first second : Reading) :
    (list [first, second]).pair = .ok (first, second) := rfl

/-- Whether a reading can be looked up. -/
def isKey : Reading → Bool
  | list _ | record _ _ => false
  | _ => true

mutual

/-- Whether two readings have the same value. -/
def same : Reading → Reading → Bool
  | nothing, nothing => true
  | text s, text t => s = t
  | list items, list others => sameItems items others
  | record names values, record others otherValues =>
    names = others && sameItems values otherValues
  | r, s =>
    match r.number?, s.number? with
    | some m, some n => m.same n
    | _, _ => false

/-- Whether the readings of two lists have the same values. -/
def sameItems : List Reading → List Reading → Bool
  | [], [] => true
  | r :: rs, s :: ss => r.same s && sameItems rs ss
  | _, _ => false

end

theorem same_whole (m n : Int) : (whole m).same (whole n) = decide (m = n) := rfl

/-- How a reading compares with a limit of a kind. -/
def compares (comparison : Comparison) (kind : ValueKind) (limit : Rat) (r : Reading) :
    Except Error Bool :=
  match r.number? with
  | none => .error (.notOrdered comparison r.kind kind)
  | some n => .ok (n.compares comparison limit)

@[simp] theorem compares_number (comparison : Comparison) (kind : ValueKind) (limit : Rat)
    (n : Number.Scalar) :
    (number n).compares comparison kind limit = .ok (n.compares comparison limit) := rfl

/-- The number of a reading that should number one of `count` things, if it is one of theirs. -/
def index? (r : Reading) (count : Nat) : Except Error (Option Nat) :=
  match r.number? with
  | none => .error (.notOrdered .atMost .whole r.kind)
  | some (.whole n) => .ok (if 0 ≤ n ∧ n < count then some n.toNat else none)
  | some (.double x) =>
    match Number.exactValue x with
    | some v => if 0 ≤ v ∧ v < count then .error (.notANumber .double) else .ok none
    | none => .ok none

mutual

def written : Reading → List Char
  | nothing => Text.Value.absent.shown
  | flag on => (Text.Value.flag on).shown
  | number (.whole n) => (Text.Value.int n).shown
  | number (.double x) => (Text.Value.double x).shown
  | text s => (Text.Value.text s).shown
  | list items => '[' :: [',', ' '].intercalate (writtenItems items) ++ [']']
  | record names values =>
    let entry (name : String) (value : List Char) : List Char :=
      (Text.Value.text name).shown ++ ':' :: ' ' :: value
    '\x7b' :: [',', ' '].intercalate (List.zipWith entry names (writtenItems values)) ++ ['\x7d']

/-- The readings of a list as they are written. -/
def writtenItems : List Reading → List (List Char)
  | [] => []
  | r :: rs => r.written :: writtenItems rs

end

mutual

/-- Whether all whole numbers of a reading can be written. -/
def isWritable : Reading → Bool
  | number (.whole n) => (Text.Value.int n).isWritable
  | list items => allWritable items
  | record _ values => allWritable values
  | _ => true

def allWritable : List Reading → Bool
  | [] => true
  | r :: rs => r.isWritable && allWritable rs

end

/-- The reading as a value of a message. -/
def value : Reading → Text.Value
  | nothing => .absent
  | flag on => .flag on
  | number (.whole n) => .int n
  | number (.double x) => .double x
  | text s => .text s
  | r => if r.isWritable then .written (.ofList r.written) else .unwritable

/-- The reading as a value of the interpreter's own messages. No host numbers its devices so high
that they could not be written. -/
def label : Reading → Text.Value
  | text s => .text s
  | r => .written (.ofList r.written)

@[simp] theorem isWritable_label (r : Reading) : r.label.isWritable = true := by
  cases r <;> rfl

/-- A part of a report, which has to be there. -/
def need (name : String) (part : Option Reading) : Except Error Reading :=
  match part with
  | some r => .ok r
  | none => .error (.memberLacking .report name)

end Reading

end Chip8
