import Chip8.Byte
import Chip8.Instruction.Basic
import Chip8.Outcome

/-!
# Traces

A recorder keeps the last entries of a trace in a ring of slots: each entry goes into the next
slot, and after the last slot comes the first again.
-/

namespace Chip8

open Chip8.Text

/-- The processor around one step. -/
structure TraceEntry where
  pc : Nat
  opcode : Option Nat
  mnemonic : String
  i : Nat
  sp : Int
  delay : Nat
  sound : Nat
  registers : List Nat
  awaitingKey : Bool
  note : String
  deriving DecidableEq, Repr

namespace TraceEntry

/-- The entry of values that need not be in range: words keep their low sixteen bits, bytes their
low eight. -/
def ofValues (pc i : Int) (registers : List Int) (opcode : Option Int) (sp delay sound : Int)
    (awaitingKey : Bool) (mnemonic note : String) : TraceEntry :=
  { pc := lowWord pc
    opcode := opcode.map lowWord
    mnemonic
    i := lowWord i
    sp
    delay := lowByte delay
    sound := lowByte sound
    registers := registers.map lowByte
    awaitingKey
    note }

/-- What the entry says beside its numbers. -/
def flags (e : TraceEntry) : String :=
  let flags := (if e.awaitingKey then ["KEY"] else []) ++ (if e.note = "" then [] else [e.note])
  if flags.isEmpty then "-" else ",".intercalate flags

def format (e : TraceEntry) : String :=
  let opcode := match e.opcode with
    | some word => wordText word
    | none => "----"
  let mnemonic := if e.mnemonic = "" then "?" else e.mnemonic
  "pc=" ++ wordText e.pc ++ " opcode=" ++ opcode ++ " " ++
    .ofList (padRight 4 ' ' mnemonic.toList) ++ " I=" ++ wordText e.i ++ " SP=" ++
    twoDigits e.sp ++ " DT=" ++ byteText e.delay ++ " ST=" ++ byteText e.sound ++ " V=[" ++
    " ".intercalate (e.registers.map fun (value : Nat) => byteText value) ++ "] flags=" ++ e.flags

end TraceEntry

/-- A ring of slots. `next` is the slot of the next entry and `count` the number of entries. -/
structure TraceRecorder where
  slots : Array (Option TraceEntry)
  next : Nat
  count : Nat
  deriving DecidableEq, Repr

namespace TraceRecorder

/-- The number of entries that fit. -/
def capacity (r : TraceRecorder) : Nat := r.slots.size

/-- A recorder without entries. -/
def blank (capacity : Nat) : TraceRecorder := ⟨Array.replicate capacity none, 0, 0⟩

/-- A recorder of the given capacity, if there is room for it. -/
def create (room : Room) (capacity : Int) : Except Error TraceRecorder :=
  if capacity ≤ 0 then .error .capacityNotPositive
  else (needRoom room capacity.toNat).map fun _ => blank capacity.toNat

/-- The recorder with one more entry, in place of the oldest one if it was full. -/
def record (r : TraceRecorder) (e : TraceEntry) : TraceRecorder :=
  { slots := r.slots.setIfInBounds r.next (some e)
    next := (r.next + 1) % r.capacity
    count := if r.count < r.capacity then r.count + 1 else r.count }

/-- The number of entries that a limit admits; a negative limit admits none. -/
def limited (r : TraceRecorder) (limit : Option Int) : Nat :=
  match limit with
  | none => r.count
  | some n => min r.count n.toNat

/-- The slot of an entry, counted from the oldest of the last `count` entries. -/
def slotOf (r : TraceRecorder) (count offset : Nat) : Nat :=
  (((r.next : Int) - count + offset) % r.capacity).toNat

/-- The last entries, as many as the limit admits, the oldest first. -/
def entries (r : TraceRecorder) (limit : Option Int) : List TraceEntry :=
  let count := r.limited limit
  (List.range count).filterMap fun offset => (r.slots[r.slotOf count offset]?).join

def last (r : TraceRecorder) : Option TraceEntry :=
  if r.count = 0 then none else (r.slots[r.slotOf 1 0]?).join

/-- The last entries as lines. -/
def format (r : TraceRecorder) (limit : Option Int) : List String :=
  (r.entries limit).map TraceEntry.format

/-- Prints the last entries under a category. -/
def dump {σ : Type} (dbg : Debug.Printer) (category : String) (limit : Option Int)
    (r : TraceRecorder) : Action σ Unit :=
  (r.format limit).forM fun line => Action.say dbg category line []

/-- The recorder without its entries. -/
def clear (r : TraceRecorder) : TraceRecorder := blank r.capacity

@[simp] theorem capacity_record (r : TraceRecorder) (e : TraceEntry) :
    (r.record e).capacity = r.capacity := by
  simp [record, capacity]

end TraceRecorder

end Chip8
