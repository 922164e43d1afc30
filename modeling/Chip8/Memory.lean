import Chip8.Data
import Chip8.Font
import Chip8.Room

/-!
# Memory

A flat array of bytes with the font at its bottom. Programs start at `0x200`. An access to an
address outside the array fails; a block access looks at the two ends of the block first.

The writing operations return the memory they leave behind with their answer, also when they fail.
Data that does not fit is refused before it is written out (`writeData_eq`, `loadData_eq`).
-/

namespace Chip8

/-- Where the font lies. -/
def fontStart : Nat := 0x000

/-- Where programs start. -/
def programStart : Nat := 0x200

def memorySize : Nat := 0x1000

/-- The longest program of a memory of the usual size. -/
def maxProgramSize : Nat := memorySize - programStart

/-- A memory that reaches past the start of programs. -/
structure Memory where
  cells : Array UInt8
  room : programStart < cells.size

namespace Memory

/-- The number of cells. -/
def size (m : Memory) : Nat := m.cells.size

/-- The cells with `bytes` in place of as many cells from `start` on. Where fewer cells are left, the
array grows. -/
def overwriteCells (cells : Array UInt8) (start : Nat) (bytes : List UInt8) : Array UInt8 :=
  (cells.toList.take start ++ bytes ++ cells.toList.drop (start + bytes.length)).toArray

theorem le_size_overwriteCells (cells : Array UInt8) (start : Nat) (bytes : List UInt8) :
    cells.size ≤ (overwriteCells cells start bytes).size := by
  simp [overwriteCells]
  omega

theorem size_overwriteCells {cells : Array UInt8} {start : Nat} {bytes : List UInt8}
    (h : start + bytes.length ≤ cells.size) :
    (overwriteCells cells start bytes).size = cells.size := by
  simp [overwriteCells]
  omega

/-- Cells of which only the font is not zero. -/
def blankCells (size : Nat) : Array UInt8 :=
  overwriteCells (Array.replicate size 0) fontStart Font.rows

theorem font_fits {size : Nat} (h : programStart < size) :
    fontStart + Font.rows.length ≤ (Array.replicate size (0 : UInt8)).size := by
  rw [Array.size_replicate, Font.length_rows]
  unfold programStart at h
  unfold fontStart
  omega

theorem size_blankCells {size : Nat} (h : programStart < size) : (blankCells size).size = size := by
  rw [blankCells, size_overwriteCells (font_fits h), Array.size_replicate]

/-- A memory that holds nothing but the font. -/
def blank (size : Nat) (h : programStart < size) : Memory :=
  ⟨blankCells size, by rw [size_blankCells h]; exact h⟩

/-- The usual memory, holding nothing but the font. -/
def standard : Memory := blank memorySize (by decide)

/-- A memory of the given size, if there is room for it. -/
def create (room : Room) (size : Int) : Except Error Memory :=
  if h : programStart < size.toNat then
    (needRoom room size.toNat).map fun _ => blank size.toNat h
  else .error (.noRoomForPrograms size)

/-! ## Single cells -/

/-- The cell number of an address. -/
def cell (m : Memory) (address : Int) : Except Error (Fin m.cells.size) :=
  if h : 0 ≤ address ∧ address < m.cells.size then .ok ⟨address.toNat, by omega⟩
  else .error (.addressOutside address m.size)

def load8 (m : Memory) (address : Int) : Except Error UInt8 :=
  match m.cell address with
  | .ok i => .ok m.cells[i]
  | .error e => .error e

/-- The two bytes from an address on, the high one first. -/
def load16 (m : Memory) (address : Int) : Except Error Nat :=
  match m.load8 address with
  | .error e => .error e
  | .ok high =>
    match m.load8 (address + 1) with
    | .error e => .error e
    | .ok low => .ok (high.toNat * 256 + low.toNat)

/-- Puts the low byte of `value` at an address. -/
def store8 (m : Memory) (address value : Int) : Except Error Unit × Memory :=
  match m.cell address with
  | .error e => (.error e, m)
  | .ok i => (.ok (), ⟨m.cells.set i (toCell value), by simpa using m.room⟩)

/-- Puts the low two bytes of `value` from an address on, the high one first. -/
def store16 (m : Memory) (address value : Int) : Except Error Unit × Memory :=
  match m.store8 address (value / 256) with
  | (.error e, m) => (.error e, m)
  | (.ok (), m) => m.store8 (address + 1) value

/-! ## Blocks -/

/-- The memory with `bytes` in place of the cells from `start` on. -/
def overwrite (m : Memory) (start : Nat) (bytes : List UInt8) : Memory :=
  ⟨overwriteCells m.cells start bytes,
    Nat.lt_of_lt_of_le m.room (le_size_overwriteCells m.cells start bytes)⟩

@[simp] theorem overwrite_nil (m : Memory) (start : Nat) : m.overwrite start [] = m := by
  simp [overwrite, overwriteCells]

theorem size_overwrite {m : Memory} {start : Nat} {bytes : List UInt8}
    (h : start + bytes.length ≤ m.size) : (m.overwrite start bytes).size = m.size :=
  size_overwriteCells h

/-- Whether a block of `length` cells from an address on lies in memory. A block without cells
lies everywhere. -/
def checkBlock (m : Memory) (address : Int) (length : Nat) : Except Error Unit :=
  if length = 0 then .ok ()
  else match m.cell address, m.cell (address + length - 1) with
    | .ok _, .ok _ => .ok ()
    | .error e, _ => .error e
    | _, .error e => .error e

/-- The bytes of a block. -/
def readBlock (m : Memory) (address length : Int) : Except Error (List UInt8) :=
  if length < 0 then .error .negativeLength
  else match m.checkBlock address length.toNat with
    | .error e => .error e
    | .ok () =>
      .ok (m.cells.extract address.toNat (address.toNat + length.toNat)).toList

/-- Puts the low bytes of `data` into a block. -/
def writeBlock (m : Memory) (address : Int) (data : List Int) : Except Error Unit × Memory :=
  match m.checkBlock address data.length with
  | .error e => (.error e, m)
  | .ok () => (.ok (), m.overwrite address.toNat (data.map toCell))

/-! ## Programs -/

/-- Copies a program of bytes to the start of programs and answers with its length. -/
def loadProgram (m : Memory) (program : List Int) : Except Error Nat × Memory :=
  if program.all isByte then
    if program.length > m.size - programStart then
      (.error (.programTooLarge program.length (m.size - programStart)), m)
    else (.ok program.length, m.overwrite programStart (program.map toCell))
  else (.error .notAByte, m)

/-! ## Data -/

/-- Puts the low bytes of data into a block. -/
def writeData (m : Memory) (address : Int) (d : Data) : Except Error Unit × Memory :=
  match m.checkBlock address d.length with
  | .error e => (.error e, m)
  | .ok () => m.writeBlock address d.toList

theorem writeData_eq (m : Memory) (address : Int) (d : Data) :
    m.writeData address d = m.writeBlock address d.toList := by
  unfold writeData
  split
  next h => simp [writeBlock, h]
  · rfl

/-- Copies a program of bytes to the start of programs and answers with its length. -/
def loadData (m : Memory) (program : Data) : Except Error Nat × Memory :=
  if program.allBytes then
    if program.length > m.size - programStart then
      (.error (.programTooLarge program.length (m.size - programStart)), m)
    else m.loadProgram program.toList
  else (.error .notAByte, m)

theorem loadData_eq (m : Memory) (program : Data) :
    m.loadData program = m.loadProgram program.toList := by
  unfold loadData
  split
  next hb =>
    split
    next hl =>
      rw [Data.allBytes_eq] at hb
      simp [loadProgram, hb, hl]
    · rfl
  next hb =>
    rw [Data.allBytes_eq] at hb
    simp [loadProgram, hb]

/-! ## Clearing and sizes -/

/-- Everything but the font becomes zero. -/
def clear (m : Memory) : Memory := blank m.size m.room

@[simp] theorem size_blank (size : Nat) (h : programStart < size) : (blank size h).size = size :=
  size_blankCells h

@[simp] theorem size_clear (m : Memory) : m.clear.size = m.size := size_blank _ _

end Memory

end Chip8
