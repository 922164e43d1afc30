import Chip8.Memory

/-!
# What lies in memory

A block lies in memory if it is empty or if both its ends do (`Memory.Holds`). Block accesses
succeed for exactly these blocks (`readBlock_eq`, `writeBlock_eq`); the error of any other one names
the end that lies outside (`spanError`), and a write that fails leaves memory as it was. One that
succeeds leaves all but its block alone (`eqOutside_overwrite`) and puts its bytes between the cells
before the block and those behind it (`toList_overwriteCells`), where a block access finds them
(`block_overwrite`); a block that is written back where it was read changes nothing
(`overwrite_block`). A word can be read wherever its two bytes lie in memory (`load16_eq_ok`).
-/

namespace Chip8.Memory

@[simp] theorem size_standard : standard.size = 0x1000 := size_blank memorySize (by decide)

theorem room_standard {length : Nat} (h : length ≤ maxProgramSize) :
    programStart + length ≤ standard.size := by
  rw [size_standard]
  unfold maxProgramSize memorySize programStart at *
  omega

/-- The cells from an address on, `length` of them, lie in memory; none of them lie anywhere. -/
def Holds (m : Memory) (address : Int) (length : Nat) : Prop :=
  length = 0 ∨ 0 ≤ address ∧ address + length ≤ m.size

instance (m : Memory) (address : Int) (length : Nat) : Decidable (m.Holds address length) :=
  inferInstanceAs (Decidable (_ ∨ _))

/-- What is wrong with a block that does not lie in memory. -/
def spanError (m : Memory) (address : Int) (length : Nat) : Error :=
  .addressOutside (if 0 ≤ address ∧ address < m.size then address + length - 1 else address) m.size

/-- What goes wrong with an access to a block, if anything does. -/
def spanFault (m : Memory) (address : Int) (length : Nat) : Option Error :=
  if m.Holds address length then none else some (m.spanError address length)

theorem spanFault_eq_none_iff {m : Memory} {address : Int} {length : Nat} :
    m.spanFault address length = none ↔ m.Holds address length := by
  unfold spanFault
  split <;> simp [*]

theorem cell_of_lt {m : Memory} {address : Int} (h₀ : 0 ≤ address) (h₁ : address < m.size) :
    m.cell address = .ok ⟨address.toNat, by unfold size at h₁; omega⟩ :=
  dif_pos ⟨h₀, h₁⟩

theorem cell_of_not {m : Memory} {address : Int} (h : ¬ (0 ≤ address ∧ address < m.size)) :
    m.cell address = .error (.addressOutside address m.size) :=
  dif_neg h

theorem checkBlock_eq (m : Memory) (address : Int) (length : Nat) :
    m.checkBlock address length =
      if m.Holds address length then .ok () else .error (m.spanError address length) := by
  unfold checkBlock
  by_cases hl : length = 0
  · rw [if_pos hl, if_pos (.inl hl)]
  rw [if_neg hl]
  by_cases hs : 0 ≤ address ∧ address < m.size
  · rw [cell_of_lt hs.1 hs.2]
    by_cases he : address + length ≤ m.size
    · rw [cell_of_lt (show 0 ≤ address + length - 1 by omega) (by omega),
        if_pos (.inr ⟨hs.1, he⟩)]
    · have hn : ¬ m.Holds address length := by
        unfold Holds
        omega
      rw [cell_of_not (by omega), if_neg hn, spanError, if_pos hs]
  · have hn : ¬ m.Holds address length := by
      unfold Holds
      omega
    rw [cell_of_not hs, if_neg hn, spanError, if_neg hs]

/-- The bytes of a block that lies in memory. -/
def block (m : Memory) (address : Int) (length : Nat) : List UInt8 :=
  (m.cells.extract address.toNat (address.toNat + length)).toList

theorem length_block {m : Memory} {address : Int} {length : Nat} (h : m.Holds address length) :
    (m.block address length).length = length := by
  unfold Holds size at h
  simp only [block, Array.length_toList, Array.size_extract]
  omega

theorem readBlock_eq (m : Memory) (address : Int) (length : Nat) :
    m.readBlock address length =
      if m.Holds address length then .ok (m.block address length)
      else .error (m.spanError address length) := by
  unfold readBlock
  rw [if_neg (by omega), Int.toNat_natCast, checkBlock_eq]
  by_cases h : m.Holds address length
  · simp only [if_pos h, block]
  · simp only [if_neg h]

theorem writeBlock_eq (m : Memory) (address : Int) (data : List Int) :
    m.writeBlock address data =
      if m.Holds address data.length then (.ok (), m.overwrite address.toNat (data.map toCell))
      else (.error (m.spanError address data.length), m) := by
  unfold writeBlock
  rw [checkBlock_eq]
  by_cases h : m.Holds address data.length
  · simp only [if_pos h]
  · simp only [if_neg h]

/-! ## What a write leaves alone -/

theorem ext_toList {m n : Memory} (h : m.cells.toList = n.cells.toList) : m = n := by
  cases m
  cases n
  simpa using Array.toList_inj.mp h

/-- Apart from `length` cells from an address on, the memories are the same. -/
def EqOutside (m n : Memory) (start : Int) (length : Nat) : Prop :=
  n.size = m.size ∧
    ∀ address : Int, ¬ (start ≤ address ∧ address < start + length) →
      n.load8 address = m.load8 address

theorem load8_congr {m n : Memory} (hs : n.size = m.size) {address : Int}
    (h : 0 ≤ address → n.cells[address.toNat]? = m.cells[address.toNat]?) :
    n.load8 address = m.load8 address := by
  by_cases hin : 0 ≤ address ∧ address < m.size
  · have hin' : 0 ≤ address ∧ address < n.size := by omega
    have hm : address.toNat < m.cells.size := by
      unfold size at hin
      omega
    have hn : address.toNat < n.cells.size := by
      unfold size at hin'
      omega
    have hcell := h hin.1
    rw [Array.getElem?_eq_getElem hm, Array.getElem?_eq_getElem hn, Option.some.injEq] at hcell
    unfold load8
    rw [cell_of_lt hin.1 hin.2, cell_of_lt hin'.1 hin'.2]
    exact congrArg Except.ok hcell
  · have hin' : ¬ (0 ≤ address ∧ address < n.size) := by omega
    unfold load8
    rw [cell_of_not hin, cell_of_not hin', hs]

theorem getElem?_overwriteCells_of_outside {bytes : List UInt8} {cells : Array UInt8}
    {start k : Nat} (hfits : start + bytes.length ≤ cells.size)
    (h : ¬ (start ≤ k ∧ k < start + bytes.length)) :
    (overwriteCells cells start bytes)[k]? = cells[k]? := by
  simp only [overwriteCells, List.getElem?_toArray, List.append_assoc, List.getElem?_append,
    List.length_take, List.getElem?_take, List.getElem?_drop, Array.length_toList,
    Array.getElem?_toList]
  grind

/-- A block that lies in memory is empty or fits between its start and the end. -/
theorem Holds.empty_or_fits {m : Memory} {address : Int} {bytes : List UInt8}
    (h : m.Holds address bytes.length) :
    bytes = [] ∨ 0 ≤ address ∧ address.toNat + bytes.length ≤ m.size := by
  rcases h with hnone | ⟨h₀, hend⟩
  · exact .inl (List.length_eq_zero_iff.mp hnone)
  · exact .inr ⟨h₀, by omega⟩

theorem Holds.size_overwrite {m : Memory} {address : Int} {bytes : List UInt8}
    (h : m.Holds address bytes.length) : (m.overwrite address.toNat bytes).size = m.size := by
  rcases h.empty_or_fits with rfl | ⟨-, hfits⟩
  · rw [overwrite_nil]
  · exact Memory.size_overwrite hfits

theorem eqOutside_overwrite {m : Memory} {address : Int} {bytes : List UInt8}
    (h : m.Holds address bytes.length) :
    m.EqOutside (m.overwrite address.toNat bytes) address bytes.length := by
  refine ⟨h.size_overwrite, fun other ho => load8_congr h.size_overwrite fun hother => ?_⟩
  rcases h.empty_or_fits with rfl | ⟨h₀, hfits⟩
  · rw [overwrite_nil]
  · exact getElem?_overwriteCells_of_outside hfits (by omega)

/-! ## What a write puts into memory -/

/-- The bytes lie between what was there before them and behind them. -/
theorem toList_overwriteCells (cells : Array UInt8) (start : Nat) (bytes : List UInt8) :
    (overwriteCells cells start bytes).toList =
      cells.toList.take start ++ bytes ++ cells.toList.drop (start + bytes.length) :=
  rfl

theorem getElem?_overwriteCells_of_inside {bytes : List UInt8} {start k : Nat}
    (hk : k < bytes.length) {cells : Array UInt8} (h : start + bytes.length ≤ cells.size) :
    (overwriteCells cells start bytes)[start + k]? = bytes[k]? := by
  have hlength : (cells.toList.take start).length = start :=
    List.length_take_of_le (by rw [Array.length_toList]; omega)
  rw [← Array.getElem?_toList, toList_overwriteCells, List.append_assoc,
    List.getElem?_append_right (by omega), hlength, Nat.add_sub_cancel_left,
    List.getElem?_append_left hk]

theorem load8_of_getElem? {m : Memory} {address : Int} {b : UInt8} (h₀ : 0 ≤ address)
    (h : m.cells[address.toNat]? = some b) : m.load8 address = .ok b := by
  obtain ⟨hin, hget⟩ := Array.getElem?_eq_some_iff.mp h
  unfold load8
  rw [cell_of_lt h₀ (by unfold size; omega)]
  exact congrArg Except.ok hget

theorem load8_overwrite {m : Memory} {bytes : List UInt8} {start k : Nat} {b : UInt8}
    (h : start + bytes.length ≤ m.size) (hb : bytes[k]? = some b) :
    (m.overwrite start bytes).load8 (start + k : Nat) = .ok b := by
  obtain ⟨hk, -⟩ := List.getElem?_eq_some_iff.mp hb
  exact load8_of_getElem? (Int.natCast_nonneg _) ((getElem?_overwriteCells_of_inside hk h).trans hb)

theorem load16_overwrite {m : Memory} {bytes : List UInt8} {start k : Nat} {high low : UInt8}
    (h : start + bytes.length ≤ m.size) (hh : bytes[k]? = some high)
    (hl : bytes[k + 1]? = some low) :
    (m.overwrite start bytes).load16 (start + k : Nat) =
      .ok (high.toNat * 256 + low.toNat) := by
  have hlow : (m.overwrite start bytes).load8 ((start + k : Nat) + 1) = .ok low :=
    load8_overwrite h hl
  simp only [load16, load8_overwrite h hh, hlow]

/-! ## Blocks and writes -/

theorem block_eq (m : Memory) (address : Int) (length : Nat) :
    m.block address length = (m.cells.toList.drop address.toNat).take length := by
  rw [block, Array.toList_extract, List.extract_eq_take_drop, Nat.add_sub_cancel_left]

/-- A block reads as what was written there. -/
theorem block_overwrite {m : Memory} {address : Int} {bytes : List UInt8}
    (h : address.toNat + bytes.length ≤ m.cells.size) :
    (m.overwrite address.toNat bytes).block address bytes.length = bytes := by
  have hlength : (m.cells.toList.take address.toNat).length = address.toNat :=
    List.length_take_of_le (by rw [Array.length_toList]; omega)
  rw [block_eq, overwrite, toList_overwriteCells, List.append_assoc, List.drop_left' hlength,
    List.take_left' rfl]

/-- Writing a block back where it was read does nothing. -/
theorem overwrite_block {m : Memory} {address : Int} {length : Nat} (h₀ : 0 ≤ address)
    (h₁ : address + length ≤ m.size) :
    m.overwrite address.toNat (m.block address length) = m := by
  have hlength : (m.block address length).length = length := length_block (.inr ⟨h₀, h₁⟩)
  apply ext_toList
  rw [overwrite, toList_overwriteCells, hlength, block_eq, List.append_assoc, ← List.drop_drop,
    List.take_append_drop, List.take_append_drop]

/-! ## Words -/

theorem load8_of_lt {m : Memory} {address : Int} (h₀ : 0 ≤ address) (h₁ : address < m.size) :
    ∃ byte, m.load8 address = .ok byte := by
  unfold load8
  rw [cell_of_lt h₀ h₁]
  exact ⟨_, rfl⟩

/-- Two bytes that lie in memory make a word of sixteen bits. -/
theorem load16_eq_ok {m : Memory} {address : Int} (h₀ : 0 ≤ address) (h₁ : address < m.size - 1) :
    ∃ word, m.load16 address = .ok word ∧ word < 0x10000 := by
  obtain ⟨high, hh⟩ := load8_of_lt h₀ (show address < m.size by omega)
  have h₂ : 0 ≤ address + 1 := by omega
  obtain ⟨low, hl⟩ := load8_of_lt h₂ (show address + 1 < m.size by omega)
  refine ⟨high.toNat * 256 + low.toNat, ?_, ?_⟩
  · simp only [load16, hh, hl]
  · have := high.toNat_lt
    have := low.toNat_lt
    omega

end Chip8.Memory
