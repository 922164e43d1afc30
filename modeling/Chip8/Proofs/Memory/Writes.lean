import Chip8.Proofs.Memory.Spans

/-!
# Writes that fail

A write puts its bytes where it says, or fails (`store8_eq`, `store16_of_lt`,
`writeData_eq_overwrite`, `write_program`). The writes of bytes, blocks and programs look at all of
their span first, so that one that fails leaves memory as it was (`refused_of_error`). The write of
a word is two writes of bytes: at the last cell the first one succeeds before the second one fails
(`store16_of_torn`). Such a torn word is the only write that fails and yet shows, and it shows in
the last cell alone (`unchanged_iff_not_tears`).
-/

namespace Chip8.Memory

/-- A write into memory. -/
inductive Write where
  | byte (address value : Int)
  | word (address value : Int)
  | block (address : Int) (data : Data)
  /-- The program goes to the start of programs. -/
  | program (data : Data)
  deriving DecidableEq, Repr

/-- Carries out a write. -/
def write (m : Memory) : Write → Except Error Unit × Memory
  | .byte address value => m.store8 address value
  | .word address value => m.store16 address value
  | .block address data => m.writeData address data
  | .program data => ((m.loadData data).1.map fun _ => (), (m.loadData data).2)

/-- The last cell of memory gets a new byte, the high one of a word whose low byte has no cell. -/
def Tears (m : Memory) : Write → Prop
  | .word address value => address + 1 = m.size ∧ m.load8 address ≠ .ok (toCell (value / 256))
  | _ => False

variable {m : Memory} {address value : Int}

/-! ## What the writes do -/

theorem overwrite_singleton (h₀ : 0 ≤ address) (h₁ : address < m.size) (byte : UInt8) :
    m.overwrite address.toNat [byte] =
      ⟨m.cells.set address.toNat byte (by unfold size at h₁; omega), by simpa using m.room⟩ := by
  have hcell : address.toNat < m.cells.toList.length := by
    rw [Array.length_toList]
    unfold size at h₁
    omega
  apply ext_toList
  rw [overwrite, toList_overwriteCells, Array.toList_set, List.set_eq_take_append_cons_drop,
    if_pos hcell, List.append_assoc, List.singleton_append, List.length_singleton]

theorem store8_eq (m : Memory) (address value : Int) :
    m.store8 address value =
      if 0 ≤ address ∧ address < m.size then
        (.ok (), m.overwrite address.toNat [toCell value])
      else (.error (.addressOutside address m.size), m) := by
  unfold store8
  by_cases h : 0 ≤ address ∧ address < m.size
  · rw [cell_of_lt h.1 h.2, if_pos h, overwrite_singleton h.1 h.2]
  · rw [cell_of_not h, if_neg h]

/-- A second byte goes behind the first one. -/
theorem overwrite_overwrite_singleton {start : Nat} (h : start + 2 ≤ m.size)
    (first second : UInt8) :
    (m.overwrite start [first]).overwrite (start + 1) [second] =
      m.overwrite start [first, second] := by
  have hstart : (m.cells.toList.take start ++ [first]).length = start + 1 := by
    rw [List.length_append, List.length_take, Array.length_toList, List.length_singleton]
    unfold size at h
    omega
  apply ext_toList
  simp only [overwrite, toList_overwriteCells, List.length_cons, List.length_nil]
  rw [List.take_left' hstart, ← hstart, List.drop_length_add_append, List.drop_drop, hstart]
  simp [Nat.add_assoc]

theorem store16_of_lt (h₀ : 0 ≤ address) (h₁ : address + 1 < m.size) :
    m.store16 address value =
      (.ok (), m.overwrite address.toNat [toCell (value / 256), toCell value]) := by
  have hfits : address.toNat + 2 ≤ m.size := by omega
  have hsize : (m.overwrite address.toNat [toCell (value / 256)]).size = m.size :=
    size_overwrite (by rw [List.length_singleton]; omega)
  have hlow : 0 ≤ address + 1 ∧ address + 1 < m.size := ⟨by omega, h₁⟩
  have hnext : (address + 1).toNat = address.toNat + 1 := by omega
  simp only [store16, store8_eq m, if_pos (show 0 ≤ address ∧ address < m.size by omega)]
  rw [store8_eq, hsize, if_pos hlow, hnext, overwrite_overwrite_singleton hfits]

theorem last_of_add_one_eq_size (h : address + 1 = m.size) : 0 ≤ address ∧ address < m.size := by
  have hroom : 0 < m.size := Nat.zero_lt_of_lt m.room
  omega

/-- The high byte of a word at the last cell is written before its low byte is refused. -/
theorem store16_of_torn (h : address + 1 = m.size) :
    m.store16 address value =
      (.error (.addressOutside (address + 1) m.size),
        m.overwrite address.toNat [toCell (value / 256)]) := by
  have hlast := last_of_add_one_eq_size h
  have hnone : ¬ (0 ≤ address + 1 ∧ address + 1 < m.size) := by omega
  have hsize : (m.overwrite address.toNat [toCell (value / 256)]).size = m.size :=
    size_overwrite (by rw [List.length_singleton]; omega)
  simp only [store16, store8_eq m, if_pos hlast]
  rw [store8_eq, hsize, if_neg hnone]

theorem store16_of_outside (h : ¬ (0 ≤ address ∧ address < m.size)) :
    m.store16 address value = (.error (.addressOutside address m.size), m) := by
  simp only [store16, store8_eq m, if_neg h]

theorem writeData_eq_overwrite (m : Memory) (address : Int) (data : Data) :
    m.writeData address data =
      if m.Holds address data.length then
        (.ok (), m.overwrite address.toNat (data.toList.map toCell))
      else (.error (m.spanError address data.length), m) := by
  rw [writeData_eq, writeBlock_eq, Data.length_toList]

theorem write_program (m : Memory) (data : Data) :
    m.write (.program data) =
      if data.allBytes then
        if m.Holds programStart data.length then
          (.ok (), m.overwrite programStart (data.toList.map toCell))
        else (.error (.programTooLarge data.length (m.size - programStart)), m)
      else (.error .notAByte, m) := by
  have hroom : programStart < m.size := m.room
  have hlong : data.length > m.size - programStart ↔ ¬ m.Holds programStart data.length := by
    unfold Holds
    omega
  rw [write, loadData_eq, loadProgram, ← Data.allBytes_eq, Data.length_toList]
  simp only [hlong, ite_not]
  by_cases hbytes : data.allBytes
  · simp only [if_pos hbytes]
    by_cases hfits : m.Holds programStart data.length
    · simp only [if_pos hfits, Except.map]
    · simp only [if_neg hfits, Except.map]
  · simp only [if_neg hbytes, Except.map]

/-! ## What is left of a write that fails -/

theorem load8_overwrite_singleton (h₀ : 0 ≤ address) (h₁ : address < m.size) (byte : UInt8) :
    (m.overwrite address.toNat [byte]).load8 address = .ok byte := by
  have hroom : address.toNat + [byte].length ≤ m.size := by
    rw [List.length_singleton]
    omega
  have hread := load8_overwrite hroom (show [byte][0]? = some byte from rfl)
  rwa [Nat.add_zero, Int.toNat_of_nonneg h₀] at hread

/-- Putting a byte where it already is does nothing. -/
theorem overwrite_singleton_eq_self_iff (h₀ : 0 ≤ address) (h₁ : address < m.size)
    (byte : UInt8) : m.overwrite address.toNat [byte] = m ↔ m.load8 address = .ok byte := by
  constructor
  · intro hsame
    rw [← hsame]
    exact load8_overwrite_singleton h₀ h₁ byte
  · intro hread
    rw [load8, cell_of_lt h₀ h₁, Except.ok.injEq] at hread
    rw [overwrite_singleton h₀ h₁]
    subst hread
    cases m
    simp

/-- What a write leaves of memory when it fails. -/
def remnant (m : Memory) : Write → Memory
  | .word address value =>
    if address + 1 = m.size then m.overwrite address.toNat [toCell (value / 256)] else m
  | _ => m

/-- A write that looks at all of its span first is refused as a whole. -/
theorem refused_of_error {P : Prop} [Decidable P] {n : Memory} {e refusal : Error}
    (h : (if P then (Except.ok (), n) else (.error refusal, m)).1 = .error e) :
    refusal = e ∧ (if P then (Except.ok (), n) else (.error refusal, m)).2 = m := by
  by_cases hP : P
  · rw [if_pos hP] at h
    cases h
  · rw [if_neg hP] at h ⊢
    cases h
    exact ⟨rfl, rfl⟩

theorem write_of_error {w : Write} {e : Error} (h : (m.write w).1 = .error e) :
    (e.isMemory ∨ e = .notAByte) ∧ (m.write w).2 = m.remnant w := by
  cases w with
  | byte address value =>
    simp only [write, remnant, store8_eq] at h ⊢
    obtain ⟨rfl, hsame⟩ := refused_of_error h
    exact ⟨.inl rfl, hsame⟩
  | word address value =>
    simp only [write, remnant] at h ⊢
    by_cases hlast : address + 1 = m.size
    · rw [store16_of_torn hlast] at h ⊢
      cases h
      exact ⟨.inl rfl, by rw [if_pos hlast]⟩
    · by_cases hin : 0 ≤ address ∧ address < m.size
      · rw [store16_of_lt hin.1 (by omega)] at h
        cases h
      · rw [store16_of_outside hin] at h ⊢
        cases h
        exact ⟨.inl rfl, by rw [if_neg hlast]⟩
  | block address data =>
    simp only [write, remnant, writeData_eq_overwrite] at h ⊢
    obtain ⟨rfl, hsame⟩ := refused_of_error h
    exact ⟨.inl rfl, hsame⟩
  | program data =>
    simp only [remnant, write_program] at h ⊢
    by_cases hbytes : data.allBytes
    · rw [if_pos hbytes] at h ⊢
      obtain ⟨rfl, hsame⟩ := refused_of_error h
      exact ⟨.inl rfl, hsame⟩
    · rw [if_neg hbytes] at h ⊢
      cases h
      exact ⟨.inr rfl, rfl⟩

theorem remnant_eq_self_iff (m : Memory) (w : Write) : m.remnant w = m ↔ ¬ m.Tears w := by
  cases w with
  | word address value =>
    by_cases hlast : address + 1 = m.size
    · obtain ⟨h₀, h₁⟩ := last_of_add_one_eq_size hlast
      rw [remnant, if_pos hlast, overwrite_singleton_eq_self_iff h₀ h₁]
      simp [Tears, hlast]
    · simp [remnant, Tears, hlast]
  | byte | block | program => simp [remnant, Tears]

theorem eqOutside_remnant (m : Memory) (w : Write) :
    m.EqOutside (m.remnant w) (m.size - 1) 1 := by
  have hsame : m.EqOutside m (m.size - 1) 1 := ⟨rfl, fun _ _ => rfl⟩
  cases w with
  | word address value =>
    by_cases hlast : address + 1 = m.size
    · obtain ⟨h₀, h₁⟩ := last_of_add_one_eq_size hlast
      have hholds : m.Holds address [toCell (value / 256)].length := .inr ⟨h₀, Int.le_of_eq hlast⟩
      rw [remnant, if_pos hlast, ← hlast, Int.add_sub_cancel]
      exact eqOutside_overwrite hholds
    · rw [remnant, if_neg hlast]
      exact hsame
  | byte | block | program => exact hsame

/-- A write fails for want of cells or because a program holds a number that is no byte. It leaves
memory as it was just if it does not tear a word, and never touches any cell but the last one. -/
theorem unchanged_iff_not_tears {w : Write} {e : Error} (h : (m.write w).1 = .error e) :
    (e.isMemory ∨ e = .notAByte) ∧ ((m.write w).2 = m ↔ ¬ m.Tears w) ∧
      m.EqOutside (m.write w).2 (m.size - 1) 1 := by
  obtain ⟨hcause, hleft⟩ := write_of_error h
  rw [hleft]
  exact ⟨hcause, remnant_eq_self_iff m w, eqOutside_remnant m w⟩

theorem unchanged_iff_not_tears_block :
    (standard.write (.block 0xFFE (.listed [1, 2, 3]))).1 = .error (.addressOutside 0x1000 0x1000) ∧
      (standard.write (.block 0xFFE (.listed [1, 2, 3]))).2 = standard := by
  have hspan : ¬ standard.Holds 0xFFE (Data.listed [1, 2, 3]).length := by
    unfold Holds
    rw [size_standard]
    decide
  have hfails : (standard.write (.block 0xFFE (.listed [1, 2, 3]))).1 =
      .error (.addressOutside 0x1000 0x1000) := by
    rw [write, writeData_eq_overwrite, if_neg hspan, spanError, size_standard]
    rfl
  obtain ⟨-, hsame, -⟩ := unchanged_iff_not_tears hfails
  exact ⟨hfails, hsame.mpr id⟩

/-! ## A word at the last cell -/

/-- Behind the font there is nothing but zeros at first. -/
theorem load8_blank_of_font_le {size : Nat} (h : programStart < size)
    (h₀ : Font.rows.length ≤ address) (h₁ : address < size) :
    (blank size h).load8 address = .ok 0 := by
  rw [Font.length_rows] at h₀
  have hbehind :
      ¬ (fontStart ≤ address.toNat ∧ address.toNat < fontStart + Font.rows.length) := by
    rw [Font.length_rows]
    unfold fontStart
    omega
  refine load8_of_getElem? (by omega) ?_
  simp only [blank, blankCells]
  rw [getElem?_overwriteCells_of_outside (font_fits h) hbehind, Array.getElem?_replicate,
    if_pos (by omega)]

/-- The word fails, and the last cell is another one. -/
theorem changed_by_word_at_end :
    (standard.write (.word 0xFFF 0x1234)).1 = .error (.addressOutside 0x1000 0x1000) ∧
      standard.load8 0xFFF = .ok 0 ∧
      (standard.write (.word 0xFFF 0x1234)).2.load8 0xFFF = .ok 0x12 := by
  have hlast : (0xFFF : Int) + 1 = standard.size := by
    rw [size_standard]
    rfl
  obtain ⟨h₀, h₁⟩ := last_of_add_one_eq_size hlast
  have hhigh : toCell (0x1234 / 256) = 0x12 := by decide
  rw [write, store16_of_torn hlast, size_standard, hhigh]
  exact ⟨rfl, load8_blank_of_font_le _ (by decide) (by decide), load8_overwrite_singleton h₀ h₁ _⟩

end Chip8.Memory
