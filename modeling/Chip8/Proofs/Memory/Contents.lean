import Chip8.Proofs.Memory.Writes

/-!
# What memory holds

Bytes, words and blocks are views of one array. `Memory.latest` says what lies at an address behind
a sequence of changes, in terms of the changes alone: the value that the last one of them put there,
or what was there at first.

* `shows_alter`: a change that succeeds puts its values where it says and leaves all else as it was
  (`Memory.Shows`). A write of any kind that succeeds is one `overwrite` (`write_of_ok`).
* `readBlock_eq_ok_iff`, `load16_eq_ok_iff`, `load16_store16`: blocks and words in terms of bytes.
* `reads_of_alterAll`: what all reads find behind a sequence of changes, and which of them fail.
-/

namespace Chip8.Memory

variable {m : Memory} {address value : Int}

/-! ## Changes -/

/-- A change of memory. -/
inductive Change where
  | write (w : Write)
  | clear
  deriving DecidableEq, Repr

/-- Carries out a change. -/
def alter (m : Memory) : Change → Except Error Unit × Memory
  | .write w => m.write w
  | .clear => (.ok (), m.clear)

/-- Carries out changes in turn, up to the first that fails. -/
def alterAll (m : Memory) : List Change → Except Error Unit × Memory
  | [] => (.ok (), m)
  | c :: cs =>
    match m.alter c with
    | (.error e, m) => (.error e, m)
    | (.ok (), m) => m.alterAll cs

/-- The address of the first value that a write puts into memory. -/
def Write.start : Write → Int
  | .byte address _ | .word address _ | .block address _ => address
  | .program _ => programStart

/-- The values that a write puts into memory. -/
def Write.values : Write → List Int
  | .byte _ value => [value]
  | .word _ value => [value / 256, value]
  | .block _ data | .program data => data.toList

/-- What lies at an address at first: a byte of the font, and zero behind it. -/
def fresh (address : Int) : Int := ((Font.rows[address.toNat]?).map fun b => (b.toNat : Int)).getD 0

/-- The value that a change puts at an address, if it puts one there. -/
def Change.valueAt (address : Int) : Change → Option Int
  | .write w => if w.start ≤ address then w.values[(address - w.start).toNat]? else none
  | .clear => some (fresh address)

/-- The value that the last of the changes which reach an address put there. -/
def latest (changes : List Change) (address : Int) : Int :=
  (changes.reverse.findSome? (·.valueAt address)).getD (fresh address)

/-- At every address of memory lies the low byte of its value. -/
def Shows (m : Memory) (values : Int → Int) : Prop :=
  ∀ address : Int, 0 ≤ address → address < m.size →
    m.load8 address = .ok (toCell (values address))

/-! ## One change -/

theorem write_of_ok {w : Write} (h : (m.write w).1 = .ok ()) :
    m.Holds w.start w.values.length ∧
      (m.write w).2 = m.overwrite w.start.toNat (w.values.map toCell) := by
  cases w with
  | byte address value =>
    simp only [write, store8_eq] at h ⊢
    split at h
    · next hin =>
      rw [if_pos hin]
      exact ⟨.inr ⟨hin.1, hin.2⟩, rfl⟩
    · cases h
  | word address value =>
    by_cases hin : 0 ≤ address ∧ address + 1 < m.size
    · have hroom : address + (2 : Nat) ≤ m.size := by omega
      rw [write, store16_of_lt hin.1 hin.2]
      exact ⟨.inr ⟨hin.1, hroom⟩, rfl⟩
    · by_cases hlast : address + 1 = m.size
      · rw [write, store16_of_torn hlast] at h
        cases h
      · rw [write, store16_of_outside (by omega)] at h
        cases h
  | block address data =>
    simp only [write, writeData_eq_overwrite, ← Data.length_toList] at h ⊢
    split at h
    · next hin =>
      rw [if_pos hin]
      exact ⟨hin, rfl⟩
    · cases h
  | program data =>
    rw [write_program] at h ⊢
    split at h
    · next hbytes =>
      rw [if_pos hbytes]
      rw [← Data.length_toList] at h ⊢
      split at h
      · next hin =>
        rw [if_pos hin]
        exact ⟨hin, rfl⟩
      · cases h
    · cases h

/-- Behind an `overwrite` every cell holds the value that was put there, or what it held before. -/
theorem load8_overwrite_values {values : List Int} {start : Int} (h : m.Holds start values.length)
    (h₀ : 0 ≤ address) {value : Int} (hold : m.load8 address = .ok (toCell value)) :
    (m.overwrite start.toNat (values.map toCell)).load8 address =
      .ok (toCell ((if start ≤ address then values[(address - start).toNat]? else none).getD
        value)) := by
  have hcells : m.Holds start (values.map toCell).length := by rwa [List.length_map]
  obtain ⟨-, houtside⟩ := eqOutside_overwrite hcells
  rw [List.length_map] at houtside
  by_cases hreach : start ≤ address ∧ address < start + values.length
  · have hk : (address - start).toNat < values.length := by omega
    have hroom : 0 ≤ start ∧ start + values.length ≤ m.size := by
      unfold Holds at h
      omega
    have hplace : (start.toNat + (address - start).toNat : Nat) = address := by omega
    have hread : (m.overwrite start.toNat (values.map toCell)).load8
        (start.toNat + (address - start).toNat : Nat) =
          .ok (toCell values[(address - start).toNat]) :=
      load8_overwrite (by rw [List.length_map]; omega) (by simp [hk])
    rw [hplace] at hread
    rw [hread, if_pos hreach.1, List.getElem?_eq_getElem hk, Option.getD_some]
  · rw [houtside address hreach, hold]
    by_cases hs : start ≤ address
    · rw [if_pos hs, List.getElem?_eq_none (by omega), Option.getD_none]
    · rw [if_neg hs, Option.getD_none]

theorem shows_blank {size : Nat} (h : programStart < size) : (blank size h).Shows fresh := by
  intro address h₀ h₁
  rw [size_blank] at h₁
  by_cases hfont : address.toNat < Font.rows.length
  · have hcell := getElem?_overwriteCells_of_inside hfont (font_fits h)
    rw [show fontStart + address.toNat = address.toNat from Nat.zero_add _] at hcell
    have hread : (blank size h).load8 address = .ok Font.rows[address.toNat] := by
      refine load8_of_getElem? h₀ ?_
      simp only [blank, blankCells]
      rw [hcell, List.getElem?_eq_getElem hfont]
    rw [hread, fresh, List.getElem?_eq_getElem hfont, Option.map_some, Option.getD_some,
      toCell_toNat]
  · rw [load8_blank_of_font_le h (by omega) h₁, fresh, List.getElem?_eq_none (by omega)]
    rfl

theorem shows_alter {values : Int → Int} (h : m.Shows values) {c : Change}
    (hc : (m.alter c).1 = .ok ()) :
    (m.alter c).2.Shows fun address => (c.valueAt address).getD (values address) := by
  cases c with
  | write w =>
    obtain ⟨hholds, hmemory⟩ := write_of_ok hc
    have hcells : m.Holds w.start (w.values.map toCell).length := by rwa [List.length_map]
    intro address h₀ h₁
    rw [alter, hmemory] at h₁ ⊢
    rw [hcells.size_overwrite] at h₁
    exact load8_overwrite_values hholds h₀ (h address h₀ h₁)
  | clear => exact shows_blank m.room

/-- A write that succeeds replaces as many cells as it has bytes; one that fails leaves all cells
but the last one. -/
@[simp] theorem size_alter (m : Memory) (c : Change) : (m.alter c).2.size = m.size := by
  cases c with
  | clear => exact size_clear m
  | write w =>
    cases hw : (m.write w).1 with
    | ok =>
      obtain ⟨hholds, hmemory⟩ := write_of_ok hw
      have hcells : m.Holds w.start (w.values.map toCell).length := by rwa [List.length_map]
      rw [alter, hmemory, hcells.size_overwrite]
    | error e =>
      rw [alter, (write_of_error hw).2]
      exact (eqOutside_remnant m w).1

/-! ## Changes in turn -/

theorem alterAll_cons_of_ok {c : Change} {cs : List Change} (h : (m.alter c).1 = .ok ()) :
    m.alterAll (c :: cs) = (m.alter c).2.alterAll cs := by
  rw [alterAll]
  generalize m.alter c = o at h ⊢
  obtain ⟨result, n⟩ := o
  cases h
  rfl

theorem alterAll_cons_of_error {c : Change} {cs : List Change} {e : Error}
    (h : (m.alter c).1 = .error e) : m.alterAll (c :: cs) = (.error e, (m.alter c).2) := by
  rw [alterAll]
  generalize m.alter c = o at h ⊢
  obtain ⟨result, n⟩ := o
  cases h
  rfl

@[simp] theorem size_alterAll (m : Memory) (changes : List Change) :
    (m.alterAll changes).2.size = m.size := by
  induction changes generalizing m with
  | nil => rfl
  | cons c cs ih =>
    cases hc : (m.alter c).1 with
    | error e => rw [alterAll_cons_of_error hc, size_alter]
    | ok => rw [alterAll_cons_of_ok hc, ih, size_alter]

theorem shows_alterAll {values : Int → Int} (h : m.Shows values) {changes : List Change}
    (hc : (m.alterAll changes).1 = .ok ()) :
    (m.alterAll changes).2.Shows fun address =>
      (changes.reverse.findSome? (·.valueAt address)).getD (values address) := by
  induction changes generalizing m values with
  | nil => exact h
  | cons c cs ih =>
    cases hfirst : (m.alter c).1 with
    | error e =>
      rw [alterAll_cons_of_error hfirst] at hc
      cases hc
    | ok =>
      rw [alterAll_cons_of_ok hfirst] at hc ⊢
      have hrest := ih (shows_alter h hfirst) hc
      simp only [List.reverse_cons, List.findSome?_append, List.findSome?_singleton,
        Option.getD_or]
      exact hrest

/-! ## Blocks and words -/

theorem load8_eq_ok_iff : (∃ byte, m.load8 address = .ok byte) ↔ 0 ≤ address ∧ address < m.size := by
  constructor
  · rintro ⟨byte, h⟩
    refine Decidable.byContradiction fun hout => ?_
    rw [load8, cell_of_not hout] at h
    cases h
  · exact fun h => load8_of_lt h.1 h.2

theorem load8_block {length k : Nat} {byte : UInt8} (h : m.Holds address length)
    (hb : (m.block address length)[k]? = some byte) : m.load8 (address + k) = .ok byte := by
  obtain ⟨hk, -⟩ := List.getElem?_eq_some_iff.mp hb
  rw [length_block h] at hk
  unfold Holds at h
  have hplace : (address + k).toNat = address.toNat + k := by omega
  refine load8_of_getElem? (by omega) ?_
  unfold size at h
  rw [hplace, ← hb, block, Array.getElem?_toList, Array.getElem?_extract, if_pos (by omega)]

/-- A block is read just if all its bytes can be, and consists of them. -/
theorem readBlock_eq_ok_iff {length : Nat} {bytes : List UInt8} :
    m.readBlock address length = .ok bytes ↔
      bytes.map .ok = (List.range length).map fun k => m.load8 (address + (k : Nat)) := by
  have hall (h : m.Holds address length) : (m.block address length).map .ok =
      (List.range length).map fun k => m.load8 (address + (k : Nat)) := by
    refine List.ext_getElem (by simp [length_block h]) fun k hk _ => ?_
    rw [List.length_map] at hk
    rw [List.getElem_map, List.getElem_map, List.getElem_range,
      load8_block h (List.getElem?_eq_getElem hk)]
  rw [readBlock_eq]
  constructor
  · intro h
    split at h
    · next hin =>
      cases h
      exact hall hin
    · cases h
  · intro h
    have hread : ∀ k < length, 0 ≤ address + k ∧ address + k < m.size := by
      intro k hk
      have hmem : m.load8 (address + k) ∈ bytes.map .ok :=
        h ▸ List.mem_map.mpr ⟨k, List.mem_range.mpr hk, rfl⟩
      obtain ⟨byte, -, hbyte⟩ := List.mem_map.mp hmem
      exact load8_eq_ok_iff.mp ⟨byte, hbyte.symm⟩
    have hin : m.Holds address length := by
      rcases Nat.eq_zero_or_pos length with hzero | hpos
      · exact .inl hzero
      · have hfirst := hread 0 hpos
        have hlast := hread (length - 1) (by omega)
        exact .inr (by omega)
    rw [if_pos hin]
    have hbytes := (hall hin).trans h.symm
    rw [(List.map_inj_right fun _ _ => Except.ok.inj).mp hbytes]

theorem load16_eq_ok_iff {word : Nat} :
    m.load16 address = .ok word ↔
      ∃ high low, m.load8 address = .ok high ∧ m.load8 (address + 1) = .ok low ∧
        word = 256 * high.toNat + low.toNat := by
  unfold load16
  cases hh : m.load8 address with
  | error e => simp
  | ok high =>
    cases hl : m.load8 (address + 1) with
    | error e => simp
    | ok low =>
      constructor
      · rintro ⟨⟩
        exact ⟨high, low, rfl, rfl, by omega⟩
      · rintro ⟨_, _, ⟨⟩, ⟨⟩, rfl⟩
        rw [Nat.mul_comm]

theorem load16_store16 (h : (m.store16 address value).1 = .ok ()) :
    (m.store16 address value).2.load16 address = .ok (value % 0x10000).toNat := by
  obtain ⟨hholds, hmemory⟩ := write_of_ok (w := .word address value) h
  have hroom : 0 ≤ address ∧ address + 2 ≤ m.size := hholds.resolve_left nofun
  have hread : (m.overwrite address.toNat [toCell (value / 256), toCell value]).load16
      (address.toNat + 0 : Nat) = .ok ((toCell (value / 256)).toNat * 256 + (toCell value).toNat) :=
    load16_overwrite (by rw [List.length_cons, List.length_singleton]; omega) rfl rfl
  rw [Nat.add_zero, Int.toNat_of_nonneg hroom.1, toNat_toCell, toNat_toCell] at hread
  rw [show (m.store16 address value).2 = _ from hmemory]
  refine hread.trans (congrArg Except.ok ?_)
  unfold lowByte
  omega

theorem exists_readBlock_error_iff {length : Nat} (h : 0 < length) :
    (∃ e, m.readBlock address length = .error e) ↔ address < 0 ∨ m.size < address + length := by
  rw [readBlock_eq]
  split
  · next hin =>
    unfold Holds at hin
    simp
    omega
  · next hout =>
    unfold Holds at hout
    simp
    omega

theorem exists_load16_error_iff :
    (∃ e, m.load16 address = .error e) ↔ address < 0 ∨ m.size < address + 2 := by
  constructor
  · rintro ⟨e, h⟩
    refine Decidable.byContradiction fun hin => ?_
    obtain ⟨word, hword, -⟩ := load16_eq_ok (m := m) (show 0 ≤ address by omega) (by omega)
    rw [hword] at h
    cases h
  · intro hout
    cases h : m.load16 address with
    | error e => exact ⟨e, rfl⟩
    | ok word =>
      obtain ⟨high, low, hh, hl, -⟩ := load16_eq_ok_iff.mp h
      have hfirst := load8_eq_ok_iff.mp ⟨high, hh⟩
      have hlast := load8_eq_ok_iff.mp ⟨low, hl⟩
      omega

/-! ## One array -/

theorem create_eq (room : Room) {size : Nat} (h : programStart < size) :
    create room size = (needRoom room size).map fun _ => blank size h :=
  dif_pos h

theorem load8_of_shows {values : Int → Int} (h : m.Shows values) (address : Int) :
    m.load8 address =
      if 0 ≤ address ∧ address < m.size then .ok (toCell (values address))
      else .error (.addressOutside address m.size) := by
  split
  · next hin => exact h address hin.1 hin.2
  · next hout => rw [load8, cell_of_not hout]

/-- A memory of any size that reaches past the start of programs is built if there is room for it.
Behind changes of a new memory that all succeed, a byte is the low one of the value that was put
there last. Blocks and words consist of such bytes, the high one of a word first, and can be read
wherever all their bytes lie in memory. A word that is stored reads as its low sixteen bits. No
change, whether it succeeds or not, makes memory longer or shorter. -/
theorem reads_of_alterAll {size : Nat} (hsize : programStart < size) {changes : List Change}
    (h : ((blank size hsize).alterAll changes).1 = .ok ()) :
    let m := blank size hsize
    let n := (m.alterAll changes).2
    (∀ room : Room, create room size = (needRoom room size).map fun _ => m) ∧
      (∀ address : Int, n.load8 address =
        if 0 ≤ address ∧ address < size then .ok (toCell (latest changes address))
        else .error (.addressOutside address n.size)) ∧
      (∀ (address : Int) (length : Nat) (bytes : List UInt8),
        n.readBlock address length = .ok bytes ↔
          bytes.map .ok = (List.range length).map fun k => n.load8 (address + (k : Nat))) ∧
      (∀ (address : Int) (word : Nat), n.load16 address = .ok word ↔
        ∃ high low, n.load8 address = .ok high ∧ n.load8 (address + 1) = .ok low ∧
          word = 256 * high.toNat + low.toNat) ∧
      (∀ address value : Int, (n.store16 address value).1 = .ok () →
        (n.store16 address value).2.load16 address = .ok (value % 0x10000).toNat) ∧
      (∀ (address : Int) (length : Nat), 0 < length →
        ((∃ e, n.readBlock address length = .error e) ↔ address < 0 ∨ size < address + length)) ∧
      (∀ address : Int, (∃ e, n.load16 address = .error e) ↔ address < 0 ∨ size < address + 2) ∧
      ∀ others : List Change, (m.alterAll others).2.size = size := by
  intro m n
  have hlength : ∀ others : List Change, (m.alterAll others).2.size = size := by
    intro others
    rw [size_alterAll, size_blank]
  have hshows : n.Shows (latest changes) := shows_alterAll (shows_blank hsize) h
  have hn : n.size = size := hlength changes
  refine ⟨fun room => create_eq room hsize, fun address => ?_,
    fun address length bytes => readBlock_eq_ok_iff, fun address word => load16_eq_ok_iff,
    fun address value => load16_store16, fun address length hpos => ?_, fun address => ?_, hlength⟩
  · rw [load8_of_shows hshows, hn]
  · rw [exists_readBlock_error_iff hpos, hn]
  · rw [exists_load16_error_iff, hn]

/-- Writes of all kinds that overlap, in the smallest memory. -/
def overlapping : List Change :=
  [.write (.word 0x1FF 0x12345), .write (.block 0x1FE (.listed [-1, 0x302])), .clear,
    .write (.program (.listed [7])), .write (.word 0x4F (-2)), .write (.byte 0x50 0x1AB)]

theorem reads_of_alterAll_overlapping :
    ∃ m, create .full 0x201 = .ok m ∧ (m.alterAll overlapping).1 = .ok () ∧
      let n := (m.alterAll overlapping).2
      n.load8 0x4E = .ok 0x80 ∧ n.load8 0x4F = .ok 0xFF ∧ n.load8 0x50 = .ok 0xAB ∧
        n.load8 0x1FF = .ok 0 ∧ n.load8 0x200 = .ok 7 := by
  have hdone : ((blank 0x201 (by decide)).alterAll overlapping).1.toOption = some () := by
    decide +kernel
  have hsize : programStart < 0x201 := by decide
  have hok : ((blank 0x201 hsize).alterAll overlapping).1 = .ok () := by
    cases hresult : ((blank 0x201 hsize).alterAll overlapping).1 with
    | error e =>
      rw [hresult] at hdone
      cases hdone
    | ok => rfl
  obtain ⟨hcreate, hbytes, -⟩ := reads_of_alterAll hsize hok
  have hread : ∀ address byte, 0 ≤ address ∧ address < 0x201 →
      toCell (latest overlapping address) = byte →
      ((blank 0x201 hsize).alterAll overlapping).2.load8 address = .ok byte := by
    rintro address byte hin rfl
    rw [hbytes]
    exact if_pos hin
  exact ⟨blank 0x201 hsize, hcreate .full, hok, hread _ _ (by decide) (by decide),
    hread _ _ (by decide) (by decide), hread _ _ (by decide) (by decide),
    hread _ _ (by decide) (by decide), hread _ _ (by decide) (by decide)⟩

end Chip8.Memory
