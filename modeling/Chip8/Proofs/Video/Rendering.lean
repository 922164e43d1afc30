import Mathlib.Tactic.Ring
import Chip8.Proofs.Failures
import Chip8.Proofs.Video.Sprites
import Chip8.Video.Image

/-!
# Rendered grids

The pixels of a grid are blocks in blocks: colours in a square's line, squares' lines in a line,
lines in a band and bands in the image. Where all blocks have one length, a place among them is
found by division (`getElem?_flatMap_of_length`), and so a single offset leads to each byte of the
image of a grid whose rows have one length (`Image.getElem?_pixels`). Every value of such a grid
shows as a square of pixels (`Image.Enlarges`).

A grid is rendered if there is room for its image (`Image.Fits`), and the lack of room is all that
can go wrong (`Image.render_of_fits`, `Image.render_of_not_fits`).

* `Image.render_scales`: hence what rendering gives at every scale, in any two colours and however
  much room there is, of grids and of frame buffers.
* `Image.not_render_of_countless`: at a scale beyond all counting it gives no image.
-/

namespace Chip8

/-! ## Grids -/

/-- The grid has `height` rows of `width` values. -/
structure Grid.Rectangular (grid : Grid) (width height : Nat) : Prop where
  length_eq : grid.length = height
  row_length : ∀ row ∈ grid, row.length = width

namespace FrameBuffer

theorem rows_rectangular (f : FrameBuffer) : Grid.Rectangular f.rows f.width f.height where
  length_eq := f.length_rows
  row_length row h := by
    obtain ⟨y, -, rfl⟩ := List.mem_map.mp h
    simp [FrameBuffer.row]

/-- The rows of a frame buffer hold another value than zero just where a pixel is on. -/
theorem value_rows (f : FrameBuffer) (x : Fin f.width) (y : Fin f.height) :
    ∃ on row value, f.getPixel x.val y.val = .ok on ∧ f.rows[y.val]? = some row ∧
      row[x.val]? = some value ∧ (value ≠ 0 ↔ on = true) := by
  have hplace : f.place x.val y.val = y.val * f.width + x.val := by
    have hx : ((x.val : Int) % f.width).toNat = x.val := by
      rw [Int.emod_eq_of_lt (by omega) (by omega), Int.toNat_natCast]
    have hy : ((y.val : Int) % f.height).toNat = y.val := by
      rw [Int.emod_eq_of_lt (by omega) (by omega), Int.toNat_natCast]
    rw [place, hx, hy]
  have hwrapped : f.pixels.getD (y.val * f.width + x.val) false = f.wrapped x.val y.val := by
    have hlt := f.place_lt x.val y.val
    rw [← hplace]
    simp [wrapped, Vector.getD, hlt]
  refine ⟨_, f.row y.val, if f.wrapped x.val y.val then 1 else 0, f.getPixel_eq x y,
    by simp [rows], ?_, ?_⟩
  · rw [← hwrapped]
    simp [FrameBuffer.row]
  · cases f.wrapped x.val y.val <;> simp

end FrameBuffer

/-! ## Colours -/

/-- The channels of a colour as numbers. -/
def Rgb.channels (c : Rgb) : List Int := [c.red.toNat, c.green.toNat, c.blue.toNat]

namespace Palette

theorem colour?_of_length {colour : List Int} (h : colour.length = 3) :
    ∃ c, colour? colour = some c ∧ c.channels = colour.map (· % 256) := by
  obtain ⟨red, green, blue, rfl⟩ := List.length_eq_three.mp h
  refine ⟨_, rfl, ?_⟩
  simp [Rgb.channels, lowByte_eq]

/-- Two colours of three channels make a palette, in which each channel counts by its low byte. -/
theorem validate_of_length {background foreground : List Int} (hb : background.length = 3)
    (hf : foreground.length = 3) :
    ∃ palette, validate [background, foreground] = .ok palette ∧ ∀ value : Int,
      (palette.colour value).channels =
        (if value ≠ 0 then foreground else background).map (· % 256) := by
  obtain ⟨b, hb, hbchannels⟩ := colour?_of_length hb
  obtain ⟨f, hf, hfchannels⟩ := colour?_of_length hf
  refine ⟨⟨b, f⟩, by simp only [validate, hb, hf], fun value => ?_⟩
  by_cases hvalue : value = 0
  · rw [colour, if_pos hvalue, if_neg (not_not.mpr hvalue), hbchannels]
  · rw [colour, if_neg hvalue, if_pos hvalue, hfchannels]

end Palette

/-! ## Blocks -/

theorem length_flatMap_of_length {α β : Type} {f : α → List β} {n : Nat} {items : List α}
    (h : ∀ a ∈ items, (f a).length = n) : (items.flatMap f).length = items.length * n := by
  induction items with
  | nil => simp
  | cons a items ih =>
    obtain ⟨ha, hitems⟩ := List.forall_mem_cons.mp h
    rw [List.flatMap_cons, List.length_append, ha, ih hitems, List.length_cons, Nat.succ_mul,
      Nat.add_comm]

/-- In blocks of `n` elements, place `q * n + r` is the `r`-th one of the `q`-th block. -/
theorem getElem?_flatMap_of_length {α β : Type} {f : α → List β} {n : Nat} {items : List α}
    (h : ∀ a ∈ items, (f a).length = n) (q : Nat) {r : Nat} (hr : r < n) :
    (items.flatMap f)[q * n + r]? = (items[q]?).bind fun a => (f a)[r]? := by
  induction items generalizing q with
  | nil => rfl
  | cons a items ih =>
    obtain ⟨ha, hitems⟩ := List.forall_mem_cons.mp h
    cases q with
    | zero => simp [List.getElem?_append, ha, hr]
    | succ q =>
      have hplace : (q + 1) * n + r = n + (q * n + r) := by
        rw [Nat.succ_mul]
        omega
      rw [hplace, List.flatMap_cons, List.getElem?_append_right (by omega), ha,
        Nat.add_sub_cancel_left, ih hitems q, List.getElem?_cons_succ]

theorem toList_append (a b : ByteArray) :
    (a ++ b).data.toList = a.data.toList ++ b.data.toList := by
  rw [ByteArray.data_append, Array.toList_append]

theorem toList_foldl_append {α : Type} (f : α → ByteArray) (items : List α) (start : ByteArray) :
    (items.foldl (fun bytes a => bytes ++ f a) start).data.toList =
      start.data.toList ++ items.flatMap fun a => (f a).data.toList := by
  induction items generalizing start with
  | nil => simp
  | cons a items ih => rw [List.foldl_cons, ih, toList_append, List.append_assoc, List.flatMap_cons]

namespace Image

theorem toList_repeat_append (bytes : ByteArray) (count : Nat) :
    (Nat.repeat (· ++ bytes) count .empty).data.toList =
      (List.range count).flatMap fun _ => bytes.data.toList := by
  induction count with
  | zero => rfl
  | succ count ih =>
    have hsucc : Nat.repeat (· ++ bytes) (count + 1) .empty =
        Nat.repeat (· ++ bytes) count .empty ++ bytes := rfl
    rw [hsucc, toList_append, ih, List.range_succ, List.flatMap_append]
    simp

theorem toList_copies (bytes : ByteArray) (count : Nat) :
    (copies bytes count).data.toList =
      (List.range count).flatMap fun _ => bytes.data.toList := by
  unfold copies
  split
  · next hempty =>
    have hsize : bytes.data.toList.length = 0 := by simpa [ByteArray.isEmpty] using hempty
    rw [List.eq_nil_of_length_eq_zero hsize]
    simp
  · exact toList_repeat_append bytes count

theorem size_copies (bytes : ByteArray) (count : Nat) :
    (copies bytes count).size = bytes.size * count := by
  show (copies bytes count).data.toList.length = _
  rw [toList_copies, length_flatMap_of_length fun _ _ => rfl, List.length_range, Nat.mul_comm]
  rfl

/-- A copy is found by its number. -/
theorem getElem?_copies (bytes : ByteArray) {count q : Nat} (hq : q < count) {r : Nat}
    (hr : r < bytes.size) :
    (copies bytes count).data.toList[q * bytes.size + r]? = bytes.data.toList[r]? := by
  rw [toList_copies, getElem?_flatMap_of_length (n := bytes.size) (fun _ _ => rfl) q hr,
    List.getElem?_range hq]
  rfl

variable (palette : Palette) (scale : Nat) (row : List Int)

theorem toList_line :
    (line palette scale row).data.toList =
      row.flatMap fun value => (copies (palette.colour value).bytes scale).data.toList :=
  toList_foldl_append _ row .empty

theorem length_square (value : Int) :
    (copies (palette.colour value).bytes scale).data.toList.length = 3 * scale :=
  size_copies (palette.colour value).bytes scale

theorem size_line : (line palette scale row).size = 3 * scale * row.length := by
  show (line palette scale row).data.toList.length = _
  rw [toList_line, length_flatMap_of_length fun value _ => length_square palette scale value,
    Nat.mul_comm]

/-- The image that a grid becomes if there is room for it. -/
def ofGrid (palette : Palette) (grid : Grid) (scale : Nat) : Image where
  width := (grid.headD []).length * scale
  height := grid.length * scale
  pixels := grid.foldl (fun pixels row => pixels ++ copies (line palette scale row) scale) .empty

/-- The number of bytes of the image that a grid becomes. -/
def bytesOf (scale : Nat) (grid : Grid) : Nat :=
  (grid.map fun row => 3 * scale * row.length * scale).sum

theorem size_ofGrid (grid : Grid) : (ofGrid palette grid scale).pixels.size = bytesOf scale grid := by
  have hband (row : List Int) : (copies (line palette scale row) scale).data.toList.length =
      3 * scale * row.length * scale := by
    show (copies (line palette scale row) scale).size = _
    rw [size_copies, size_line]
  show (ofGrid palette grid scale).pixels.data.toList.length = _
  rw [ofGrid, toList_foldl_append]
  simp [List.length_flatMap, hband, bytesOf]

theorem bytesOf_of_rectangular {grid : Grid} {width height : Nat}
    (h : Grid.Rectangular grid width height) :
    bytesOf scale grid = 3 * width * height * scale * scale := by
  have hall : ∀ n ∈ grid.map (fun row => 3 * scale * row.length * scale),
      n = 3 * scale * width * scale := by
    intro n hn
    obtain ⟨row, hrow, rfl⟩ := List.mem_map.mp hn
    rw [h.row_length row hrow]
  have hmap := List.eq_replicate_of_mem hall
  rw [List.length_map, h.length_eq] at hmap
  rw [bytesOf, hmap, List.sum_replicate_nat]
  ring

end Image

/-! ## Room -/

/-- Whether it is the lack of room that went wrong. -/
def Error.lacksRoom : Error → Bool
  | .countTooGreat | .copiesTooMany | .noRoom => true
  | _ => false

/-- The computation fails for lack of room only. -/
def LacksRoom {α : Type} (r : Except Error α) : Prop := FailsWith (·.lacksRoom = true) r

theorem lacksRoom_findRoom (room : Room) (cells : Nat) : LacksRoom (findRoom room cells) := by
  unfold findRoom
  split
  · exact FailsWith.error rfl
  · exact FailsWith.ok

theorem lacksRoom_needCopies (room : Room) (cells copies : Nat) :
    LacksRoom (needCopies room cells copies) := by
  unfold needCopies needRoom
  split
  · exact FailsWith.error rfl
  · split
    · exact FailsWith.error rfl
    · exact lacksRoom_findRoom room _

namespace Image

variable {room : Room} {palette : Palette}

theorem lacksRoom_addRow (room : Room) (palette : Palette) (scale : Nat) (pixels : ByteArray)
    (row : List Int) : LacksRoom (addRow room palette scale pixels row) := by
  have hrest : LacksRoom (do
      findRoom room (3 * scale * row.length)
      needCopies room (line palette scale row).size scale
      findRoom room (pixels.size + (line palette scale row).size * scale)
      return pixels ++ copies (line palette scale row) scale : Except Error ByteArray) :=
    (lacksRoom_findRoom room _).bind fun _ => (lacksRoom_needCopies room _ _).bind fun _ =>
      (lacksRoom_findRoom room _).bind fun _ => .ok
  unfold addRow
  split
  · exact (lacksRoom_needCopies room _ _).bind fun _ => hrest
  · exact hrest

theorem addRow_eq_ok_iff (scale : Nat) (pixels : ByteArray) (row : List Int) (bytes : ByteArray) :
    addRow room palette scale pixels row = .ok bytes ↔
      scale ≤ greatestCount ∧ pixels.size + 3 * scale * row.length * scale ≤ room.cells ∧
        bytes = pixels ++ copies (line palette scale row) scale := by
  have hline : 3 * scale * row.length ≤ 3 * scale * row.length * scale := by
    rcases Nat.eq_zero_or_pos scale with rfl | hs
    · simp
    · exact Nat.le_mul_of_pos_right _ hs
  unfold addRow
  by_cases hrow : row = []
  · simp only [hrow, ne_eq, not_true_eq_false, if_false, andThen_eq_ok_iff, needCopies_eq_ok_iff,
      findRoom_eq_ok_iff, pure, Except.pure, Except.ok.injEq, size_line]
    constructor
    · rintro ⟨-, ⟨hscale, -⟩, hroom, rfl⟩
      exact ⟨hscale, hroom, rfl⟩
    · rintro ⟨hscale, hroom, rfl⟩
      exact ⟨by simp, ⟨hscale, by simp⟩, hroom, rfl⟩
  · have hsquare : 3 * scale ≤ 3 * scale * row.length :=
      Nat.le_mul_of_pos_right _ (List.length_pos_iff.mpr hrow)
    simp only [hrow, ne_eq, not_false_eq_true, if_true, andThen_eq_ok_iff, needCopies_eq_ok_iff,
      findRoom_eq_ok_iff, pure, Except.pure, Except.ok.injEq, size_line]
    constructor
    · rintro ⟨-, -, ⟨hscale, -⟩, hroom, rfl⟩
      exact ⟨hscale, hroom, rfl⟩
    · rintro ⟨hscale, hroom, rfl⟩
      exact ⟨⟨hscale, by omega⟩, by omega, ⟨hscale, by omega⟩, hroom, rfl⟩

theorem foldlM_addRow_eq_ok_iff (scale : Nat) (grid : Grid) {pixels : ByteArray}
    (h : pixels.size ≤ room.cells) (bytes : ByteArray) :
    grid.foldlM (addRow room palette scale) pixels = .ok bytes ↔
      (grid ≠ [] → scale ≤ greatestCount) ∧ pixels.size + bytesOf scale grid ≤ room.cells ∧
        bytes = grid.foldl
          (fun pixels row => pixels ++ copies (line palette scale row) scale) pixels := by
  induction grid generalizing pixels with
  | nil => simp [pure, Except.pure, h, eq_comm, bytesOf]
  | cons row grid ih =>
    have hsum : bytesOf scale (row :: grid) =
        3 * scale * row.length * scale + bytesOf scale grid := rfl
    rw [List.foldlM_cons, hsum, List.foldl_cons]
    by_cases hr : scale ≤ greatestCount ∧
        pixels.size + 3 * scale * row.length * scale ≤ room.cells
    · obtain ⟨hscale, hroom⟩ := hr
      have hsize : (pixels ++ copies (line palette scale row) scale).size =
          pixels.size + 3 * scale * row.length * scale := by
        rw [ByteArray.size_append, size_copies, size_line]
      rw [(addRow_eq_ok_iff scale pixels row _).mpr ⟨hscale, hroom, rfl⟩]
      refine (ih (hsize ▸ hroom)).trans ?_
      simp only [hscale, implies_true, true_and, hsize, Nat.add_assoc]
    · cases hb : addRow room palette scale pixels row with
      | ok later =>
        obtain ⟨hscale, hroom, -⟩ := (addRow_eq_ok_iff scale pixels row later).mp hb
        exact absurd ⟨hscale, hroom⟩ hr
      | error e =>
        simp only [bind, Except.bind, reduceCtorEq, false_iff]
        rintro ⟨hscale, hroom, -⟩
        exact hr ⟨hscale (List.cons_ne_nil _ _), by omega⟩

/-- There is room for the image of a grid. -/
def Fits (room : Room) (grid : Grid) (scale : Int) : Prop :=
  scale.toNat ≤ greatestCount ∧ bytesOf scale.toNat grid ≤ room.cells

instance (room : Room) (grid : Grid) (scale : Int) : Decidable (Fits room grid scale) :=
  inferInstanceAs (Decidable (_ ∧ _))

variable {grid : Grid} {scale : Int}

theorem render_eq (hs : 0 < scale) (hg : grid ≠ []) :
    render room palette grid scale =
      (grid.foldlM (addRow room palette scale.toNat) .empty).map fun pixels =>
        ⟨(grid.headD []).length * scale.toNat, grid.length * scale.toNat, pixels⟩ := by
  rw [render, if_neg (by omega), if_neg (by simpa using hg)]
  cases grid.foldlM (addRow room palette scale.toNat) .empty <;> rfl

theorem foldlM_addRow_empty_iff (hg : grid ≠ []) (bytes : ByteArray) :
    grid.foldlM (addRow room palette scale.toNat) .empty = .ok bytes ↔
      Fits room grid scale ∧ bytes = (ofGrid palette grid scale.toNat).pixels := by
  have hfits : ByteArray.empty.size ≤ room.cells := Nat.zero_le _
  rw [foldlM_addRow_eq_ok_iff scale.toNat grid hfits, Fits, and_assoc]
  have hempty : ByteArray.empty.size + bytesOf scale.toNat grid = bytesOf scale.toNat grid :=
    Nat.zero_add _
  simp only [ne_eq, hg, not_false_eq_true, forall_const, hempty, ofGrid]

theorem render_of_fits (hs : 0 < scale) (hg : grid ≠ []) (h : Fits room grid scale) :
    render room palette grid scale = .ok (ofGrid palette grid scale.toNat) := by
  rw [render_eq hs hg, (foldlM_addRow_empty_iff hg _).mpr ⟨h, rfl⟩]
  rfl

/-- A scale that cannot be counted is seen at the first row, whatever room there is. -/
theorem foldlM_addRow_of_countless (hg : grid ≠ []) {scale : Nat} (h : greatestCount < scale)
    (pixels : ByteArray) :
    grid.foldlM (addRow room palette scale) pixels = .error .countTooGreat := by
  obtain ⟨row, grid, rfl⟩ := List.exists_cons_of_ne_nil hg
  have hrow : addRow room palette scale pixels row = .error .countTooGreat := by
    have hcopies (cells : Nat) : needCopies room cells scale = .error .countTooGreat := if_pos h
    unfold addRow
    by_cases hnil : row = []
    · subst hnil
      simp only [ne_eq, not_true_eq_false, if_false, List.length_nil, Nat.mul_zero,
        (findRoom_eq_ok_iff room 0).mpr (Nat.zero_le _), hcopies]
      rfl
    · simp only [ne_eq, hnil, not_false_eq_true, if_true, hcopies]
      rfl
  rw [List.foldlM_cons, hrow]
  rfl

/-- Without room nothing is rendered, and no other reason is given. -/
theorem render_of_not_fits (hs : 0 < scale) (hg : grid ≠ []) (h : ¬ Fits room grid scale) :
    ∃ e, render room palette grid scale = .error e ∧ e.lacksRoom = true ∧
      (greatestCount < scale → e = .countTooGreat) := by
  have hlacks : LacksRoom (grid.foldlM (addRow room palette scale.toNat) .empty) :=
    FailsWith.foldlM (lacksRoom_addRow room palette scale.toNat) grid .empty
  rw [render_eq hs hg]
  cases hr : grid.foldlM (addRow room palette scale.toNat) .empty with
  | error e =>
    refine ⟨e, rfl, hlacks e hr, fun hcount => ?_⟩
    rw [foldlM_addRow_of_countless hg (by omega)] at hr
    exact (Except.error.inj hr).symm
  | ok bytes => exact absurd ((foldlM_addRow_empty_iff hg bytes).mp hr).1 h

end Image

/-! ## Places -/

namespace Image

variable {palette : Palette} {grid : Grid} {width height scale : Nat}

theorem getElem?_line (row : List Int) (x : Nat) {k : Nat} (hs : 0 < scale) (hk : k < 3) :
    (line palette scale row).data.toList[x * 3 + k]? =
      (row[x / scale]?).bind fun value => (palette.colour value).bytes.data.toList[k]? := by
  have hx := Nat.mod_lt x hs
  have hplace : x * 3 + k = x / scale * (3 * scale) + (x % scale * 3 + k) := by
    conv_lhs => rw [← Nat.div_add_mod x scale]
    ring
  have hr : x % scale * 3 + k < 3 * scale := by omega
  rw [toList_line, hplace, getElem?_flatMap_of_length
    (fun value _ => length_square palette scale value) (x / scale) hr]
  congr 1
  funext value
  exact getElem?_copies (palette.colour value).bytes hx hk

/-- The byte of channel `k` of the pixel in column `x` and row `y` belongs to the value over which
the pixel lies. -/
theorem getElem?_pixels (h : Grid.Rectangular grid width height) {x y k : Nat}
    (hx : x < width * scale) (hk : k < 3) :
    (ofGrid palette grid scale).pixels.data.toList[(y * (width * scale) + x) * 3 + k]? =
      (grid[y / scale]?).bind fun row => (row[x / scale]?).bind fun value =>
        (palette.colour value).bytes.data.toList[k]? := by
  have hs : 0 < scale := Nat.pos_of_mul_pos_left (Nat.zero_lt_of_lt hx)
  have hy := Nat.mod_lt y hs
  have hsize : ∀ row ∈ grid, (line palette scale row).size = 3 * scale * width := by
    intro row hrow
    rw [size_line, h.row_length row hrow]
  have hband : ∀ row ∈ grid,
      (copies (line palette scale row) scale).data.toList.length = 3 * scale * width * scale := by
    intro row hrow
    show (copies (line palette scale row) scale).size = _
    rw [size_copies, hsize row hrow]
  have hplace : (y * (width * scale) + x) * 3 + k =
      y / scale * (3 * scale * width * scale) +
        (y % scale * (3 * scale * width) + (x * 3 + k)) := by
    conv_lhs => rw [← Nat.div_add_mod y scale]
    ring
  have hin : x * 3 + k < 3 * scale * width := by
    have hw : width * scale * 3 = 3 * scale * width := by ring
    omega
  have hr : y % scale * (3 * scale * width) + (x * 3 + k) < 3 * scale * width * scale := by
    calc y % scale * (3 * scale * width) + (x * 3 + k)
        < y % scale * (3 * scale * width) + 3 * scale * width := Nat.add_lt_add_left hin _
      _ = (y % scale + 1) * (3 * scale * width) := (Nat.succ_mul _ _).symm
      _ ≤ scale * (3 * scale * width) := Nat.mul_le_mul_right _ hy
      _ = 3 * scale * width * scale := Nat.mul_comm _ _
  have hpixels : (ofGrid palette grid scale).pixels.data.toList =
      grid.flatMap fun row => (copies (line palette scale row) scale).data.toList :=
    toList_foldl_append _ grid .empty
  rw [hpixels, hplace, getElem?_flatMap_of_length hband (y / scale) hr]
  cases hrow : grid[y / scale]? with
  | none => rfl
  | some row =>
    have hline := hsize row (List.mem_of_getElem? hrow)
    rw [Option.bind_some, Option.bind_some, ← hline,
      getElem?_copies (line palette scale row) hy (hline ▸ hin), getElem?_line row x hs hk]

theorem getElem?_toList (bytes : ByteArray) (i : Nat) : bytes[i]? = bytes.data.toList[i]? := by
  by_cases h : i < bytes.size
  · have hdata : i < bytes.data.toList.length := h
    rw [getElem?_pos bytes i h, List.getElem?_eq_getElem hdata, ByteArray.getElem_eq_getElem_data]
    rfl
  · have hdata : bytes.data.toList.length ≤ i := Nat.le_of_not_lt h
    rw [getElem?_neg bytes i h, List.getElem?_eq_none hdata]

/-! ## Images of rectangular grids -/

/-- The image is `scale` times as wide and as high as the grid, of three bytes for each pixel. Every
value of the grid is a square of pixels in the colour of the value, and there are no others. -/
structure Enlarges (i : Image) (grid : Grid) (width height scale : Nat)
    (colour : Int → List Int) : Prop where
  wide : i.width = width * scale
  high : i.height = height * scale
  bytes : i.pixels.size = 3 * width * height * scale * scale
  inside : ∀ x y : Nat, x < width * scale → y < height * scale → ∃ row value c,
    grid[y / scale]? = some row ∧ row[x / scale]? = some value ∧ i.getPixel x y = .ok c ∧
      c.channels = colour value
  outside : ∀ x y : Int, ¬ (0 ≤ x ∧ x < width * scale ∧ 0 ≤ y ∧ y < height * scale) →
    i.getPixel x y = .error (.pixelOutside x y .image (width * scale) (height * scale))

theorem enlarges_ofGrid (palette : Palette) (h : Grid.Rectangular grid width height)
    (hh : 0 < height) :
    (ofGrid palette grid scale).Enlarges grid width height scale
      fun value => (palette.colour value).channels := by
  have hwide : (ofGrid palette grid scale).width = width * scale := by
    obtain ⟨row, rows, rfl⟩ := List.exists_cons_of_length_pos (h.length_eq ▸ hh)
    exact congrArg (· * scale) (h.row_length row List.mem_cons_self)
  have hhigh : (ofGrid palette grid scale).height = height * scale :=
    congrArg (· * scale) h.length_eq
  refine ⟨hwide, hhigh, ?_, fun x y hx hy => ?_, fun x y hout => ?_⟩
  · rw [size_ofGrid, bytesOf_of_rectangular scale h]
  · have hscale : 0 < scale := Nat.pos_of_mul_pos_left (Nat.zero_lt_of_lt hx)
    obtain ⟨row, hrow⟩ : ∃ row, grid[y / scale]? = some row :=
      ⟨_, List.getElem?_eq_getElem (h.length_eq ▸ Nat.div_lt_of_lt_mul (Nat.mul_comm _ _ ▸ hy))⟩
    have hlength : row.length = width := h.row_length row (List.mem_of_getElem? hrow)
    obtain ⟨value, hvalue⟩ : ∃ value, row[x / scale]? = some value :=
      ⟨_, List.getElem?_eq_getElem (hlength ▸ Nat.div_lt_of_lt_mul (Nat.mul_comm _ _ ▸ hx))⟩
    have hbyte {k : Nat} (hk : k < 3) :
        (ofGrid palette grid scale).pixels[(y * (width * scale) + x) * 3 + k]? =
          (palette.colour value).bytes.data.toList[k]? := by
      rw [getElem?_toList, getElem?_pixels h hx hk, hrow, Option.bind_some, hvalue,
        Option.bind_some]
    refine ⟨row, value, palette.colour value, hrow, hvalue, ?_, rfl⟩
    rw [getPixel, hwide, hhigh, if_pos ⟨by omega, by omega, by omega, by omega⟩]
    simp only [Int.toNat_natCast, hbyte (k := 1) (by decide), hbyte (k := 2) (by decide)]
    rw [← Nat.add_zero ((y * (width * scale) + x) * 3), hbyte (k := 0) (by decide)]
    rfl
  · rw [getPixel, hwide, hhigh, if_neg]
    exact_mod_cast hout

/-- Rendering gives an image that enlarges the grid where there is room for it, and fails for lack
of room elsewhere. -/
def Scales (room : Room) (palette : Palette) (colour : Int → List Int) (grid : Grid)
    (width height scale : Nat) : Prop :=
  if scale ≤ greatestCount ∧ 3 * width * height * scale * scale ≤ room.cells then
    ∃ i, render room palette grid scale = .ok i ∧ i.Enlarges grid width height scale colour
  else ∃ e, render room palette grid scale = .error e ∧ e.lacksRoom = true ∧
    (greatestCount < scale → e = .countTooGreat)

theorem scales_of_rectangular (room : Room) (palette : Palette)
    (h : Grid.Rectangular grid width height) (hh : 0 < height) (hs : 0 < scale) :
    Scales room palette (fun value => (palette.colour value).channels) grid width height scale := by
  have hpos : (0 : Int) < scale := by omega
  have hgrid : grid ≠ [] := List.ne_nil_of_length_pos (h.length_eq ▸ hh)
  have hfits : Fits room grid scale ↔
      scale ≤ greatestCount ∧ 3 * width * height * scale * scale ≤ room.cells := by
    rw [Fits, Int.toNat_natCast, bytesOf_of_rectangular scale h]
  unfold Scales
  split
  · next hroom =>
    exact ⟨_, render_of_fits hpos hgrid (hfits.mpr hroom), enlarges_ofGrid palette h hh⟩
  · next hroom =>
    obtain ⟨e, he, hlacks, hcount⟩ : ∃ e, render room palette grid scale = .error e ∧ _ :=
      render_of_not_fits hpos hgrid fun hf => hroom (hfits.mp hf)
    exact ⟨e, he, hlacks, fun hlt => hcount (by omega)⟩

end Image

end Chip8
