import Mathlib.Algebra.BigOperators.Group.Finset.Sigma
import Mathlib.Algebra.BigOperators.Intervals
import Chip8.Video.FrameBuffer

/-!
# Sprites on a torus

Drawing flips one pixel after the other: a sprite is a list of points (`spritePoints`), columns and
rows that may lie beyond the edges, and drawing it is `flipAll` (`drawSprite_eq`). What comes of
that depends on how often each pixel is met, not on the order: a pixel ends as the parity of its old
value and the number of its flips (`value_flipAll`), and a pixel goes off on the way just if the two
come to two somewhere (`hit_flipAll`). That holds also of a sprite that goes around the picture and
meets a pixel more than once.

`drawSprite_on_torus` states it for the set bits of the rows (`cover`).
-/

namespace Chip8.FrameBuffer

variable {f g : FrameBuffer} {p q : Int × Int}

/-! ## Points -/

theorem column_bounds (f : FrameBuffer) (x : Int) : 0 ≤ x % f.width ∧ x % f.width < f.width := by
  have := f.width_pos
  exact ⟨Int.emod_nonneg _ (by omega), Int.emod_lt_of_pos _ (by omega)⟩

theorem row_bounds (f : FrameBuffer) (y : Int) : 0 ≤ y % f.height ∧ y % f.height < f.height := by
  have := f.height_pos
  exact ⟨Int.emod_nonneg _ (by omega), Int.emod_lt_of_pos _ (by omega)⟩

/-- The points stand for one pixel: they differ by whole rounds about the picture. -/
def SamePixel (f : FrameBuffer) (p q : Int × Int) : Prop :=
  p.1 % f.width = q.1 % f.width ∧ p.2 % f.height = q.2 % f.height

instance (f : FrameBuffer) (p q : Int × Int) : Decidable (f.SamePixel p q) :=
  inferInstanceAs (Decidable (_ ∧ _))

theorem SamePixel.refl (f : FrameBuffer) (p : Int × Int) : f.SamePixel p p := ⟨rfl, rfl⟩

theorem samePixel_congr (h : f.SamePixel p q) (r : Int × Int) :
    f.SamePixel r p ↔ f.SamePixel r q := by
  unfold SamePixel at *
  rw [h.1, h.2]

/-- The pixel of a point lies within the picture. -/
theorem exists_pixel (f : FrameBuffer) (p : Int × Int) :
    ∃ (px : Fin f.width) (py : Fin f.height), f.SamePixel p (px.val, py.val) := by
  obtain ⟨hx, hx'⟩ := f.column_bounds p.1
  obtain ⟨hy, hy'⟩ := f.row_bounds p.2
  refine ⟨⟨(p.1 % f.width).toNat, by omega⟩, ⟨(p.2 % f.height).toNat, by omega⟩, ?_, ?_⟩
  · simp only [Int.toNat_of_nonneg hx, Int.emod_emod]
  · simp only [Int.toNat_of_nonneg hy, Int.emod_emod]

theorem samePixel_iff (f : FrameBuffer) (p : Int × Int) (px : Fin f.width) (py : Fin f.height) :
    f.SamePixel p (px.val, py.val) ↔ p.1 % f.width = px.val ∧ p.2 % f.height = py.val := by
  have hx : (px.val : Int) % f.width = px.val := Int.emod_eq_of_lt (by omega) (by omega)
  have hy : (py.val : Int) % f.height = py.val := Int.emod_eq_of_lt (by omega) (by omega)
  rw [SamePixel, hx, hy]

theorem place_eq_iff (f : FrameBuffer) (p q : Int × Int) :
    f.place p.1 p.2 = f.place q.1 q.2 ↔ f.SamePixel p q := by
  constructor
  · intro h
    obtain ⟨hp, hp'⟩ := f.column_bounds p.1
    obtain ⟨hq, hq'⟩ := f.column_bounds q.1
    have hcolumn := congrArg (· % f.width) h
    have hrow := congrArg (· / f.width) h
    simp only [place, Nat.mul_comm _ f.width, Nat.mul_add_mod, Nat.mul_add_div f.width_pos]
      at hcolumn hrow
    rw [Nat.mod_eq_of_lt (by omega), Nat.mod_eq_of_lt (by omega)] at hcolumn
    rw [Nat.div_eq_of_lt (by omega), Nat.div_eq_of_lt (by omega)] at hrow
    have := f.row_bounds p.2
    have := f.row_bounds q.2
    exact ⟨by omega, by omega⟩
  · rintro ⟨hx, hy⟩
    rw [place, place, hx, hy]

/-- One for a pixel that is on, zero for one that is off. -/
def value (f : FrameBuffer) (p : Int × Int) : Nat := (f.wrapped p.1 p.2).toNat

theorem value_le (f : FrameBuffer) (p : Int × Int) : f.value p ≤ 1 := Bool.toNat_le _

theorem value_congr (h : f.SamePixel p q) : f.value p = f.value q := by
  have hplace := (f.place_eq_iff p q).mpr h
  simp only [value, wrapped, hplace]

theorem getPixel_eq (f : FrameBuffer) (px : Fin f.width) (py : Fin f.height) :
    f.getPixel px.val py.val = .ok (f.wrapped px.val py.val) := by
  have hx := px.isLt
  have hy := py.isLt
  exact if_pos ⟨by omega, by omega, by omega, by omega⟩

/-- Pictures of one size are equal if all their pixels are. -/
theorem eq_of_value (hw : g.width = f.width) (hh : g.height = f.height)
    (h : ∀ p, g.value p = f.value p) : g = f := by
  obtain ⟨w, t, pixels, hwp, htp⟩ := f
  obtain ⟨w', t', pixels', hwp', htp'⟩ := g
  simp only at hw hh
  subst hw hh
  have hpixels : pixels' = pixels := by
    ext i hi
    have hplace : ∀ pixels, place ⟨w', t', pixels, hwp, htp⟩ (i % w' : Nat) (i / w' : Nat) = i := by
      intro pixels
      have hrow : i / w' < t' := Nat.div_lt_of_lt_mul hi
      have hcolumn : i % w' < w' := Nat.mod_lt _ hwp
      simp only [place, ← Int.natCast_emod, Int.toNat_natCast, Nat.mod_eq_of_lt hrow,
        Nat.mod_eq_of_lt hcolumn, Nat.div_add_mod']
    have hi' := h (((i % w' : Nat) : Int), ((i / w' : Nat) : Int))
    simp only [value, wrapped, hplace] at hi'
    simpa only [Bool.ofNat_toNat] using congrArg Bool.ofNat hi'
  rw [hpixels]

/-! ## Flips -/

theorem value_flip (f : FrameBuffer) (p q : Int × Int) :
    (f.flip p.1 p.2).1.value q = if f.SamePixel p q then 1 - f.value q else f.value q := by
  by_cases h : f.SamePixel p q
  · rw [if_pos h, ← value_congr h, ← value_congr (f := (f.flip p.1 p.2).1) h, value,
      wrapped_flip_self]
    cases hp : f.wrapped p.1 p.2 <;> simp [value, hp]
  · rw [if_neg h, value, wrapped_flip_of_ne f (mt (f.place_eq_iff p q).mp h), value]

/-- Flips the pixels of points in turn, and whether one of them went off. -/
def flipAll : List (Int × Int) → FrameBuffer → FrameBuffer × Bool
  | [], f => (f, false)
  | p :: ps, f =>
    let (f, hit) := f.flip p.1 p.2
    let (f, hits) := flipAll ps f
    (f, hit || hits)

theorem flipAll_append (ps qs : List (Int × Int)) (f : FrameBuffer) :
    flipAll (ps ++ qs) f =
      ((flipAll qs (flipAll ps f).1).1, (flipAll ps f).2 || (flipAll qs (flipAll ps f).1).2) := by
  induction ps generalizing f with
  | nil => simp [flipAll]
  | cons p ps ih => simp only [List.cons_append, flipAll, ih, Bool.or_assoc]

theorem size_flipAll (ps : List (Int × Int)) (f : FrameBuffer) :
    (flipAll ps f).1.width = f.width ∧ (flipAll ps f).1.height = f.height := by
  induction ps generalizing f with
  | nil => exact ⟨rfl, rfl⟩
  | cons p ps ih => exact ih (f.flip p.1 p.2).1

/-- How many of the points stand for the pixel of `q`. -/
def meets (f : FrameBuffer) (ps : List (Int × Int)) (q : Int × Int) : Nat :=
  ps.countP fun p => f.SamePixel p q

theorem meets_cons (f : FrameBuffer) (p : Int × Int) (ps : List (Int × Int)) (q : Int × Int) :
    f.meets (p :: ps) q = f.meets ps q + if f.SamePixel p q then 1 else 0 := by
  simp only [meets, List.countP_cons, decide_eq_true_eq]

theorem meets_append (f : FrameBuffer) (ps qs : List (Int × Int)) (q : Int × Int) :
    f.meets (ps ++ qs) q = f.meets ps q + f.meets qs q := List.countP_append

theorem meets_congr (h : f.SamePixel p q) (ps : List (Int × Int)) :
    f.meets ps p = f.meets ps q :=
  List.countP_congr fun r _ => by simp only [decide_eq_true_eq, samePixel_congr h]

theorem value_flipAll (ps : List (Int × Int)) (f : FrameBuffer) (q : Int × Int) :
    (flipAll ps f).1.value q = (f.value q + f.meets ps q) % 2 := by
  induction ps generalizing f with
  | nil =>
    have := f.value_le q
    show f.value q = (f.value q + 0) % 2
    omega
  | cons p ps ih =>
    have hrest : (flipAll (p :: ps) f).1.value q =
        ((f.flip p.1 p.2).1.value q + f.meets ps q) % 2 := ih (f.flip p.1 p.2).1
    have hv := f.value_le q
    rw [hrest, value_flip, meets_cons]
    split <;> omega

/-- A flip that takes no pixel off counts the same before and behind it. -/
theorem value_flip_add_meets (h : f.value p = 0) (ps : List (Int × Int)) (q : Int × Int) :
    (f.flip p.1 p.2).1.value q + f.meets ps q = f.value q + f.meets (p :: ps) q := by
  rw [value_flip, meets_cons]
  split
  · next hpq =>
    rw [← value_congr hpq, h]
    omega
  · omega

theorem hit_flipAll (ps : List (Int × Int)) (f : FrameBuffer) :
    (flipAll ps f).2 = true ↔ ∃ q, 2 ≤ f.value q + f.meets ps q := by
  induction ps generalizing f with
  | nil =>
    constructor
    · intro h
      cases h
    · rintro ⟨q, hq⟩
      have := f.value_le q
      have : f.meets [] q = 0 := rfl
      omega
  | cons p ps ih =>
    have hcons : (flipAll (p :: ps) f).2 =
        (f.wrapped p.1 p.2 || (flipAll ps (f.flip p.1 p.2).1).2) := rfl
    have hrest : (flipAll ps (f.flip p.1 p.2).1).2 = true ↔
        ∃ q, 2 ≤ (f.flip p.1 p.2).1.value q + f.meets ps q := ih (f.flip p.1 p.2).1
    cases hp : f.wrapped p.1 p.2 with
    | true =>
      -- the pixel of `p` itself goes off
      have hvalue : f.value p = 1 := by rw [value, hp]; rfl
      have hmeets := f.meets_cons p ps p
      rw [if_pos (.refl f p)] at hmeets
      simp only [hcons, hp, Bool.true_or, true_iff]
      exact ⟨p, by omega⟩
    | false =>
      have hvalue : f.value p = 0 := by rw [value, hp]; rfl
      simp only [hcons, hp, Bool.false_or, hrest, value_flip_add_meets hvalue]

/-! ## Flips in another order, and twice -/

/-- Only how often each point is met matters. -/
theorem flipAll_perm {ps qs : List (Int × Int)} (h : ps.Perm qs) (f : FrameBuffer) :
    flipAll ps f = flipAll qs f := by
  have hmeets : ∀ q, f.meets ps q = f.meets qs q := fun q => h.countP_eq _
  obtain ⟨hpw, hph⟩ := size_flipAll ps f
  obtain ⟨hqw, hqh⟩ := size_flipAll qs f
  refine Prod.ext ?_ ?_
  · apply eq_of_value (hpw.trans hqw.symm) (hph.trans hqh.symm)
    intro q
    rw [value_flipAll, value_flipAll, hmeets]
  · rw [Bool.eq_iff_iff, hit_flipAll, hit_flipAll]
    simp only [hmeets]

theorem flipAll_twice (ps : List (Int × Int)) (f : FrameBuffer) :
    (flipAll (ps ++ ps) f).1 = f ∧ ((flipAll (ps ++ ps) f).2 = true ↔ ps ≠ []) := by
  obtain ⟨hw, hh⟩ := size_flipAll (ps ++ ps) f
  constructor
  · apply eq_of_value hw hh
    intro q
    have := f.value_le q
    rw [value_flipAll, meets_append]
    omega
  · rw [hit_flipAll]
    constructor
    · rintro ⟨q, hq⟩ rfl
      have := f.value_le q
      have : f.meets ([] ++ []) q = 0 := rfl
      omega
    · intro hne
      obtain ⟨p, rest, rfl⟩ := List.exists_cons_of_ne_nil hne
      have hp := f.meets_cons p rest p
      rw [if_pos (.refl f p)] at hp
      refine ⟨p, ?_⟩
      rw [meets_append]
      omega

/-! ## Sprites -/

/-- The points of the set bits in the last `count` columns of a sprite row. -/
def columnPoints (row x y : Int) (count : Nat) : List (Int × Int) :=
  ((List.range' (8 - count) count).filter (spriteBit row)).map fun column : Nat => (x + column, y)

/-- The points of the set bits of a sprite. -/
def spritePoints (x y : Int) : List Int → List (Int × Int)
  | [] => []
  | row :: rows => columnPoints row x y 8 ++ spritePoints x (y + 1) rows

theorem columnPoints_succ (row x y : Int) {count : Nat} (h : count < 8) :
    columnPoints row x y (count + 1) =
      if spriteBit row (7 - count) then (x + (7 - count : Nat), y) :: columnPoints row x y count
      else columnPoints row x y count := by
  have hfirst : 8 - (count + 1) = 7 - count := by omega
  have hnext : 7 - count + 1 = 8 - count := by omega
  rw [columnPoints, hfirst, List.range'_succ, hnext, List.filter_cons]
  split <;> rfl

theorem drawColumns_eq (row x y : Int) {count : Nat} (h : count ≤ 8) (f : FrameBuffer) :
    drawColumns row x y count f = flipAll (columnPoints row x y count) f := by
  induction count generalizing f with
  | zero => rfl
  | succ count ih =>
    rw [columnPoints_succ row x y h, drawColumns]
    split
    · simp only [flipAll, ih (by omega)]
    · exact ih (by omega) f

theorem drawSprite_eq (x : Int) (rows : List Int) (y : Int) (f : FrameBuffer) :
    f.drawSprite x y rows = flipAll (spritePoints x y rows) f := by
  induction rows generalizing y f with
  | nil => rfl
  | cons row rows ih =>
    simp only [drawSprite, spritePoints, flipAll_append, drawColumns_eq row x y (Nat.le_refl 8), ih]

theorem spritePoints_eq_nil_iff (x : Int) (rows : List Int) (y : Int) :
    spritePoints x y rows = [] ↔ ∀ row ∈ rows, ∀ column < 8, spriteBit row column = false := by
  induction rows generalizing y with
  | nil => simp [spritePoints]
  | cons row rows ih =>
    have hrange : List.range' (8 - 8) 8 = List.range 8 := rfl
    simp only [spritePoints, List.append_eq_nil_iff, ih, List.forall_mem_cons, columnPoints,
      List.map_eq_nil_iff, List.filter_eq_nil_iff, hrange, List.mem_range, Bool.not_eq_true]

/-- The number of set bits of a sprite that fall on the pixel in column `px` and row `py`. A bit is
given by its row and its column in the sprite. -/
def cover (f : FrameBuffer) (x y : Int) (rows : List Int) (px py : Nat) : Nat :=
  ((Finset.range rows.length ×ˢ Finset.range 8).filter fun bit =>
    spriteBit (rows.getD bit.1 0) bit.2 = true ∧
      (x + bit.2) % f.width = px ∧ (y + bit.1) % f.height = py).card

theorem meets_columnPoints (f : FrameBuffer) (row x y : Int) (q : Int × Int) :
    f.meets (columnPoints row x y 8) q =
      ((Finset.range 8).filter fun column : Nat =>
        spriteBit row column = true ∧ f.SamePixel (x + column, y) q).card := by
  have hrange : List.range' (8 - 8) 8 = List.range 8 := rfl
  have hcard : ∀ P : Nat → Prop, ∀ [DecidablePred P],
      ((Finset.range 8).filter P).card = (List.range 8).countP fun column => P column :=
    fun P _ => (List.countP_eq_length_filter ..).symm
  rw [meets, columnPoints, List.countP_map, List.countP_filter, hrange, hcard]
  refine List.countP_congr fun column _ => ?_
  simp only [Function.comp_apply, Bool.and_eq_true, decide_eq_true_eq, and_comm]

theorem cover_cons (f : FrameBuffer) (x y row : Int) (rows : List Int) (px py : Nat) :
    f.cover x y (row :: rows) px py =
      f.cover x (y + 1) rows px py +
        ((Finset.range 8).filter fun column : Nat =>
          spriteBit row column = true ∧ (x + column) % f.width = px ∧ y % f.height = py).card := by
  have hfirst : y + (0 : Nat) = y := by omega
  have hnext : ∀ r : Nat, y + (r + 1 : Nat) = y + 1 + r := by omega
  simp only [cover, Finset.card_filter, Finset.sum_product, List.length_cons,
    Finset.sum_range_succ' _ rows.length, List.getD_cons_succ, List.getD_cons_zero, hfirst, hnext]

theorem meets_spritePoints (f : FrameBuffer) (x y : Int) (rows : List Int) (px : Fin f.width)
    (py : Fin f.height) :
    f.meets (spritePoints x y rows) (px.val, py.val) = f.cover x y rows px.val py.val := by
  induction rows generalizing y with
  | nil => rfl
  | cons row rows ih =>
    rw [spritePoints, meets_append, ih, cover_cons, meets_columnPoints, Nat.add_comm]
    simp only [samePixel_iff]

/-- Drawing on a torus. Every pixel ends as the parity of its old value and the number of set bits
that fall on it, and a pixel went off just if the two come to two or more at some pixel. -/
theorem drawSprite_on_torus (f : FrameBuffer) (x y : Int) (rows : List Int) :
    let drawn := f.drawSprite x y rows
    (drawn.1.width = f.width ∧ drawn.1.height = f.height) ∧
      (∀ (px : Fin f.width) (py : Fin f.height), ∃ old new : Bool,
        f.getPixel px.val py.val = .ok old ∧ drawn.1.getPixel px.val py.val = .ok new ∧
          new.toNat = (old.toNat + f.cover x y rows px.val py.val) % 2) ∧
      (drawn.2 = true ↔ ∃ (px : Fin f.width) (py : Fin f.height) (old : Bool),
        f.getPixel px.val py.val = .ok old ∧
          2 ≤ old.toNat + f.cover x y rows px.val py.val) := by
  intro drawn
  have heq : drawn = flipAll (spritePoints x y rows) f := drawSprite_eq x rows y f
  obtain ⟨hw, hh⟩ : drawn.1.width = f.width ∧ drawn.1.height = f.height := by
    rw [heq]
    exact size_flipAll _ f
  have hvalue : ∀ q, drawn.1.value q = (f.value q + f.meets (spritePoints x y rows) q) % 2 := by
    rw [heq]
    exact value_flipAll _ f
  refine ⟨⟨hw, hh⟩, fun px py => ?_, ?_⟩
  · refine ⟨_, _, f.getPixel_eq px py, drawn.1.getPixel_eq (px.cast hw.symm) (py.cast hh.symm), ?_⟩
    rw [← meets_spritePoints]
    exact hvalue (px.val, py.val)
  · rw [heq, hit_flipAll]
    constructor
    · rintro ⟨q, hq⟩
      obtain ⟨px, py, hpixel⟩ := f.exists_pixel q
      rw [value_congr hpixel, meets_congr hpixel, meets_spritePoints] at hq
      exact ⟨px, py, _, f.getPixel_eq px py, hq⟩
    · rintro ⟨px, py, old, hold, hsum⟩
      rw [getPixel_eq] at hold
      cases hold
      rw [← meets_spritePoints] at hsum
      exact ⟨(px.val, py.val), hsum⟩

/-- A row of eight set bits goes around a picture of four columns twice. -/
example : ((dark 4 1 (by decide) (by decide)).drawSprite (-1) 5 [0xFF]).2 = true := by decide

end Chip8.FrameBuffer
