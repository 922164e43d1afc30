import Chip8.Proofs.Cpu.Bounds
import Chip8.Proofs.Cpu.Control
import Chip8.Proofs.Video.Sprites

/-!
# Drawing instructions

A draw instruction flips the points of a sprite (`Cpu.points`) and puts into the register of flags
whether a pixel went off (`execute_of_draws`). As long as its coordinates are not in that register
(`Cpu.Draws`), the next one finds what it would have found before, so that two of them in a row flip
the points of both (`draw_draw`). Hence the laws of flips hold of instructions, too: the same one
twice leaves the picture as it was, and of two the order does not matter to the picture or to
whether one of them took a pixel off (`draws_undo_and_commute`). It may matter to which one did.
-/

namespace Chip8.Cpu

open FrameBuffer (flipAll spritePoints spriteBit)

variable (dbg : Debug.Printer) {c : Cpu} {w w₁ w₂ : Nat}

/-- The word draws a sprite that lies in memory, at coordinates that no flag overwrites. -/
structure Draws (c : Cpu) (w : Nat) : Prop where
  lt : w < 0x10000
  fits : Operation.draw.Fits w
  column : (Operands.ofWord w).x ≠ flagRegister
  row : (Operands.ofWord w).y ≠ flagRegister
  start : 0 ≤ c.i
  inMemory : c.i + (Operands.ofWord w).n ≤ c.memory.size

/-- The bytes that a word draws. -/
def spriteBytes (c : Cpu) (w : Nat) : List UInt8 := c.memory.block c.i (Operands.ofWord w).n

/-- The points that a word draws. -/
def points (c : Cpu) (w : Nat) : List (Int × Int) :=
  spritePoints (c.reg (Operands.ofWord w).x) (c.reg (Operands.ofWord w).y)
    ((c.spriteBytes w).map fun b => (b.toNat : Int))

/-- The processor with another picture, and the flag that reports how it came about. -/
def showing (c : Cpu) (drawn : FrameBuffer × Bool) : Cpu :=
  { c with display := drawn.1 }.setFlag drawn.2

variable {drawn : FrameBuffer × Bool}

theorem showing_showing (c : Cpu) (first second : FrameBuffer × Bool) :
    (c.showing first).showing second = c.showing second := by
  simp only [showing, setFlag, setReg, Vector.set_set]

theorem reg_showing {x : Fin 16} (hx : x ≠ flagRegister) : (c.showing drawn).reg x = c.reg x := by
  rw [showing, setFlag, reg_setReg, if_neg (Ne.symm hx)]
  rfl

theorem flag_showing : (c.showing drawn).flag = 1 ↔ drawn.2 = true := by
  rw [flag, showing, setFlag, reg_setReg, if_pos rfl]
  cases drawn.2 <;> simp

theorem showing_eq (c : Cpu) (drawn : FrameBuffer × Bool) :
    c.showing drawn =
      { c with display := drawn.1 }.setReg flagRegister (c.showing drawn).flag := by
  have hflag : (c.showing drawn).flag = if drawn.2 then 1 else 0 := by
    rw [flag, showing, setFlag, reg_setReg, if_pos rfl]
  rw [hflag]
  rfl

theorem Draws.showing (h : c.Draws w) : (c.showing drawn).Draws w := ⟨h.1, h.2, h.3, h.4, h.5, h.6⟩

theorem points_showing (h : c.Draws w) : (c.showing drawn).points w = c.points w := by
  rw [points, reg_showing h.column, reg_showing h.row]
  rfl

theorem Draws.readBlock (h : c.Draws w) :
    c.memory.readBlock c.i (Operands.ofWord w).n = .ok (c.spriteBytes w) := by
  rw [Memory.readBlock_eq, if_pos (.inr ⟨h.start, h.inMemory⟩), spriteBytes]

theorem execute_of_draws (ht : c.table = .standard) (h : c.Draws w) :
    c.execute dbg w = .done () (c.showing (flipAll (c.points w) c.display)) := by
  rw [execute_of_fits dbg ht h.lt h.fits]
  simp only [perform, h.readBlock, FrameBuffer.drawSprite_eq]
  rfl

theorem byte_eq_zero_iff (b : UInt8) :
    (∀ column < 8, spriteBit b.toNat column = false) ↔ b = 0 := by
  have hbits : ∀ n < 256, (∀ column < 8, spriteBit (n : Nat) column = false) → n = 0 := by
    decide +kernel
  constructor
  · intro h
    exact UInt8.toNat_inj.mp (hbits b.toNat b.toNat_lt h)
  · rintro rfl
    decide

theorem points_ne_nil_iff (c : Cpu) (w : Nat) :
    c.points w ≠ [] ↔ ∃ b ∈ c.spriteBytes w, b ≠ 0 := by
  rw [points, ne_eq, FrameBuffer.spritePoints_eq_nil_iff]
  simp only [List.forall_mem_map, byte_eq_zero_iff, not_forall, exists_prop, ne_eq]

/-- Two words in turn flip the points of both. -/
theorem draw_draw (ht : c.table = .standard) (h₁ : c.Draws w₁) (h₂ : c.Draws w₂) :
    let first := c.execute dbg w₁
    let second := first.cpu.execute dbg w₂
    let both := flipAll (c.points w₁ ++ c.points w₂) c.display
    (first.result = .ok () ∧ second.result = .ok ()) ∧ second.cpu.display = both.1 ∧
      second.cpu = { c with display := both.1 }.setReg flagRegister second.cpu.flag ∧
      (first.cpu.flag = 1 ∨ second.cpu.flag = 1 ↔ both.2 = true) := by
  intro first second both
  have hfirst : first = .done () (c.showing (flipAll (c.points w₁) c.display)) :=
    execute_of_draws dbg ht h₁
  have hcpu : first.cpu = c.showing (flipAll (c.points w₁) c.display) := by rw [hfirst]; rfl
  have hsecond : second =
      .done () (c.showing (flipAll (c.points w₂) (flipAll (c.points w₁) c.display).1)) := by
    show first.cpu.execute dbg w₂ = _
    rw [hcpu, execute_of_draws dbg (c := c.showing _) ht h₂.showing, points_showing h₂,
      showing_showing]
    rfl
  have hboth : both = (_, _ || _) := FrameBuffer.flipAll_append _ _ c.display
  rw [hfirst, hsecond, hboth]
  refine ⟨⟨rfl, rfl⟩, rfl, showing_eq c _, ?_⟩
  simp only [CpuOutcome.done, flag_showing, Bool.or_eq_true]

/-- A draw instruction done twice leaves nothing changed but the flag, which reports a pixel that
went off at least once if the sprite has a set bit, and never if it has none. Two of them leave the
same picture in either order, and a pixel goes off in the one order if it does in the other. -/
theorem draws_undo_and_commute (ht : c.table = .standard) :
    (∀ w, c.Draws w →
      let once := c.execute dbg w
      let twice := once.cpu.execute dbg w
      (once.result = .ok () ∧ twice.result = .ok ()) ∧
        twice.cpu = c.setReg flagRegister twice.cpu.flag ∧
        ∃ bytes, c.memory.readBlock c.i (Operands.ofWord w).n = .ok bytes ∧
          (once.cpu.flag = 1 ∨ twice.cpu.flag = 1 ↔ ∃ b ∈ bytes, b ≠ 0)) ∧
    ∀ w w', c.Draws w → c.Draws w' →
      let first := c.execute dbg w
      let second := first.cpu.execute dbg w'
      let first' := c.execute dbg w'
      let second' := first'.cpu.execute dbg w
      (second.result = .ok () ∧ second'.result = .ok ()) ∧
        second.cpu.display = second'.cpu.display ∧
        (first.cpu.flag = 1 ∨ second.cpu.flag = 1 ↔
          first'.cpu.flag = 1 ∨ second'.cpu.flag = 1) := by
  constructor
  · intro w h
    obtain ⟨hresults, -, hcpu, hflags⟩ := draw_draw dbg ht h h
    obtain ⟨hrestored, hhit⟩ := FrameBuffer.flipAll_twice (c.points w) c.display
    rw [hrestored] at hcpu
    rw [hhit, points_ne_nil_iff] at hflags
    exact ⟨hresults, hcpu, _, h.readBlock, hflags⟩
  · intro w w' h h'
    obtain ⟨⟨-, hresult⟩, hdisplay, -, hflags⟩ := draw_draw dbg ht h h'
    obtain ⟨⟨-, hresult'⟩, hdisplay', -, hflags'⟩ := draw_draw dbg ht h' h
    rw [FrameBuffer.flipAll_perm List.perm_append_comm] at hdisplay' hflags'
    exact ⟨⟨hresult, hresult'⟩, hdisplay.trans hdisplay'.symm, hflags.trans hflags'.symm⟩

/-- A processor with coordinates at both edges, and the font at its index. -/
def atCorner : Cpu :=
  (create .standard .standard .released .legacy .standard (.cycle [])).fillRegisters [62, 30]

theorem draws_atCorner {w : Nat} (hlt : w < 0x10000) (hfit : Operation.draw.Fits w)
    (hx : (Operands.ofWord w).x = 0) (hy : (Operands.ofWord w).y = 1) : atCorner.Draws w := by
  have hsize : atCorner.memory.size = 0x1000 := Memory.size_standard
  have hn := Operands.n_ofWord hlt
  have hi : atCorner.i = 0 := rfl
  refine ⟨hlt, hfit, by rw [hx]; decide, by rw [hy]; decide, by rw [hi], ?_⟩
  rw [hi, hsize, hn]
  omega

/-- A glyph that goes around both edges, drawn twice, and in either order with its upper half. -/
theorem draws_undo_and_commute_glyph :
    let once := atCorner.execute .off (0xD015 : Nat)
    let twice := once.cpu.execute .off (0xD015 : Nat)
    let half := atCorner.execute .off (0xD013 : Nat)
    atCorner.table = .standard ∧ atCorner.Draws 0xD015 ∧ atCorner.Draws 0xD013 ∧
      twice.cpu = atCorner.setReg flagRegister twice.cpu.flag ∧
      (once.cpu.flag = 1 ∨ twice.cpu.flag = 1) ∧
      (once.cpu.execute .off (0xD013 : Nat)).cpu.display =
        (half.cpu.execute .off (0xD015 : Nat)).cpu.display := by
  have ht : atCorner.table = .standard :=
    table_create .standard .standard .released .legacy .standard (.cycle [])
  have hglyph : atCorner.Draws 0xD015 :=
    draws_atCorner (by decide) (by decide) (by decide) (by decide)
  have hhalf : atCorner.Draws 0xD013 :=
    draws_atCorner (by decide) (by decide) (by decide) (by decide)
  obtain ⟨htwice, horder⟩ := draws_undo_and_commute .off ht
  obtain ⟨-, hcpu, bytes, hread, hflags⟩ := htwice _ hglyph
  obtain ⟨-, hdisplay, -⟩ := horder _ _ hglyph hhalf
  have hset : ∃ b ∈ bytes, b ≠ 0 := by
    have hfont :
        (atCorner.memory.readBlock atCorner.i (Operands.ofWord (0xD015 : Nat)).n).toOption =
          some [0xF0, 0x90, 0x90, 0x90, 0xF0] := by decide +kernel
    rw [hread] at hfont
    cases hfont
    exact ⟨0xF0, by decide, by decide⟩
  exact ⟨ht, hglyph, hhalf, hcpu, hflags.mpr hset, hdisplay⟩

end Chip8.Cpu
