import Chip8.Proofs.Cpu.Bounds
import Chip8.Proofs.Cpu.Control

/-!
# Arithmetic on registers

What the arithmetic operations compute from two bytes is a table of its own (`Operation.computes`):
a result and, for those that report a carry, a borrow or a bit shifted out, a flag. An operation
reads its operands before it writes, also where the shifts of the legacy dialect copy the second
register first, and then puts the result and after it the flag (`Cpu.put`, `perform_of_computes`).

So it does not matter which of the registers are the same (`execute_of_computes`): the flag is
always that of the operands before the instruction, the result is there unless the flag takes its
place, and no other register changes.
-/

namespace Chip8

/-- What an operation on bytes comes to. -/
structure Computed where
  result : Int
  /-- The flag, for an operation that sets one. -/
  flag : Option Bool
  deriving DecidableEq, Repr

/-- What an operation computes from the bytes `a` and `b` of its registers, the byte `shifted` that
a shift works on, and the byte `nn` of its word. -/
def Operation.computes (a b shifted : Int) (nn : Nat) : Operation → Option Computed
  | .addByte => some ⟨(a + nn) % 256, none⟩
  | .copy => some ⟨b, none⟩
  | .or => some ⟨(a.toNat ||| b.toNat : Nat), none⟩
  | .and => some ⟨(a.toNat &&& b.toNat : Nat), none⟩
  | .xor => some ⟨(a.toNat ^^^ b.toNat : Nat), none⟩
  | .add => some ⟨(a + b) % 256, some (255 < a + b)⟩
  | .subtract => some ⟨(a - b) % 256, some (b ≤ a)⟩
  | .subtractFrom => some ⟨(b - a) % 256, some (a ≤ b)⟩
  | .shiftRight => some ⟨shifted / 2, some (shifted % 2 = 1)⟩
  | .shiftLeft => some ⟨2 * shifted % 256, some (128 ≤ shifted)⟩
  | _ => none

namespace Cpu

variable (dbg : Debug.Printer) {c : Cpu} {o : Operands} {op : Operation} {r : Computed}

/-- The byte that a shift works on. -/
def shiftOperand (c : Cpu) (o : Operands) : Int :=
  match c.dialect with
  | .legacy => c.reg o.y
  | .superChip => c.reg o.x

/-- The processor with a result in a register, and then the flag if there is one. -/
def put (c : Cpu) (x : Fin 16) (r : Computed) : Cpu :=
  match r.flag with
  | none => c.setReg x r.result
  | some on => (c.setReg x r.result).setFlag on

/-! ## Operations -/

theorem lowByte_of_byte {n : Int} (h : 0 ≤ n ∧ n ≤ 0xFF) : lowByte n = n.toNat := by
  unfold lowByte
  omega

theorem reg_prepareShift (c : Cpu) (o : Operands) :
    (c.prepareShift o).reg o.x = c.shiftOperand o := by
  unfold prepareShift shiftOperand
  cases c.dialect with
  | legacy => exact (reg_setReg c o.x o.x _).trans (if_pos rfl)
  | superChip => rfl

/-- A result takes the place of what was copied for a shift. -/
theorem setReg_prepareShift (c : Cpu) (o : Operands) (value : Int) :
    (c.prepareShift o).setReg o.x value = c.setReg o.x value := by
  unfold prepareShift
  cases c.dialect with
  | legacy => simp only [setReg, Vector.set_set]
  | superChip => rfl

theorem perform_of_computes (hbytes : ∀ x, 0 ≤ c.reg x ∧ c.reg x ≤ 0xFF)
    (h : op.computes (c.reg o.x) (c.reg o.y) (c.shiftOperand o) o.nn = some r) :
    c.perform dbg o op = .done () (c.put o.x r) := by
  have hx := hbytes o.x
  have hy := hbytes o.y
  have hs : 0 ≤ c.shiftOperand o ∧ c.shiftOperand o ≤ 0xFF := by
    unfold shiftOperand
    split
    · exact hy
    · exact hx
  cases op with
  | addByte =>
    cases h
    simp only [perform, put, lowByte_eq]
  | copy =>
    cases h
    rfl
  | or | and | xor =>
    cases h
    simp only [perform, put, lowByte_of_byte hx, lowByte_of_byte hy]
  | add =>
    cases h
    simp only [perform, put, lowByte_eq, gt_iff_lt]
  | subtract =>
    cases h
    have hflag : (lowByte (c.reg o.y) ≤ lowByte (c.reg o.x)) = (c.reg o.y ≤ c.reg o.x) := by
      rw [lowByte_of_byte hx, lowByte_of_byte hy, eq_iff_iff]
      omega
    simp only [perform, put, subtractBytes, lowByte_eq, hflag, ← Int.sub_emod]
  | subtractFrom =>
    cases h
    have hflag : (lowByte (c.reg o.x) ≤ lowByte (c.reg o.y)) = (c.reg o.x ≤ c.reg o.y) := by
      rw [lowByte_of_byte hx, lowByte_of_byte hy, eq_iff_iff]
      omega
    simp only [perform, put, subtractBytes, lowByte_eq, hflag, ← Int.sub_emod]
  | shiftRight =>
    cases h
    have hresult : c.shiftOperand o / 2 % 256 = c.shiftOperand o / 2 := by omega
    simp only [perform, shifted, put, reg_prepareShift, setReg_prepareShift, lowByte_eq, hresult]
  | shiftLeft =>
    cases h
    have hflag : (c.shiftOperand o / 128 % 2 = 1) = (128 ≤ c.shiftOperand o) := by
      rw [eq_iff_iff]
      omega
    simp only [perform, shifted, put, reg_prepareShift, setReg_prepareShift, lowByte_eq, hflag,
      Int.mul_comm]
  | _ => cases h

/-! ## Registers that are the same -/

theorem flag_put {on : Bool} (x : Fin 16) (h : r.flag = some on) :
    (c.put x r).flag = if on then 1 else 0 := by
  rw [flag, put, h]
  exact (reg_setReg _ _ _ _).trans (if_pos rfl)

theorem reg_put_self {x : Fin 16} (h : r.flag = none ∨ x ≠ flagRegister) :
    (c.put x r).reg x = r.result := by
  unfold put
  split
  · exact (reg_setReg _ _ _ _).trans (if_pos rfl)
  · next on hon =>
    rw [hon] at h
    rw [setFlag, reg_setReg, if_neg (Ne.symm (h.resolve_left nofun)), reg_setReg, if_pos rfl]

theorem reg_put_of_ne {x y : Fin 16} (hxy : y ≠ x) (h : r.flag = none ∨ y ≠ flagRegister) :
    (c.put x r).reg y = c.reg y := by
  unfold put
  split
  · rw [reg_setReg, if_neg (Ne.symm hxy)]
  · next on hon =>
    rw [hon] at h
    rw [setFlag, reg_setReg, if_neg (Ne.symm (h.resolve_left nofun)), reg_setReg,
      if_neg (Ne.symm hxy)]

theorem put_eq (c : Cpu) (x : Fin 16) (r : Computed) :
    c.put x r = { c with v := (c.put x r).v } := by
  unfold put
  split <;> rfl

/-- An arithmetic instruction, whichever of its registers are the same. If it sets a flag, the flag
is that of the operands before it; the result is in the first register unless the flag is; all other
registers, and all else, stay as they are. -/
theorem execute_of_computes (ht : c.table = .standard)
    (hbytes : ∀ x, 0 ≤ c.reg x ∧ c.reg x ≤ 0xFF) {w : Nat} (hw : w < 0x10000) (hfit : op.Fits w)
    (h : op.computes (c.reg (Operands.ofWord w).x) (c.reg (Operands.ofWord w).y)
      (c.shiftOperand (.ofWord w)) (Operands.ofWord w).nn = some r) :
    let x := (Operands.ofWord w).x
    let after := c.execute dbg w
    after.result = .ok () ∧ after.cpu = { c with v := after.cpu.v } ∧
      (∀ on, r.flag = some on → after.cpu.flag = if on then 1 else 0) ∧
      (r.flag = none ∨ x ≠ flagRegister → after.cpu.reg x = r.result) ∧
      ∀ y, y ≠ x → r.flag = none ∨ y ≠ flagRegister → after.cpu.reg y = c.reg y := by
  intro x after
  have hafter : after = .done () (c.put x r) := by
    rw [← perform_of_computes dbg hbytes h]
    exact execute_of_fits dbg ht hw hfit
  rw [hafter]
  exact ⟨rfl, put_eq c x r, fun on => flag_put x, reg_put_self, fun y => reg_put_of_ne⟩

/-- A processor whose register of flags is an operand. -/
def flagged : Cpu :=
  (create .standard .standard .released .legacy .standard (.cycle [])).setReg flagRegister 200

theorem execute_of_computes_flagged :
    let shifted := flagged.execute .off (0x82FE : Nat)
    let doubled := flagged.execute .off (0x8FF4 : Nat)
    flagged.table = .standard ∧ (∀ x, 0 ≤ flagged.reg x ∧ flagged.reg x ≤ 0xFF) ∧
      Operation.shiftLeft.Fits 0x82FE ∧ Operation.add.Fits 0x8FF4 ∧
      (shifted.cpu.flag = 1 ∧ shifted.cpu.reg 2 = 144 ∧ shifted.cpu.reg 3 = flagged.reg 3) ∧
      doubled.cpu.flag = 1 ∧ doubled.cpu.reg 3 = flagged.reg 3 := by
  have ht : flagged.table = .standard :=
    table_create .standard .standard .released .legacy .standard (.cycle [])
  have hbytes : ∀ x, 0 ≤ flagged.reg x ∧ flagged.reg x ≤ 0xFF := by decide
  have hshift : Operation.shiftLeft.Fits 0x82FE := by decide
  have hadd : Operation.add.Fits 0x8FF4 := by decide
  have hx : (Operands.ofWord (0x82FE : Nat)).x = 2 := by decide
  have hx' : (Operands.ofWord (0x8FF4 : Nat)).x = flagRegister := by decide
  obtain ⟨-, -, hflag, hresult, hkept⟩ := execute_of_computes .off ht hbytes (by decide) hshift
    (show _ = some ⟨144, some true⟩ by decide)
  obtain ⟨-, -, hflag', -, hkept'⟩ := execute_of_computes .off ht hbytes (by decide) hadd
    (show _ = some ⟨144, some true⟩ by decide)
  rw [hx] at hresult hkept
  rw [hx'] at hkept'
  exact ⟨ht, hbytes, hshift, hadd,
    ⟨hflag true rfl, hresult (.inr (by decide)), hkept 3 (by decide) (.inr (by decide))⟩,
    hflag' true rfl, hkept' 3 (by decide) (.inr (by decide))⟩

end Cpu

end Chip8
