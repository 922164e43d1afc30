import Chip8.Proofs.Cpu.Bounds
import Chip8.Proofs.Cpu.Control

/-!
# Registers to memory and back

The words `FX55` and `FX65` move the registers up to `X` to the memory at the index and back. What
is stored is the block of low bytes of these registers (`execute_store`), what is loaded takes the
place of the same registers and of no others (`execute_load`). Hence each undoes the other
(`execute_load_of_stored`, `execute_store_of_loaded`, `transfers_undo`).
-/

namespace Chip8

namespace Cpu

variable (dbg : Debug.Printer) {c : Cpu} {x : Fin 16} {bytes : List UInt8}

/-! ## Registers as bytes -/

/-- The low bytes of the registers up to `x`. -/
def lowRegisters (c : Cpu) (x : Fin 16) : List UInt8 := (c.v.toList.take (x.val + 1)).map toCell

theorem length_lowRegisters (c : Cpu) (x : Fin 16) : (c.lowRegisters x).length = x.val + 1 := by
  rw [lowRegisters, List.length_map, length_stored]

theorem getElem?_lowRegisters (c : Cpu) (x y : Fin 16) :
    (c.lowRegisters x)[y.val]? = if y ≤ x then some (toCell (c.reg y)) else none := by
  have hy := y.isLt
  rw [lowRegisters, List.getElem?_map, List.getElem?_take]
  by_cases h : y ≤ x
  · rw [if_pos h, if_pos (Nat.lt_succ_of_le h)]
    simp [reg]
  · rw [if_neg h, if_neg (fun hlt => h (Nat.le_of_lt_succ hlt)), Option.map_none]

/-- Registers that were filled hold the bytes that they were filled with. -/
theorem lowRegisters_fillRegisters (h : bytes.length = x.val + 1) :
    (c.fillRegisters bytes).lowRegisters x = bytes := by
  have hx := x.isLt
  refine List.ext_getElem (by rw [length_lowRegisters, h]) fun k hk hk' => ?_
  have hfin : k < 16 := by omega
  have hle : (⟨k, hfin⟩ : Fin 16) ≤ x := Fin.le_def.mpr (by simp only; omega)
  have hget := getElem?_lowRegisters (c.fillRegisters bytes) x ⟨k, hfin⟩
  rw [if_pos hle, reg_fillRegisters] at hget
  simp only [List.getElem?_eq_getElem hk, List.getElem?_eq_getElem hk', Option.some.injEq,
    toCell_toNat] at hget
  exact hget

theorem fillRegisters_eq (c : Cpu) (bytes : List UInt8) :
    c.fillRegisters bytes = { c with v := (c.fillRegisters bytes).v } := by
  simp only [fillRegisters]

theorem index_fillRegisters (c : Cpu) (bytes : List UInt8) : (c.fillRegisters bytes).i = c.i := by
  simp only [fillRegisters]

theorem memory_fillRegisters (c : Cpu) (bytes : List UInt8) :
    (c.fillRegisters bytes).memory = c.memory := by
  simp only [fillRegisters]

/-! ## Transfers -/

section
variable (h₀ : 0 ≤ c.i) (h₁ : c.i + x.val < c.memory.size)
include h₀ h₁

theorem holds_transfer : c.memory.Holds c.i (x.val + 1) := .inr ⟨h₀, by omega⟩

variable (ht : c.table = .standard)
include ht

theorem execute_store :
    c.execute dbg (fWord 0x55 x) =
      .done () { c with memory := c.memory.overwrite c.i.toNat (c.lowRegisters x) } := by
  have hspan := Memory.spanFault_eq_none_iff.mpr (holds_transfer h₀ h₁)
  have hlow : 0x55 < 0x100 := by decide
  have hfits : Operation.storeRegisters.Fits (fWord 0x55 x) := Operation.fits_fWord hlow x rfl
  rw [execute_of_fits dbg ht (fWord_lt hlow x) hfits]
  simp only [perform, Operands.x_fWord hlow, storeAtIndex_eq, length_stored, hspan, lowRegisters]

theorem execute_load :
    c.execute dbg (fWord 0x65 x) =
      .done () (c.fillRegisters (c.memory.block c.i (x.val + 1))) := by
  have hlow : 0x65 < 0x100 := by decide
  have hfits : Operation.loadRegisters.Fits (fWord 0x65 x) := Operation.fits_fWord hlow x rfl
  rw [execute_of_fits dbg ht (fWord_lt hlow x) hfits]
  simp only [perform, Operands.x_fWord hlow, Memory.readBlock_eq, if_pos (holds_transfer h₀ h₁)]

end

/-! ## There and back -/

section
variable (h₀ : 0 ≤ c.i) (h₁ : c.i + x.val < c.memory.size)
include h₀ h₁

theorem execute_load_of_stored {d : Cpu} (hd : d.table = .standard)
    (hm : d.memory = c.memory.overwrite c.i.toNat (c.lowRegisters x)) (hi : d.i = c.i) :
    d.execute dbg (fWord 0x65 x) = .done () (d.fillRegisters (c.lowRegisters x)) := by
  have hroom : c.i.toNat + (c.lowRegisters x).length ≤ c.memory.cells.size := by
    rw [length_lowRegisters]
    unfold Memory.size at h₁
    omega
  have hsize : d.memory.size = c.memory.size := by rw [hm, Memory.size_overwrite hroom]
  have hblock : d.memory.block d.i (x.val + 1) = c.lowRegisters x := by
    rw [hm, hi, ← length_lowRegisters c x, Memory.block_overwrite hroom]
  rw [execute_load dbg (by omega) (by omega) hd, hblock]

/-- Storing what was loaded does nothing. -/
theorem execute_store_of_loaded {d : Cpu} (hd : d.table = .standard) (hm : d.memory = c.memory)
    (hi : d.i = c.i) (hregs : d.lowRegisters x = c.memory.block c.i (x.val + 1)) :
    d.execute dbg (fWord 0x55 x) = .done () d := by
  have hroom : d.i + x.val < d.memory.size := by
    rw [hi, hm]
    exact h₁
  have hsame : d.memory.overwrite d.i.toNat (d.lowRegisters x) = d.memory := by
    rw [hregs, hi, hm, Memory.overwrite_block h₀ (by omega)]
  rw [execute_store dbg (by omega) hroom hd, hsame]

end

theorem reg_fillRegisters_lowRegisters (hbytes : ∀ y, 0 ≤ c.reg y ∧ c.reg y ≤ 0xFF) (d : Cpu)
    (y : Fin 16) :
    (d.fillRegisters (c.lowRegisters x)).reg y = if y ≤ x then c.reg y else d.reg y := by
  rw [reg_fillRegisters, getElem?_lowRegisters]
  by_cases hyx : y ≤ x
  · obtain ⟨hy, hy'⟩ := hbytes y
    simp only [if_pos hyx, toNat_toCell]
    exact lowByte_of_lt hy (by omega)
  · simp only [if_neg hyx]

/-- Storing the registers up to `x` and loading them later, by whatever processor with the same
memory and index, brings them back and leaves the others alone. Loading them and storing them again
leaves memory as it was. Storing changes nothing but the bytes that it stores, and loading nothing
but registers. -/
theorem transfers_undo (ht : c.table = .standard) (hbytes : ∀ y, 0 ≤ c.reg y ∧ c.reg y ≤ 0xFF)
    (x : Fin 16) (h₀ : 0 ≤ c.i) (h₁ : c.i + x.val < c.memory.size) :
    let stored := c.execute dbg (fWord 0x55 x)
    let loaded := c.execute dbg (fWord 0x65 x)
    (stored.result = .ok () ∧ stored.cpu = { c with memory := stored.cpu.memory } ∧
        c.memory.EqOutside stored.cpu.memory c.i (x.val + 1)) ∧
      (loaded.result = .ok () ∧ loaded.cpu = { c with v := loaded.cpu.v }) ∧
      (∀ d : Cpu, d.table = .standard → d.memory = stored.cpu.memory → d.i = stored.cpu.i →
        let restored := d.execute dbg (fWord 0x65 x)
        restored.result = .ok () ∧ restored.cpu = { d with v := restored.cpu.v } ∧
          ∀ y, restored.cpu.reg y = if y ≤ x then c.reg y else d.reg y) ∧
      let back := loaded.cpu.execute dbg (fWord 0x55 x)
      back.result = .ok () ∧ back.cpu.memory = c.memory := by
  have hholds : c.memory.Holds c.i (c.lowRegisters x).length := by
    rw [length_lowRegisters]
    exact holds_transfer h₀ h₁
  have hframe := Memory.eqOutside_overwrite hholds
  rw [length_lowRegisters] at hframe
  simp only [execute_store dbg h₀ h₁ ht, execute_load dbg h₀ h₁ ht, CpuOutcome.done]
  refine ⟨⟨trivial, trivial, hframe⟩, ⟨trivial, fillRegisters_eq c _⟩, fun d hd hm hi => ?_, ?_⟩
  · simp only [execute_load_of_stored dbg h₀ h₁ hd hm hi, CpuOutcome.done]
    exact ⟨trivial, fillRegisters_eq d _, reg_fillRegisters_lowRegisters hbytes d⟩
  · have hregs := lowRegisters_fillRegisters (c := c)
      (Memory.length_block (holds_transfer h₀ h₁))
    rw [execute_store_of_loaded dbg h₀ h₁ (table_fillRegisters ht _) (memory_fillRegisters c _)
      (index_fillRegisters c _) hregs]
    exact ⟨rfl, memory_fillRegisters c _⟩

/-- A processor whose index is three bytes from the end of memory. -/
def atLastBytes : Cpu :=
  { create .standard .standard .released .legacy .standard (.cycle []) with
    v := #v[1, 2, 3, 4, 5, 6, 7, 8, 9, 10, 11, 12, 13, 14, 15, 16]
    i := 0xFFD }

theorem transfers_undo_atLastBytes :
    ∃ c, c = atLastBytes ∧
      let stored := c.execute .off (fWord 0x55 2)
      let later := stored.cpu.fillRegisters [9, 9, 9, 9]
      let restored := later.execute .off (fWord 0x65 2)
      let loaded := c.execute .off (fWord 0x65 2)
      (c.table = .standard ∧ (∀ y, 0 ≤ c.reg y ∧ c.reg y ≤ 0xFF) ∧ 0 ≤ c.i ∧
          c.i + (2 : Fin 16).val < c.memory.size) ∧
        (restored.cpu.reg 0 = 1 ∧ restored.cpu.reg 2 = 3 ∧ restored.cpu.reg 3 = 9) ∧
        (loaded.cpu.execute .off (fWord 0x55 2)).cpu.memory = c.memory := by
  obtain ⟨c, hc⟩ : ∃ c, c = atLastBytes := ⟨_, rfl⟩
  have ht : c.table = .standard := by simp only [hc, atLastBytes, create]
  have hbytes : ∀ y, 0 ≤ c.reg y ∧ c.reg y ≤ 0xFF := by
    rw [hc]
    decide
  have h₀ : 0 ≤ c.i := by simp [hc, atLastBytes]
  have h₁ : c.i + (2 : Fin 16).val < c.memory.size := by simp [hc, atLastBytes, create]
  have hregs : c.reg 0 = 1 ∧ c.reg 2 = 3 := by
    rw [hc]
    decide
  obtain ⟨⟨-, hstored, -⟩, -, hrestored, -, hback⟩ := transfers_undo .off ht hbytes 2 h₀ h₁
  refine ⟨c, hc, ?_⟩
  intro stored later restored loaded
  have htable : stored.cpu.table = .standard := (congrArg Cpu.table hstored).trans ht
  obtain ⟨-, -, hread⟩ := hrestored later (table_fillRegisters htable _)
    (memory_fillRegisters stored.cpu _) (index_fillRegisters stored.cpu _)
  have hkept : later.reg 3 = 9 := reg_fillRegisters stored.cpu [9, 9, 9, 9] 3
  exact ⟨⟨ht, hbytes, h₀, h₁⟩,
    ⟨(hread 0).trans hregs.1, (hread 2).trans hregs.2, (hread 3).trans hkept⟩, hback⟩

end Cpu

end Chip8
