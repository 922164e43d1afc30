import Chip8.Outcome
import Chip8.Proofs.Cpu.Bounds
import Chip8.Proofs.Cpu.Control

/-!
# Additions to the index

The word `FX1E` adds a register to the index, keeps the low sixteen bits and sets the flag if these
are beyond memory. It never clears the flag. A single addition near the greatest word goes unseen,
but a run of them does not: one register is a byte, so that a total on its way past memory stops
there before it can come round to small numbers again (`exceeds_add_iff`). Behind any number of
additions the index is hence the total cut to sixteen bits, and the flag says whether the total
itself is beyond memory (`execute_indexing`, `executeAll_addIndex`).
-/

namespace Chip8.Cpu

variable (dbg : Debug.Printer) {c : Cpu} {total : Int} {x : Fin 16}

/-- Carries words out in turn. The first one that fails is the last. -/
def executeAll (dbg : Debug.Printer) : List Nat → Cpu → Outcome Cpu Unit
  | [], c => .done () c []
  | word :: words, c =>
    let o := c.execute dbg word
    Outcome.andThen ⟨o.result, o.cpu, o.lines⟩ fun _ c => executeAll dbg words c

/-- The index and the values of registers, all added up. -/
def indexTotal (c : Cpu) (xs : List (Fin 16)) : Int :=
  xs.foldl (fun total x => total + c.reg x) c.i

/-- The processor when the index has come to a total. -/
def indexing (c : Cpu) (total : Int) : Cpu :=
  { c with i := total % 0x10000 }.setFlag (0x1000 < total)

theorem reg_indexing (hx : x ≠ flagRegister) : (c.indexing total).reg x = c.reg x := by
  rw [indexing, setFlag, reg_setReg, if_neg (Ne.symm hx)]
  rfl

theorem flag_indexing : (c.indexing total).flag = if 0x1000 < total then 1 else 0 := by
  rw [flag, indexing, setFlag, reg_setReg, if_pos rfl]
  simp

/-- A processor whose flag says that its index is not beyond memory. -/
theorem indexing_self (hflag : c.flag = 0) (hi : 0 ≤ c.i ∧ c.i ≤ 0x1000) : c.indexing c.i = c := by
  have hword : c.i % 0x10000 = c.i := by omega
  have hlow : ¬ 0x1000 < c.i := by omega
  have hset : c.v.set flagRegister.val 0 flagRegister.isLt = c.v := by
    have h : c.v[flagRegister.val] = 0 := hflag
    simp [← h]
  simp only [indexing, setFlag, setReg, hword, hlow, decide_false, Bool.false_eq_true, if_false,
    hset]

/-- Adding a byte takes a total beyond memory where its low bits show it, unless it was there
before. -/
theorem exceeds_add_iff (htotal : 0 ≤ total) {value : Int} (hvalue : 0 ≤ value ∧ value ≤ 0xFF) :
    0x1000 < total + value ↔ 0x1000 < (total + value) % 0x10000 ∨ 0x1000 < total := by
  omega

/-- One addition. -/
theorem execute_indexing (ht : c.table = .standard) (hx : x ≠ flagRegister)
    (hbyte : 0 ≤ c.reg x ∧ c.reg x ≤ 0xFF) (htotal : 0 ≤ total) :
    (c.indexing total).execute dbg (fWord 0x1E x) = .done () (c.indexing (total + c.reg x)) := by
  have hlow : 0x1E < 0x100 := by decide
  have ht' : (c.indexing total).table = .standard := ht
  have hsum : ((c.indexing total).i + (c.indexing total).reg x) % 0x10000 =
      (total + c.reg x) % 0x10000 := by
    rw [reg_indexing hx]
    exact Int.emod_add_emod total 0x10000 (c.reg x)
  have hfit : Operation.addIndex.Fits (fWord 0x1E x) := Operation.fits_fWord hlow x rfl
  have hexceeds := exceeds_add_iff htotal hbyte
  rw [execute_of_fits dbg ht' (fWord_lt hlow x) hfit]
  simp only [perform, Operands.x_fWord hlow, hsum]
  refine congrArg (CpuOutcome.done ()) ?_
  by_cases hbeyond : 0x1000 < (total + c.reg x) % 0x10000
  · have hnext : 0x1000 < total + c.reg x := hexceeds.mpr (.inl hbeyond)
    simp only [indexing, setFlag, setReg, hbeyond, hnext, if_true, decide_true,
      Vector.set_set]
  · -- the flag stays as it is, and says of the new total what it said of the old one
    have hsame : 0x1000 < total + c.reg x ↔ 0x1000 < total :=
      hexceeds.trans (or_iff_right hbeyond)
    simp only [indexing, setFlag, setReg, hbeyond, hsame, if_false]

theorem executeAll_indexing (ht : c.table = .standard)
    (hbytes : ∀ x, 0 ≤ c.reg x ∧ c.reg x ≤ 0xFF) {xs : List (Fin 16)} (hxs : flagRegister ∉ xs)
    (htotal : 0 ≤ total) :
    executeAll dbg (xs.map (fWord 0x1E)) (c.indexing total) =
      .done () (c.indexing (xs.foldl (fun total x => total + c.reg x) total)) [] := by
  induction xs generalizing total with
  | nil => rfl
  | cons x xs ih =>
    rw [List.mem_cons, not_or] at hxs
    obtain ⟨hx, hrest⟩ := hxs
    have hnext : 0 ≤ total + c.reg x := Int.add_nonneg htotal (hbytes x).1
    have hone := execute_indexing dbg ht (Ne.symm hx) (hbytes x) htotal
    rw [List.map_cons, executeAll, hone]
    exact ih hrest hnext

theorem indexing_eq (c : Cpu) (total : Int) :
    c.indexing total = { c with i := (c.indexing total).i, v := (c.indexing total).v } := rfl

/-- Additions of any registers but that of flags, however often the index comes round to small
numbers meanwhile. -/
theorem executeAll_addIndex (ht : c.table = .standard)
    (hbytes : ∀ x, 0 ≤ c.reg x ∧ c.reg x ≤ 0xFF) (hflag : c.flag = 0)
    (hi : 0 ≤ c.i ∧ c.i ≤ 0x1000) {xs : List (Fin 16)} (hxs : flagRegister ∉ xs) :
    let total := c.indexTotal xs
    let after := executeAll dbg (xs.map (fWord 0x1E)) c
    after.result = .ok () ∧ after.state.i = total % 0x10000 ∧
      after.state.flag = (if 0x1000 < total then 1 else 0) ∧
      (∀ y, y ≠ flagRegister → after.state.reg y = c.reg y) ∧
      after.state = { c with i := after.state.i, v := after.state.v } := by
  intro total after
  have hafter : after = .done () (c.indexing total) [] := by
    have hall := executeAll_indexing dbg ht hbytes hxs hi.1
    rwa [indexing_self hflag hi] at hall
  rw [hafter]
  exact ⟨rfl, rfl, flag_indexing, fun y => reg_indexing, indexing_eq c total⟩

/-- A processor whose index stands at the end of memory, with the greatest byte in a register. -/
def indexAtEnd : Cpu :=
  let c := create .standard .standard .released .superChip .standard (.cycle [])
  { c.setReg jumpRegister 0xFF with i := 0x1000 }

theorem indexTotal_replicate (c : Cpu) (n : Nat) (x : Fin 16) :
    c.indexTotal (List.replicate n x) = c.i + n * c.reg x := by
  induction n with
  | zero => simp [indexTotal]
  | succ n ih =>
    rw [indexTotal] at ih
    rw [indexTotal, List.replicate_succ', List.foldl_append, ih, Int.natCast_add, Int.add_mul,
      ← Int.add_assoc, Int.natCast_one, Int.one_mul]
    rfl

/-- On its way to small numbers the index has come round twice. -/
theorem executeAll_addIndex_round :
    let xs : List (Fin 16) := List.replicate 498 jumpRegister
    let after := executeAll .off (xs.map (fWord 0x1E)) indexAtEnd
    indexAtEnd.table = .standard ∧ (∀ x, 0 ≤ indexAtEnd.reg x ∧ indexAtEnd.reg x ≤ 0xFF) ∧
      indexAtEnd.flag = 0 ∧ (0 ≤ indexAtEnd.i ∧ indexAtEnd.i ≤ 0x1000) ∧ flagRegister ∉ xs ∧
      after.result = .ok () ∧ after.state.i = 14 ∧ after.state.flag = 1 := by
  intro xs
  have ht : indexAtEnd.table = .standard :=
    table_create .standard .standard .released .superChip .standard (.cycle [])
  have hbytes : ∀ x, 0 ≤ indexAtEnd.reg x ∧ indexAtEnd.reg x ≤ 0xFF := by decide
  have hflag : indexAtEnd.flag = 0 := by decide
  have hi : 0 ≤ indexAtEnd.i ∧ indexAtEnd.i ≤ 0x1000 := by decide
  have hxs : flagRegister ∉ xs := fun h => absurd (List.eq_of_mem_replicate h) (by decide)
  have hreg : indexAtEnd.reg jumpRegister = 0xFF := by decide
  have htotal : indexAtEnd.indexTotal xs = 2 * 0x10000 + 14 := by
    rw [indexTotal_replicate, hreg]
    rfl
  obtain ⟨hresult, hindex, hset, -⟩ := executeAll_addIndex .off ht hbytes hflag hi hxs
  have hcut : (2 * 0x10000 + 14 : Int) % 0x10000 = 14 := by decide
  have hbeyond : (if 0x1000 < (2 * 0x10000 + 14 : Int) then (1 : Int) else 0) = 1 := by decide
  rw [htotal, hcut] at hindex
  rw [htotal, hbeyond] at hset
  exact ⟨ht, hbytes, hflag, hi, hxs, hresult, hindex, hset⟩

end Chip8.Cpu
