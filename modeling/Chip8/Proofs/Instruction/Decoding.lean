import Mathlib.Algebra.Group.Nat.Defs
import Chip8.Instruction.Standard
import Chip8.Proofs.Instruction.Registration

/-!
# Decoding

* `Instruction.Disjoint`: two patterns that differ in a bit that both select share no word.
* `InstructionTable.lookup_standard`: the standard table gives a word the standard instruction that
  fits it, which is an operation (`standard_operation`).
* `InstructionTable.fits_of_lookup`, `lookup_of_fits`: the same in terms of the words of each
  operation (`Operation.Fits`).
* `and_f000`, `and_f0ff`, `and_ffff`: what a mask selects, in terms of the digits of a word.
* `fWord`: the words of the operations on one register.
-/

namespace Chip8

/-! ## Patterns without a common word -/

namespace Instruction

/-- No word fits both patterns: they differ in a bit that both select. -/
def Disjoint (i j : Instruction) : Prop := i.value &&& j.mask ≠ j.value &&& i.mask

instance (i j : Instruction) : Decidable (i.Disjoint j) := inferInstanceAs (Decidable (_ ≠ _))

theorem Disjoint.apart {i j : Instruction} (h : i.Disjoint j) : i.Apart j := by
  rintro word - ⟨hi, hj⟩
  rw [fits_iff] at hi hj
  apply h
  calc i.value &&& j.mask = word &&& i.mask &&& j.mask := by rw [hi]
    _ = word &&& j.mask &&& i.mask := by rw [Nat.and_assoc, Nat.and_comm i.mask, Nat.and_assoc]
    _ = j.value &&& i.mask := by rw [hj]

end Instruction

namespace InstructionTable

variable {i : Instruction}

/-- Instructions without a common word are all registered. -/
theorem lookup_ofList {is : List Instruction} (hd : is.Pairwise Instruction.Disjoint)
    {word : Int} :
    (ofList is).lookup word = some i ↔ i ∈ is ∧ i.fits (lowWord word) = true := by
  have hapart : is.Pairwise Instruction.Apart := hd.imp Instruction.Disjoint.apart
  rcases registerAll_cases is lists_empty List.Pairwise.nil with
    ⟨-, -, hlists⟩ | ⟨earlier, failing, later, rfl, -, -, w, other, hshared, -⟩
  · exact hlists word i
  · have hne := (List.pairwise_append.mp hapart).2.2 other hshared.mem failing List.mem_cons_self
    exact absurd ⟨hshared.shared, hshared.fits⟩ (hne w hshared.lt)

/-! ## The standard table -/

theorem standard_disjoint : standardInstructions.Pairwise Instruction.Disjoint := by decide +kernel

theorem lookup_standard {word : Int} :
    standard.lookup word = some i ↔ i ∈ standardInstructions ∧ i.fits (lowWord word) = true :=
  lookup_ofList standard_disjoint

end InstructionTable

/-- The operation of a handler, if it is one. -/
def Handler.operation? : Handler → Option Operation
  | operation op => some op
  | _ => none

theorem standard_operation {i : Instruction} (h : i ∈ standardInstructions) :
    ∃ op, i.handler = .operation op := by
  have hall : ∀ i ∈ standardInstructions, i.handler.operation?.isSome = true := by decide +kernel
  have hi := hall i h
  cases hh : i.handler with
  | operation op => exact ⟨op, rfl⟩
  | member name m => simp [hh, Handler.operation?] at hi
  | unknown name => simp [hh, Handler.operation?] at hi

/-! ## The standard words of an operation -/

namespace Operation

/-- Mask and value of the standard words that carry the operation out. -/
def pattern? : Operation → Option (Nat × Nat)
  | clearScreen => some (0xFFFF, 0x00E0)
  | ret => some (0xFFFF, 0x00EE)
  | jump => some (0xF000, 0x1000)
  | call => some (0xF000, 0x2000)
  | skipIfByte => some (0xF000, 0x3000)
  | skipUnlessByte => some (0xF000, 0x4000)
  | skipIfSame => some (0xF00F, 0x5000)
  | setByte => some (0xF000, 0x6000)
  | addByte => some (0xF000, 0x7000)
  | copy => some (0xF00F, 0x8000)
  | or => some (0xF00F, 0x8001)
  | and => some (0xF00F, 0x8002)
  | xor => some (0xF00F, 0x8003)
  | add => some (0xF00F, 0x8004)
  | subtract => some (0xF00F, 0x8005)
  | shiftRight => some (0xF00F, 0x8006)
  | subtractFrom => some (0xF00F, 0x8007)
  | shiftLeft => some (0xF00F, 0x800E)
  | skipUnlessSame => some (0xF00F, 0x9000)
  | setIndex => some (0xF000, 0xA000)
  | jumpIndexed => some (0xF000, 0xB000)
  | random => some (0xF000, 0xC000)
  | draw => some (0xF000, 0xD000)
  | skipIfPressed => some (0xF0FF, 0xE09E)
  | skipUnlessPressed => some (0xF0FF, 0xE0A1)
  | readDelay => some (0xF0FF, 0xF007)
  | waitKey => some (0xF0FF, 0xF00A)
  | setDelay => some (0xF0FF, 0xF015)
  | setSound => some (0xF0FF, 0xF018)
  | addIndex => some (0xF0FF, 0xF01E)
  | setGlyph => some (0xF0FF, 0xF029)
  | storeDecimal => some (0xF0FF, 0xF033)
  | storeRegisters => some (0xF0FF, 0xF055)
  | loadRegisters => some (0xF0FF, 0xF065)
  | prepareShift => none

/-- The word is one of the standard words that carry the operation out. -/
def Fits (op : Operation) (w : Nat) : Prop := ∃ p ∈ op.pattern?, w &&& p.1 = p.2

theorem fits_iff {op : Operation} {p : Nat × Nat} (h : op.pattern? = some p) {w : Nat} :
    op.Fits w ↔ w &&& p.1 = p.2 := by
  simp [Fits, h]

instance (op : Operation) (w : Nat) : Decidable (op.Fits w) :=
  inferInstanceAs (Decidable (∃ p ∈ op.pattern?, w &&& p.1 = p.2))

end Operation

theorem pattern?_standard {i : Instruction} (h : i ∈ standardInstructions) {op : Operation}
    (hop : i.handler = .operation op) : op.pattern? = some (i.mask, i.value) := by
  have hall : ∀ i ∈ standardInstructions,
      i.handler.operation?.bind Operation.pattern? = some (i.mask, i.value) := by decide +kernel
  have hi := hall i h
  rwa [hop] at hi

theorem standard_of_pattern? {op : Operation} {p : Nat × Nat} (h : op.pattern? = some p) :
    ∃ i ∈ standardInstructions, i.mask = p.1 ∧ i.value = p.2 ∧ i.handler = .operation op := by
  have hall : ∀ p, op.pattern? = some p → ∃ i ∈ standardInstructions,
      i.mask = p.1 ∧ i.value = p.2 ∧ i.handler = .operation op := by
    cases op <;> decide +kernel
  exact hall p h

namespace InstructionTable

/-- What the standard table gives for a word carries out an operation that the word fits. -/
theorem fits_of_lookup {w : Nat} (hw : w < 0x10000) (h : standard.lookup w = some i) :
    ∃ op, i.handler = .operation op ∧ op.Fits w := by
  obtain ⟨hmem, hfit⟩ := lookup_standard.mp h
  obtain ⟨op, hop⟩ := standard_operation hmem
  rw [lowWord_of_lt hw, Instruction.fits_iff] at hfit
  exact ⟨op, hop, _, pattern?_standard hmem hop, hfit⟩

theorem fits_of_handler {op : Operation} {w : Nat} (hw : w < 0x10000)
    (h : standard.lookup w = some i) (hop : i.handler = .operation op) : op.Fits w := by
  obtain ⟨op', hop', hfit⟩ := fits_of_lookup hw h
  rw [hop] at hop'
  cases hop'
  exact hfit

theorem lookup_of_fits {op : Operation} {w : Nat} (hw : w < 0x10000) (h : op.Fits w) :
    ∃ i, standard.lookup w = some i ∧ i.handler = .operation op := by
  obtain ⟨p, hp, hfit⟩ := h
  obtain ⟨i, hmem, hm, hv, hop⟩ := standard_of_pattern? hp
  refine ⟨i, lookup_standard.mpr ⟨hmem, ?_⟩, hop⟩
  rw [lowWord_of_lt hw, Instruction.fits_iff, hm, hv, hfit]

end InstructionTable

/-! ## Digits of words -/

theorem Operands.n_ofWord {w : Nat} (hw : w < 0x10000) : (ofWord w).n = w % 0x10 := by
  simp only [ofWord, lowWord_of_lt hw]

theorem Operands.x_ofWord {w : Nat} (hw : w < 0x10000) : (ofWord w).x.val = w / 0x100 % 0x10 := by
  simp only [ofWord, lowWord_of_lt hw]

/-- Numbers that end in the same number of bits can be masked part by part. -/
theorem and_two_pow_mul_add {k a b c d : Nat} (hb : b < 2 ^ k) (hd : d < 2 ^ k) :
    (2 ^ k * a + b) &&& (2 ^ k * c + d) = 2 ^ k * (a &&& c) + (b &&& d) := by
  refine Nat.eq_of_testBit_eq fun n => ?_
  rw [Nat.testBit_and, Nat.testBit_two_pow_mul_add a hb, Nat.testBit_two_pow_mul_add c hd,
    Nat.testBit_two_pow_mul_add _ (Nat.and_lt_two_pow b hd)]
  by_cases h : n < k
  · simp only [if_pos h, Nat.testBit_and]
  · simp only [if_neg h, Nat.testBit_and]

variable {w : Nat}

theorem and_f000 (h : w < 0x10000) : w &&& 0xF000 = 0x1000 * (w / 0x1000) := by
  have hs := and_two_pow_mul_add (k := 12) (a := w / 0x1000) (b := w % 0x1000) (c := 0xF) (d := 0)
    (by omega) (by decide)
  have hm : w / 0x1000 &&& 0xF = w / 0x1000 % 2 ^ 4 := Nat.and_two_pow_sub_one_eq_mod _ 4
  rw [Nat.and_zero, hm] at hs
  calc w &&& 0xF000 = (2 ^ 12 * (w / 0x1000) + w % 0x1000) &&& (2 ^ 12 * 0xF + 0) := by
        congr 1
        omega
    _ = 0x1000 * (w / 0x1000) := by omega

theorem and_f0ff (h : w < 0x10000) : w &&& 0xF0FF = 0x1000 * (w / 0x1000) + w % 0x100 := by
  have hs := and_two_pow_mul_add (k := 8) (a := w / 0x100) (b := w % 0x100) (c := 0xF0) (d := 0xFF)
    (by omega) (by decide)
  have ht := and_two_pow_mul_add (k := 4) (a := w / 0x1000) (b := w / 0x100 % 0x10) (c := 0xF)
    (d := 0) (by omega) (by decide)
  have hm : w / 0x1000 &&& 0xF = w / 0x1000 % 2 ^ 4 := Nat.and_two_pow_sub_one_eq_mod _ 4
  have hl : w % 0x100 &&& 0xFF = w % 0x100 % 2 ^ 8 := Nat.and_two_pow_sub_one_eq_mod _ 8
  have hx : 2 ^ 4 * (w / 0x1000) + w / 0x100 % 0x10 = w / 0x100 := by omega
  rw [Nat.and_zero, hm, hx] at ht
  rw [hl] at hs
  calc w &&& 0xF0FF = (2 ^ 8 * (w / 0x100) + w % 0x100) &&& (2 ^ 8 * 0xF0 + 0xFF) := by
        congr 1
        omega
    _ = 2 ^ 8 * (w / 0x100 &&& 0xF0) + w % 0x100 % 2 ^ 8 := hs
    _ = 0x1000 * (w / 0x1000) + w % 0x100 := by
        have : w / 0x100 &&& 0xF0 = w / 0x100 &&& (2 ^ 4 * 0xF + 0) := rfl
        omega

theorem and_ffff (h : w < 0x10000) : w &&& 0xFFFF = w := by
  have : w &&& 0xFFFF = w % 2 ^ 16 := Nat.and_two_pow_sub_one_eq_mod _ 16
  omega

/-! ## Words of a register -/

/-- The word `FXnn`, where `low` are the digits `nn`. -/
def fWord (low : Nat) (x : Fin 16) : Nat := 0xF000 + 0x100 * x.val + low

section
variable {low : Nat} (h : low < 0x100) (x : Fin 16)
include h

theorem fWord_lt : fWord low x < 0x10000 := by
  have := x.isLt
  unfold fWord
  omega

theorem Operands.x_fWord : (ofWord (fWord low x)).x = x := by
  apply Fin.ext
  rw [x_ofWord (fWord_lt h x)]
  have := x.isLt
  unfold fWord
  omega

theorem Operation.fits_fWord {op : Operation} (hop : op.pattern? = some (0xF0FF, 0xF000 + low)) :
    op.Fits (fWord low x) := by
  have := x.isLt
  rw [fits_iff hop, and_f0ff (fWord_lt h x), fWord]
  omega

omit x in
theorem Operation.eq_fWord_of_fits {op : Operation}
    (hop : op.pattern? = some (0xF0FF, 0xF000 + low)) {w : Nat} (hw : w < 0x10000)
    (hfit : op.Fits w) : w = fWord low (Operands.ofWord w).x := by
  rw [fits_iff hop, and_f0ff hw] at hfit
  rw [fWord, Operands.x_ofWord hw]
  omega

end

end Chip8
