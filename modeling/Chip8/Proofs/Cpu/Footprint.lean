import Chip8.Proofs.Cpu.Bounds
import Chip8.Proofs.Cpu.Control

/-!
# What an instruction changes

`Cpu.Footprint runs o c d`: from `c` to `d` nothing has changed but what one of the operations in
`runs` may change with the operands `o`. Memory changes where registers and digits are stored, the
stack by calls and returns, the program counter by jumps, skips and the wait for a key, and so on
for every part of the processor.

An operation keeps to its own footprint (`footprint_perform`), and so a standard word to that of the
operations that it fits (`footprint_execute`), and a step to that of the word that it carries out
(`all_step_of_footprint`). What one operation alone may change is hence as it was behind a step that
carries out no word of that operation (`all_step_of_not_fits`).
-/

namespace Chip8

theorem Memory.length_block_le (m : Memory) (address : Int) (length : Nat) :
    (m.block address length).length ≤ length := by
  simp only [block, Array.length_toList, Array.size_extract]
  omega

/-! ## Kinds of operations -/

namespace Operation

/-- The operations that put a result into the first register that they name. -/
def setters : List Operation :=
  [setByte, addByte, copy, or, and, xor, add, subtract, shiftRight, subtractFrom, shiftLeft, random,
    waitKey, readDelay, prepareShift]

/-- The operations that put something into the register of flags. -/
def flaggers : List Operation :=
  [add, subtract, shiftRight, subtractFrom, shiftLeft, draw, addIndex]

/-- The operations that go elsewhere. -/
def jumps : List Operation := [jump, call, ret, jumpIndexed]

def skips : List Operation :=
  [skipIfByte, skipUnlessByte, skipIfSame, skipUnlessSame, skipIfPressed, skipUnlessPressed]

end Operation

namespace Cpu

open Operation (setters flaggers jumps skips)

/-- One of the operations may be the one that is carried out. -/
def Among (runs : Operation → Prop) (ops : List Operation) : Prop := ∃ op ∈ ops, runs op

/-- The registers that may change. -/
def Writes (runs : Operation → Prop) (o : Operands) (y : Fin 16) : Prop :=
  Among runs setters ∧ y = o.x ∨ Among runs flaggers ∧ y = flagRegister ∨
    runs .loadRegisters ∧ y ≤ o.x

structure Footprint (runs : Operation → Prop) (o : Operands) (c d : Cpu) : Prop where
  memory : d.memory = c.memory ∨ runs .storeDecimal ∧ c.memory.EqOutside d.memory c.i 3 ∨
    runs .storeRegisters ∧ c.memory.EqOutside d.memory c.i (o.x.val + 1)
  display : d.display = c.display ∨ runs .clearScreen ∨ runs .draw
  stack : d.stack = c.stack ∨ runs .call ∧ c.stack.push c.pc = .ok d.stack ∨
    runs .ret ∧ ∃ address, c.stack.pop = .ok (address, d.stack)
  index : d.i = c.i ∨ runs .setIndex ∨ runs .addIndex ∨ runs .setGlyph
  delay : d.timers.delay = c.timers.delay ∨ runs .setDelay
  sound : d.timers.sound = c.timers.sound ∨ runs .setSound
  wait : d.runState = c.runState ∧ d.waitRegister = c.waitRegister ∨ runs .waitKey
  random : d.random = c.random ∨ runs .random ∧ d.random = c.random.next.2
  keypad : d.keypad = c.keypad
  registers (y : Fin 16) : d.reg y = c.reg y ∨ Writes runs o y
  counter : d.pc = c.pc ∨ Among runs jumps ∨ d.pc = c.pc + 2 ∧ Among runs skips ∨
    d.pc = c.pc - 2 ∧ runs .waitKey
  fixed : d.dialect = c.dialect ∧ d.table = c.table ∧ d.executed = c.executed

namespace Footprint

variable {runs : Operation → Prop} {o : Operands} {c d : Cpu}

theorem refl (runs : Operation → Prop) (o : Operands) (c : Cpu) : Footprint runs o c c where
  memory := .inl rfl
  display := .inl rfl
  stack := .inl rfl
  index := .inl rfl
  delay := .inl rfl
  sound := .inl rfl
  wait := .inl ⟨rfl, rfl⟩
  random := .inl rfl
  keypad := rfl
  registers _ := .inl rfl
  counter := .inl rfl
  fixed := ⟨rfl, rfl, rfl⟩

/-- More operations that may be carried out have no smaller footprint. -/
theorem mono {runs' : Operation → Prop} (hr : ∀ op, runs op → runs' op)
    (h : Footprint runs o c d) : Footprint runs' o c d := by
  have among : ∀ {ops}, Among runs ops → Among runs' ops :=
    fun ⟨op, hop, h⟩ => ⟨op, hop, hr op h⟩
  refine ⟨?_, ?_, ?_, ?_, ?_, ?_, ?_, ?_, h.keypad, fun y => ?_, ?_, h.fixed⟩
  · exact h.memory.imp_right (.imp (.imp_left (hr _)) (.imp_left (hr _)))
  · exact h.display.imp_right (.imp (hr _) (hr _))
  · exact h.stack.imp_right (.imp (.imp_left (hr _)) (.imp_left (hr _)))
  · exact h.index.imp_right (.imp (hr _) (.imp (hr _) (hr _)))
  · exact h.delay.imp_right (hr _)
  · exact h.sound.imp_right (hr _)
  · exact h.wait.imp_right (hr _)
  · exact h.random.imp_right (.imp_left (hr _))
  · exact (h.registers y).imp_right
      (.imp (.imp_left among) (.imp (.imp_left among) (.imp_left (hr _))))
  · exact h.counter.imp_right (.imp among (.imp (.imp_right among) (.imp_right (hr _))))

theorem setReg (h : Footprint runs o c d) {x : Fin 16} (hx : Writes runs o x) (value : Int) :
    Footprint runs o c (d.setReg x value) :=
  { h with
    registers := fun y => by
      rw [reg_setReg]
      split
      · next hxy => exact .inr (hxy ▸ hx)
      · exact h.registers y }

theorem setFlag (h : Footprint runs o c d) (hf : Among runs flaggers) (on : Bool) :
    Footprint runs o c (d.setFlag on) :=
  h.setReg (.inr (.inl ⟨hf, rfl⟩)) _

theorem prepareShift (h : Footprint runs o c d) (hs : Among runs setters) :
    Footprint runs o c (d.prepareShift o) := by
  unfold Cpu.prepareShift
  split
  · exact h.setReg (.inl ⟨hs, rfl⟩) _
  · exact h

theorem skipIf (hs : Among runs skips) (condition : Bool) :
    Footprint runs o c (c.skipIf condition) := by
  unfold Cpu.skipIf
  split
  · exact { refl runs o c with counter := .inr (.inr (.inl ⟨rfl, hs⟩)) }
  · exact refl runs o c

theorem setRegisters (v : Vector Int 16)
    (h : ∀ y, { c with v }.reg y = c.reg y ∨ Writes runs o y) : Footprint runs o c { c with v } :=
  { refl runs o c with registers := h }

end Footprint

/-! ## Operations -/

variable (dbg : Debug.Printer) (c : Cpu) (o : Operands)

theorem among_self {op : Operation} {ops : List Operation} (h : op ∈ ops) : Among (op = ·) ops :=
  ⟨op, h, rfl⟩

theorem footprint_storeAtIndex {op : Operation} {data : List Int}
    (hm : ∀ m, c.memory.EqOutside m c.i data.length →
      Footprint (op = ·) o c { c with memory := m }) :
    (c.storeAtIndex data).All (Footprint (op = ·) o c) := by
  rw [storeAtIndex_eq]
  split
  · exact .failed (.refl _ o c)
  · next hf =>
    have hh : c.memory.Holds c.i (data.map toCell).length := by
      rw [List.length_map]
      exact Memory.spanFault_eq_none_iff.mp hf
    have he := Memory.eqOutside_overwrite hh
    rw [List.length_map] at he
    exact .done (hm _ he)

theorem footprint_fillRegisters {bytes : List UInt8} (hl : bytes.length ≤ o.x.val + 1) :
    Footprint (.loadRegisters = ·) o c (c.fillRegisters bytes) := by
  refine .setRegisters _ fun y => ?_
  change (c.fillRegisters bytes).reg y = c.reg y ∨ _
  rw [reg_fillRegisters]
  split
  · next b hb =>
    obtain ⟨hy, -⟩ := List.getElem?_eq_some_iff.mp hb
    have hyx : y ≤ o.x := by
      rw [Fin.le_def]
      omega
    exact .inr (.inr (.inr ⟨rfl, hyx⟩))
  · exact .inl rfl

/-- An operation keeps to its footprint. -/
theorem footprint_perform (op : Operation) :
    (c.perform dbg o op).All (Footprint (op = ·) o c) := by
  have hc := Footprint.refl (op = ·) o c
  cases op with
  | clearScreen => exact .done { hc with display := .inr (.inl rfl) }
  | ret =>
    rw [perform_ret]
    split
    · exact .failed hc
    · next pc stack hs =>
      have hr : Footprint (.ret = ·) o c { c with pc, stack } :=
        { hc with
          stack := .inr (.inr ⟨rfl, pc, hs⟩)
          counter := .inr (.inl (among_self (by decide))) }
      exact ⟨hr, hr⟩
  | jump => exact .done { hc with counter := .inr (.inl (among_self (by decide))) }
  | call =>
    rw [perform_call]
    split
    · exact .failed hc
    · next stack hs =>
      have hr : Footprint (.call = ·) o c { c with pc := o.nnn, stack } :=
        { hc with
          stack := .inr (.inl ⟨rfl, hs⟩)
          counter := .inr (.inl (among_self (by decide))) }
      exact ⟨hr, hr⟩
  | jumpIndexed => exact .done { hc with counter := .inr (.inl (among_self (by decide))) }
  | skipIfByte | skipUnlessByte | skipIfSame | skipUnlessSame | skipIfPressed
  | skipUnlessPressed => exact .done (.skipIf (among_self (by decide)) _)
  | setByte | addByte | copy | or | and | xor | readDelay =>
    exact .done (hc.setReg (.inl ⟨among_self (by decide), rfl⟩) _)
  | add | subtract | subtractFrom =>
    exact .done ((hc.setReg (.inl ⟨among_self (by decide), rfl⟩) _).setFlag
      (among_self (by decide)) _)
  | shiftRight | shiftLeft =>
    have hp := hc.prepareShift (among_self (by decide))
    exact .done ((hp.setReg (.inl ⟨among_self (by decide), rfl⟩) _).setFlag
      (among_self (by decide)) _)
  | setIndex => exact .done { hc with index := .inr (.inl rfl) }
  | random =>
    have hr : Footprint (.random = ·) o c { c with random := c.random.next.2 } :=
      { hc with random := .inr ⟨rfl, rfl⟩ }
    exact .done (hr.setReg (.inl ⟨among_self (by decide), rfl⟩) _)
  | draw =>
    simp only [perform]
    split
    · exact .failed hc
    · next rows _ =>
      have hd : ∀ display, Footprint (.draw = ·) o c { c with display } := fun _ =>
        { hc with display := .inr (.inr rfl) }
      exact .done ((hd _).setFlag (among_self (by decide)) _)
  | waitKey =>
    simp only [perform]
    split
    · exact .done { hc with wait := .inr rfl, counter := .inr (.inr (.inr ⟨rfl, rfl⟩)) }
    · next key _ =>
      have hk := hc.setReg (.inl ⟨among_self (by decide), rfl⟩) (key.val : Int)
      exact .done { hk with wait := .inr rfl }
  | setDelay => exact .done { hc with delay := .inr rfl }
  | setSound =>
    have hs : Footprint (.setSound = ·) o c
        { c with timers := (c.timers.setSound (c.reg o.x)).1 } := { hc with sound := .inr rfl }
    exact ⟨hs, hs⟩
  | addIndex =>
    have hi : Footprint (.addIndex = ·) o c { c with i := (c.i + c.reg o.x) % 0x10000 } :=
      { hc with index := .inr (.inr (.inl rfl)) }
    simp only [perform]
    split
    · exact .done (hi.setFlag (among_self (by decide)) _)
    · exact .done hi
  | setGlyph => exact .done { hc with index := .inr (.inr (.inr rfl)) }
  | storeDecimal =>
    exact footprint_storeAtIndex c o fun m hm => { hc with memory := .inr (.inl ⟨rfl, hm⟩) }
  | storeRegisters =>
    refine footprint_storeAtIndex c o fun m hm => ?_
    rw [length_stored] at hm
    exact { hc with memory := .inr (.inr ⟨rfl, hm⟩) }
  | loadRegisters =>
    simp only [perform, Memory.readBlock_eq]
    split
    · exact .failed hc
    · next bytes hb =>
      split at hb
      · cases hb
        exact .done (footprint_fillRegisters c o (Memory.length_block_le _ _ _))
      · cases hb
  | prepareShift => exact .done (hc.prepareShift (among_self (by decide)))

/-! ## Words -/

theorem execute_of_unknown {c : Cpu} {word : Int} (h : c.table.lookup word = none) :
    (c.execute dbg word).cpu = c ∧ (c.execute dbg word).cpuAtTone = c := by
  simp only [execute_eq, h, and_self]

theorem footprint_execute {c : Cpu} (ht : c.table = .standard) {w : Nat} (hw : w < 0x10000) :
    (c.execute dbg w).All (Footprint (·.Fits w) (.ofWord w) c) := by
  cases hl : c.table.lookup w with
  | none =>
    obtain ⟨hc, htone⟩ := execute_of_unknown dbg hl
    rw [CpuOutcome.All, hc, htone]
    exact ⟨.refl _ _ c, .refl _ _ c⟩
  | some i =>
    obtain ⟨op, hop, hfit⟩ := InstructionTable.fits_of_lookup hw (ht ▸ hl)
    rw [execute_of_operation dbg hl hop]
    obtain ⟨hc, htone⟩ := footprint_perform dbg c (.ofWord w) op
    have hr : ∀ other, op = other → other.Fits w := fun _ h => h ▸ hfit
    exact ⟨hc.mono hr, htone.mono hr⟩

/-- A word of the standard table changes no more than the operations that it fits may change, and
nothing if it has no instruction. -/
theorem execute_within_footprint {c : Cpu} (ht : c.table = .standard) {w : Nat}
    (hw : w < 0x10000) :
    Footprint (·.Fits w) (.ofWord w) c (c.execute dbg w).cpu ∧
      (c.table.lookup w = none → (c.execute dbg w).cpu = c) :=
  ⟨(footprint_execute dbg ht hw).1, fun h => (execute_of_unknown dbg h).1⟩

/-- The word that stores the first three registers. -/
theorem execute_within_footprint_storeRegisters :
    let c := { create .standard .standard .released .legacy .standard (.cycle []) with i := 0x300 }
    c.table = .standard ∧ Operation.storeRegisters.Fits 0xF255 ∧
      ¬ Operation.storeDecimal.Fits 0xF255 ∧
      Footprint (·.Fits 0xF255) (.ofWord 0xF255) c (c.execute .off 0xF255).cpu := by
  intro c
  have ht : c.table = .standard := by simp only [c, create]
  exact ⟨ht, by decide, by decide, (execute_within_footprint .off ht (by decide)).1⟩

/-! ## Steps -/

/-- The word that the next step carries out, if there is one. -/
def fetched (c : Cpu) : Option Nat := if c.idle then none else c.wordAt c.pc

theorem fetched_eq_some_iff {c : Cpu} {w : Nat} :
    c.fetched = some w ↔ c.idle = false ∧ c.wordAt c.pc = some w := by
  unfold fetched
  cases c.idle <;> simp

theorem lt_of_fetched {c : Cpu} {w : Nat} (h : c.fetched = some w) : w < 0x10000 := by
  obtain ⟨-, hword⟩ := fetched_eq_some_iff.mp h
  obtain ⟨-, -, hlt⟩ := canFetch_of_wordAt hword
  exact hlt

/-- Beside the counter and control, a step changes no more than the word that it carries out. -/
theorem all_step_of_footprint {c : Cpu} {P : Cpu → Prop} (ht : c.table = .standard)
    (hs : ∀ d r n, P d → P { d with runState := r, executed := n }) (h : P c) (ha : P c.advance)
    (hw : ∀ w, c.fetched = some w → ∀ d, Footprint (·.Fits w) (.ofWord w) c.advance d → P d) :
    (c.step dbg).All P := by
  rcases step_cases dbg c with
    ⟨d, result, runState, lines, hd, heq⟩ | ⟨w, lines, hi, hword, heq⟩
  · have hd : P d := by
      rcases hd with rfl | ⟨rfl, -⟩
      · exact h
      · exact ha
    have hend : P { d with runState } := hs d runState d.executed hd
    rw [heq]
    exact ⟨hend, hend⟩
  · obtain ⟨-, -, hlt⟩ := canFetch_of_wordAt hword
    have hfetched : c.fetched = some w := fetched_eq_some_iff.mpr ⟨hi, hword⟩
    have ht' : c.advance.table = .standard := ht
    obtain ⟨hend, htone⟩ := footprint_execute dbg ht' hlt
    rw [heq]
    exact ⟨hs _ _ _ (hw w hfetched _ hend), hw w hfetched _ htone⟩

/-- What one operation alone may change, a step leaves as it is unless it carries out a word of that
operation. -/
theorem all_step_of_not_fits {α : Type} {part : Cpu → α} {op : Operation} {c : Cpu}
    (ht : c.table = .standard) (hs : ∀ d r n, part { d with runState := r, executed := n } = part d)
    (ha : part c.advance = part c)
    (hf : ∀ {w d}, Footprint (·.Fits w) (.ofWord w) c.advance d →
      part d = part c.advance ∨ op.Fits w)
    (hn : ∀ w, c.fetched = some w → ¬ op.Fits w) : (c.step dbg).All fun d => part d = part c := by
  refine all_step_of_footprint dbg ht (fun d r n h => (hs d r n).trans h) rfl ha fun w hw d hd => ?_
  rcases hf hd with hsame | hfit
  · exact hsame.trans ha
  · exact absurd hfit (hn w hw)

end Cpu

end Chip8
