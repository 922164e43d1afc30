import Chip8.Proofs.Cpu.Kept

/-!
# The bounds of the processor

`Cpu.WellFormed`: registers and timers are bytes, the index is a word, memory, stack and picture
have their usual sizes, the program counter is at most `0x10FE` and every return address lies
between 2 and `0x1000`. The two last bounds need each other. A fetch leaves the counter between 2
and `0x1000`, which is what a call pushes; from there an instruction takes it at most one skip
further, back by two, to a target of twelve bits or to the sum of such a target and a byte.

Every operation keeps the bounds from a counter behind a fetch (`WellFormed.perform`), and so do a
step, a tick, a reset and a change of a key (`WellFormed.kept`), also where the operation fails or
ends at a change of the tone.
-/

namespace Chip8

/-! ## The picture -/

namespace FrameBuffer

theorem size_drawColumns (row x y : Int) : ∀ (count : Nat) (f : FrameBuffer),
    (drawColumns row x y count f).1.width = f.width ∧
      (drawColumns row x y count f).1.height = f.height
  | 0, _ => ⟨rfl, rfl⟩
  | count + 1, f => by
    simp only [drawColumns]
    split
    · exact size_drawColumns row x y count _
    · exact size_drawColumns row x y count f

theorem size_drawSprite (x : Int) : ∀ (rows : List Int) (y : Int) (f : FrameBuffer),
    (f.drawSprite x y rows).1.width = f.width ∧ (f.drawSprite x y rows).1.height = f.height
  | [], _, _ => ⟨rfl, rfl⟩
  | row :: rows, y, f => by
    obtain ⟨hw, hh⟩ := size_drawColumns row x y 8 f
    obtain ⟨hw', hh'⟩ := size_drawSprite x rows (y + 1) (drawColumns row x y 8 f).1
    exact ⟨hw'.trans hw, hh'.trans hh⟩

end FrameBuffer

/-! ## Operands -/

theorem Operands.ofWord_lt (word : Int) :
    (ofWord word).nn < 0x100 ∧ (ofWord word).nnn < 0x1000 :=
  ⟨Nat.mod_lt _ (by decide), Nat.mod_lt _ (by decide)⟩

namespace Cpu

variable {c : Cpu}

/-! ## Registers -/

theorem reg_setReg (c : Cpu) (x y : Fin 16) (value : Int) :
    (c.setReg x value).reg y = if x = y then value else c.reg y := by
  simp only [reg, setReg, Vector.getElem_set, Fin.ext_iff]

theorem reg_fillRegisters (c : Cpu) (bytes : List UInt8) (x : Fin 16) :
    (c.fillRegisters bytes).reg x =
      match bytes[x.val]? with
      | some b => (b.toNat : Int)
      | none => c.reg x := by
  cases h : bytes[x.val]? <;> simp [reg, fillRegisters, h]

/-! ## The bounds -/

/-- Every part of the processor is within its bounds. -/
structure WellFormed (c : Cpu) : Prop where
  registers (x : Fin 16) : 0 ≤ c.reg x ∧ c.reg x ≤ 0xFF
  index : 0 ≤ c.i ∧ c.i ≤ 0xFFFF
  counter : 0 ≤ c.pc ∧ c.pc ≤ 0x10FE
  capacity : c.stack.capacity = 16
  depth : c.stack.depth ≤ 16
  returns : ∀ address ∈ c.stack.entries, 2 ≤ address ∧ address ≤ 0x1000
  delay : c.timers.delay ≤ 0xFF
  sound : c.timers.sound ≤ 0xFF
  memory : c.memory.size = 0x1000
  width : c.display.width = 64
  height : c.display.height = 32

theorem lowByte_bounds (value : Int) :
    0 ≤ (lowByte value : Int) ∧ (lowByte value : Int) ≤ 0xFF := by
  have := lowByte_lt value
  omega

theorem cell_bounds (b : UInt8) : 0 ≤ (b.toNat : Int) ∧ (b.toNat : Int) ≤ 0xFF := by
  have := b.toNat_lt
  omega

namespace WellFormed

theorem setReg (h : c.WellFormed) (x : Fin 16) {value : Int} (hv : 0 ≤ value ∧ value ≤ 0xFF) :
    (c.setReg x value).WellFormed :=
  { h with
    registers := fun y => by
      rw [reg_setReg]
      split
      · exact hv
      · exact h.registers y }

theorem setFlag (h : c.WellFormed) (on : Bool) : (c.setFlag on).WellFormed := by
  refine h.setReg _ ?_
  cases on <;> decide

theorem skipIf (h : c.WellFormed) (hpc : c.pc ≤ 0x1000) (condition : Bool) :
    (c.skipIf condition).WellFormed := by
  have hc := h.counter
  unfold Cpu.skipIf
  split
  · exact { h with counter := by simp only [skip]; omega }
  · exact h

theorem prepareShift (h : c.WellFormed) (o : Operands) : (c.prepareShift o).WellFormed := by
  unfold Cpu.prepareShift
  split
  · exact h.setReg o.x (h.registers o.y)
  · exact h

theorem shifted (h : c.WellFormed) (o : Operands) (result : Int) (out : Bool) :
    (c.shifted o result out).WellFormed :=
  (h.setReg o.x (lowByte_bounds result)).setFlag out

theorem storeAtIndex (h : c.WellFormed) (data : List Int) :
    (c.storeAtIndex data).All WellFormed := by
  rw [storeAtIndex_eq]
  split
  · exact .failed h
  · next hspan =>
    have hsize : (c.memory.overwrite c.i.toNat (data.map toCell)).size = c.memory.size := by
      apply Memory.Holds.size_overwrite
      rw [List.length_map]
      exact Memory.spanFault_eq_none_iff.mp hspan
    exact .done { h with memory := hsize.trans h.memory }

theorem setRegisters (h : c.WellFormed) {v : Vector Int 16}
    (hv : ∀ x : Fin 16, 0 ≤ { c with v }.reg x ∧ { c with v }.reg x ≤ 0xFF) :
    { c with v }.WellFormed :=
  { h with registers := hv }

theorem fillRegisters (h : c.WellFormed) (bytes : List UInt8) :
    (c.fillRegisters bytes).WellFormed := by
  refine h.setRegisters fun x => ?_
  show 0 ≤ (c.fillRegisters bytes).reg x ∧ (c.fillRegisters bytes).reg x ≤ 0xFF
  rw [reg_fillRegisters]
  split
  · exact cell_bounds _
  · exact h.registers x

theorem setTimers (h : c.WellFormed) {timers : Timers} (hd : timers.delay ≤ 0xFF)
    (hs : timers.sound ≤ 0xFF) : { c with timers }.WellFormed :=
  { h with delay := hd, sound := hs }

/-- An operation keeps the bounds if it starts behind a fetch. -/
theorem perform (h : c.WellFormed) (hpc : 2 ≤ c.pc ∧ c.pc ≤ 0x1000) (dbg : Debug.Printer)
    (word : Int) (op : Operation) : (c.perform dbg (.ofWord word) op).All WellFormed := by
  obtain ⟨hnn, hnnn⟩ := Operands.ofWord_lt word
  generalize Operands.ofWord word = o at hnn hnnn
  cases op with
  | clearScreen => exact .done { h with width := h.width, height := h.height }
  | ret =>
    rw [perform_ret, CallStack.pop]
    cases he : c.stack.entries with
    | nil => exact .failed h
    | cons address rest =>
      have hd := h.depth
      have hr := h.returns
      rw [CallStack.depth, he, List.length_cons] at hd
      rw [he] at hr
      have ha := hr address List.mem_cons_self
      have hw : { c with pc := address, stack := { c.stack with entries := rest } }.WellFormed :=
        { h with
          counter := by simp only; omega
          capacity := h.capacity
          depth := by simp only [CallStack.depth]; omega
          returns := fun a hm => hr a (List.mem_cons_of_mem _ hm) }
      exact ⟨hw, hw⟩
  | jump => exact .done { h with counter := by simp only; omega }
  | call =>
    rw [perform_call, CallStack.push]
    split
    · rename_i e hs
      exact .failed h
    · rename_i stack hs
      split at hs
      · cases hs
      rename_i hf
      cases hs
      have hw : { c with
          pc := o.nnn, stack := { c.stack with entries := c.pc :: c.stack.entries } }.WellFormed :=
        { h with
          counter := by simp only; omega
          capacity := h.capacity
          depth := by
            have hlt : c.stack.depth < 16 := by simpa [CallStack.isFull, h.capacity] using hf
            exact hlt
          returns := fun a hm => by
            rcases List.mem_cons.mp hm with rfl | hm
            · exact hpc
            · exact h.returns a hm }
      exact ⟨hw, hw⟩
  | jumpIndexed =>
    refine .done { h with counter := ?_ }
    cases c.dialect with
    | legacy =>
      have := h.registers jumpRegister
      simp only
      omega
    | superChip =>
      have := h.registers o.x
      simp only
      omega
  | skipIfByte => exact .done (h.skipIf hpc.2 _)
  | skipUnlessByte => exact .done (h.skipIf hpc.2 _)
  | skipIfSame => exact .done (h.skipIf hpc.2 _)
  | skipUnlessSame => exact .done (h.skipIf hpc.2 _)
  | setByte => exact .done (h.setReg _ (by omega))
  | addByte => exact .done (h.setReg _ (lowByte_bounds _))
  | copy => exact .done (h.setReg _ (h.registers _))
  | or =>
    have := Nat.or_lt_two_pow (n := 8) (lowByte_lt (c.reg o.x)) (lowByte_lt (c.reg o.y))
    exact .done (h.setReg _ (by omega))
  | and =>
    have := Nat.and_lt_two_pow (n := 8) (lowByte (c.reg o.x)) (lowByte_lt (c.reg o.y))
    exact .done (h.setReg _ (by omega))
  | xor =>
    have := Nat.xor_lt_two_pow (n := 8) (lowByte_lt (c.reg o.x)) (lowByte_lt (c.reg o.y))
    exact .done (h.setReg _ (by omega))
  | add => exact .done ((h.setReg _ (lowByte_bounds _)).setFlag _)
  | subtract => exact .done ((h.setReg _ (lowByte_bounds _)).setFlag _)
  | subtractFrom => exact .done ((h.setReg _ (lowByte_bounds _)).setFlag _)
  | shiftRight => exact .done ((h.prepareShift o).shifted o _ _)
  | shiftLeft => exact .done ((h.prepareShift o).shifted o _ _)
  | setIndex => exact .done { h with index := by simp only; omega }
  | random =>
    have := Nat.and_lt_two_pow (n := 8) c.random.next.1.toNat hnn
    have hv : 0 ≤ ((c.random.next.1.toNat &&& o.nn : Nat) : Int) ∧
        ((c.random.next.1.toNat &&& o.nn : Nat) : Int) ≤ 0xFF := by omega
    have hr : { c with random := c.random.next.2 }.WellFormed := { h with }
    exact .done (hr.setReg _ hv)
  | draw =>
    simp only [Cpu.perform, Memory.readBlock_eq]
    split
    · rename_i e hs
      exact .failed h
    · rename_i rows hs
      obtain ⟨hw, hh⟩ := FrameBuffer.size_drawSprite (c.reg o.x)
        (rows.map fun (b : UInt8) => (b.toNat : Int)) (c.reg o.y) c.display
      have hd : { c with
          display := (c.display.drawSprite (c.reg o.x) (c.reg o.y)
            (rows.map fun (b : UInt8) => (b.toNat : Int))).1 }.WellFormed :=
        { h with width := hw.trans h.width, height := hh.trans h.height }
      exact .done (hd.setFlag _)
  | skipIfPressed => exact .done (h.skipIf hpc.2 _)
  | skipUnlessPressed => exact .done (h.skipIf hpc.2 _)
  | waitKey =>
    simp only [Cpu.perform]
    split
    · exact .done { h with counter := by simp only; omega }
    · rename_i key _
      have hk : (c.setReg o.x key.val).WellFormed := h.setReg _ (by omega)
      exact .done { hk with }
  | readDelay =>
    have := h.delay
    exact .done (h.setReg _ (by omega))
  | setDelay =>
    have := lowByte_lt (c.reg o.x)
    exact .done (h.setTimers (by simp only [Timers.setDelay]; omega) h.sound)
  | setSound =>
    have := lowByte_lt (c.reg o.x)
    have hw : { c with timers := (c.timers.setSound (c.reg o.x)).1 }.WellFormed :=
      h.setTimers h.delay (by simp only [Timers.setSound]; omega)
    exact ⟨hw, hw⟩
  | addIndex =>
    have hi : { c with i := (c.i + c.reg o.x) % 0x10000 }.WellFormed :=
      { h with index := by simp only; omega }
    simp only [Cpu.perform]
    split
    · exact .done (hi.setFlag _)
    · exact .done hi
  | setGlyph =>
    have := Font.glyphOffset_le (c.reg o.x)
    exact .done { h with index := by simp only [fontStart]; omega }
  | storeDecimal => exact h.storeAtIndex _
  | storeRegisters => exact h.storeAtIndex _
  | loadRegisters =>
    simp only [Cpu.perform, Memory.readBlock_eq]
    split
    · rename_i e hs
      exact .failed h
    · exact .done (h.fillRegisters _)
  | prepareShift => exact .done (h.prepareShift o)

/-- What is fetched lies in memory, so that the counter behind it is at least 2 and at most the size
of memory. -/
theorem advance (h : c.WellFormed) {word : Nat} (hw : c.wordAt c.pc = some word) :
    c.advance.WellFormed ∧ 2 ≤ c.advance.pc ∧ c.advance.pc ≤ 0x1000 := by
  have hf : 0 ≤ c.pc ∧ c.pc < c.memory.size - 1 := by
    simpa [canFetch] using (canFetch_of_wordAt hw).1
  have hm := h.memory
  have hpc : 2 ≤ c.advance.pc ∧ c.advance.pc ≤ 0x1000 := by
    simp only [Cpu.advance]
    omega
  exact ⟨{ h with counter := by omega }, hpc⟩

theorem step (h : c.WellFormed) (dbg : Debug.Printer) : (c.step dbg).All WellFormed := by
  refine all_step (fun c r n h => { h with }) h fun word hw => ?_
  obtain ⟨ha, hpc⟩ := h.advance hw
  exact ⟨ha, ha.perform hpc dbg word⟩

theorem tick (h : c.WellFormed) : c.tick.All WellFormed := by
  have hd := h.delay
  have hs := h.sound
  have hw : { c with timers := c.timers.tick.1 }.WellFormed :=
    h.setTimers (by simp only [Timers.tick]; omega) (by simp only [Timers.tick]; omega)
  exact ⟨hw, hw⟩

theorem reset (h : c.WellFormed) : c.reset.All WellFormed := by
  have hw : WellFormed
      { c with
        v := Vector.replicate 16 0, i := 0, pc := programStart, stack := c.stack.clear
        timers := .zero } :=
    { h with
      registers := fun x => by simp [reg]
      index := by simp
      counter := by simp [programStart]
      depth := by simp [CallStack.clear, CallStack.depth]
      returns := fun a ha => absurd ha List.not_mem_nil
      delay := Nat.zero_le _
      sound := Nat.zero_le _ }
  exact ⟨{ hw with }, hw⟩

theorem setKey (h : c.WellFormed) (dbg : Debug.Printer) (index : Int) (pressed : Bool) :
    (c.setKey dbg index pressed).All WellFormed :=
  ⟨{ h with }, { h with }⟩

theorem kept (dbg : Debug.Printer) : Kept dbg WellFormed where
  step h := h.step dbg
  tick h := h.tick
  reset h := h.reset
  setKey index pressed h := h.setKey dbg index pressed

/-- A processor starts within its bounds. -/
theorem create {memory : Memory} (hm : memory.size = 0x1000) (keypad : Keypad) (dialect : Dialect)
    (table : InstructionTable) (random : RandomSource) :
    (Cpu.create memory .standard keypad dialect table random).WellFormed where
  registers x := by simp [Cpu.create, reg]
  index := by simp [Cpu.create]
  counter := by simp [Cpu.create, programStart]
  capacity := rfl
  depth := Nat.zero_le _
  returns a ha := absurd ha List.not_mem_nil
  delay := Nat.zero_le _
  sound := Nat.zero_le _
  memory := hm
  width := rfl
  height := rfl

end WellFormed

end Cpu

end Chip8
