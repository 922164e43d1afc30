import Chip8.Proofs.Cpu.Control
import Chip8.Proofs.Input.Keypad

/-!
# Waiting for a key

`Cpu.WaitState`: either no register waits for a key and the processor does not either, or one does
and the word that made it wait is the one fetched next. With the standard instructions every step
keeps this (`WaitState.step`). So a parked processor knows what it will do when a key goes down:
`step_of_parked`.
-/

namespace Chip8.Cpu

variable (dbg : Debug.Printer) {c : Cpu}

inductive WaitState (c : Cpu) : Prop where
  | free (register : c.waitRegister = none) (state : c.runState ≠ .awaitingKey)
  | parked (x : Fin 16) (register : c.waitRegister = some x) (state : c.runState = .awaitingKey)
      (word : c.wordAt c.pc = some (waitWord x))

namespace WaitState

theorem isSome_iff (h : c.WaitState) :
    c.waitRegister.isSome = true ↔ c.runState = .awaitingKey := by
  cases h with
  | free hr hs => simp [hr, hs]
  | parked x hr hs hw => simp [hr, hs]

theorem word_of_register (h : c.WaitState) {x : Fin 16} (hx : c.waitRegister = some x) :
    c.runState = .awaitingKey ∧ c.wordAt c.pc = some (waitWord x) := by
  cases h with
  | free hr hs =>
    rw [hr] at hx
    cases hx
  | parked y hr hs hw =>
    rw [hr] at hx
    cases hx
    exact ⟨hs, hw⟩

/-- What is fetched is a word that waits, or nothing waits. -/
theorem free_of_word (h : c.WaitState) (ht : c.table = .standard) {word : Nat}
    (hw : c.wordAt c.pc = some word) (hn : c.table.waits word = false) :
    c.waitRegister = none ∧ c.runState ≠ .awaitingKey := by
  cases h with
  | free hr hs => exact ⟨hr, hs⟩
  | parked x hr hs hx =>
    rw [hw] at hx
    cases hx
    rw [ht, InstructionTable.waits_waitWord] at hn
    cases hn

/-- A processor that differs in nothing that a wait looks at. -/
theorem congr (h : c.WaitState) {d : Cpu} (hr : d.waitRegister = c.waitRegister)
    (hs : d.runState = c.runState) (hw : d.wordAt d.pc = c.wordAt c.pc) : d.WaitState := by
  cases h with
  | free hr' hs' => exact .free (hr.trans hr') (hs ▸ hs')
  | parked x hr' hs' hw' => exact .parked x (hr.trans hr') (hs.trans hs') (hw.trans hw')

/-- A word that waits, carried out behind the place where it lies. -/
theorem execute_waitWord (ht : c.table = .standard) {x : Fin 16}
    (hw : c.wordAt c.pc = some (waitWord x)) :
    (c.advance.execute dbg (waitWord x)).All WaitState := by
  rw [Cpu.execute_waitWord dbg (c := c.advance) ht]
  split
  · have hpc : c.pc + 2 - 2 = c.pc := by omega
    have hback : c.wordAt (c.pc + 2 - 2) = some (waitWord x) := by rw [hpc, hw]
    exact .done (.parked x rfl rfl hback)
  · exact .done (.free rfl nofun)

theorem step (h : c.WaitState) (ht : c.table = .standard) : (c.step dbg).All WaitState := by
  by_cases hi : c.idle = true
  · obtain ⟨lines, heq⟩ := step_of_idle dbg hi
    rw [heq]
    exact ⟨h, h⟩
  rw [Bool.not_eq_true] at hi
  cases hw : c.wordAt c.pc with
  | none =>
    rw [step_of_unfetchable dbg hi hw]
    cases h with
    | free hr hs => exact .failed (.free hr nofun)
    | parked x hr hs hx =>
      rw [hw] at hx
      cases hx
  | some word =>
    rw [step_of_word dbg hi hw]
    obtain ⟨-, -, hlt⟩ := canFetch_of_wordAt hw
    cases hwaits : c.table.waits word with
    | true =>
      rw [ht, InstructionTable.waits_standard_iff hlt] at hwaits
      generalize (Operands.ofWord word).x = x at hwaits
      subst hwaits
      obtain ⟨lines, heq⟩ :=
        executeFetched_of_no_fault dbg c.pc (wordFault_waitWord (c := c.advance) ht x)
      obtain ⟨hc, htone⟩ := execute_waitWord dbg ht hw
      rw [heq]
      exact ⟨hc.congr rfl rfl rfl, htone⟩
    | false =>
      obtain ⟨hr, hs⟩ := h.free_of_word ht hw hwaits
      have hfree : ∀ d : Cpu, d.waitRegister = c.waitRegister ∧
          (d.runState = c.runState ∨ d.runState = .halted) → d.WaitState := by
        rintro d ⟨hd, hrun | hhalt⟩
        · exact .free (hd.trans hr) (hrun ▸ hs)
        · exact .free (hd.trans hr) (by simp [hhalt])
      obtain ⟨hc, htone⟩ := control_executeFetched dbg (c := c.advance) ht hwaits c.pc
      exact ⟨hfree _ hc, hfree _ htone⟩

theorem create (memory : Memory) (display : FrameBuffer) (keypad : Keypad) (dialect : Dialect)
    (table : InstructionTable) (random : RandomSource) :
    (Cpu.create memory display keypad dialect table random).WaitState :=
  .free rfl nofun

theorem reset (c : Cpu) : c.reset.cpu.WaitState := .free rfl nofun

theorem kept (dbg : Debug.Printer) :
    KeptBetweenResets dbg fun c => c.table = .standard ∧ c.WaitState where
  step h := ((table_kept dbg .standard).step h.1).and (h.2.step dbg h.1)
  tick h := ⟨⟨h.1, h.2.congr rfl rfl rfl⟩, h.1, h.2.congr rfl rfl rfl⟩
  setKey _ _ h := ⟨⟨h.1, h.2.congr rfl rfl rfl⟩, h.1, h.2.congr rfl rfl rfl⟩

end WaitState

/-! ## Parked processors -/

/-- While every key is up, the waiting word parks the processor where the word lies. -/
theorem executeFetched_waitWord (ht : c.table = .standard) (hk : c.keypad.firstPressed = none)
    (x : Fin 16) :
    ∃ lines, c.advance.executeFetched dbg c.pc (waitWord x) =
      { result := .ok true
        cpu :=
          { c with
            runState := .awaitingKey, waitRegister := some x, executed := c.executed + 1 }
        cpuAtTone := { c with runState := .awaitingKey, waitRegister := some x }
        lines } := by
  obtain ⟨lines, heq⟩ :=
    executeFetched_of_no_fault dbg c.pc (wordFault_waitWord (c := c.advance) ht x)
  have hk' : c.advance.keypad.firstPressed = none := hk
  have hpc : c.pc + 2 - 2 = c.pc := by omega
  rw [heq, execute_waitWord dbg (c := c.advance) ht, hk']
  simp only [CpuOutcome.done, advance, hpc]
  exact ⟨lines, rfl⟩

theorem step_parks (ht : c.table = .standard) (hi : c.idle = false) {x : Fin 16}
    (hw : c.wordAt c.pc = some (waitWord x)) (hk : c.keypad.firstPressed = none) :
    (c.step dbg).tones = [] ∧
      (c.step dbg).cpu =
        { c with
          runState := .awaitingKey, waitRegister := some x, executed := c.executed + 1 } := by
  obtain ⟨lines, heq⟩ := executeFetched_waitWord dbg ht hk x
  rw [step_of_word dbg hi hw, heq]
  exact ⟨rfl, rfl⟩

/-- A parked processor stays as it is while every key is up. -/
theorem step_of_parked_idle (hs : c.runState = .awaitingKey)
    (hk : ∀ key, c.keypad.isDown key = false) :
    ∃ lines, c.step dbg = { result := .ok false, cpu := c, lines } := by
  refine step_of_idle dbg ?_
  simp [idle, awaitingKey, hs, Keypad.anyPressed_eq_false_iff.mpr hk]

/-- With a key down a parked processor takes the lowest one and goes on. -/
theorem step_of_parked (ht : c.table = .standard) (hs : c.runState = .awaitingKey) {x : Fin 16}
    (hw : c.wordAt c.pc = some (waitWord x)) {key : Key} (hk : c.keypad.firstPressed = some key) :
    (c.step dbg).result = .ok true ∧ (c.step dbg).tones = [] ∧
      (c.step dbg).cpu =
        { c.setReg x key.val with
          pc := c.pc + 2, runState := .running, waitRegister := none
          executed := c.executed + 1 } := by
  have hany : c.keypad.anyPressed = true := by
    rw [← Bool.not_eq_false, ← Keypad.firstPressed_eq_none_iff_anyPressed, hk]
    exact Option.some_ne_none key
  have hi : c.idle = false := by simp [idle, halted, awaitingKey, hs, hany]
  obtain ⟨lines, heq⟩ :=
    executeFetched_of_no_fault dbg c.pc (wordFault_waitWord (c := c.advance) ht x)
  have hex := execute_waitWord dbg (c := c.advance) ht x
  have hk' : c.advance.keypad.firstPressed = some key := hk
  simp only [hk'] at hex
  rw [step_of_word dbg hi hw, heq, hex]
  exact ⟨rfl, rfl, rfl⟩

end Chip8.Cpu
