import Chip8.Proofs.Cpu.KeyWait
import Chip8.Proofs.Machine.Frontends

/-!
# Waiting for a key along a run

Wherever a machine that has been built gets to, a register waits for a key exactly while the
processor does, and then the word at the program counter is the one that waits for that register
(`Session.keyWait_of_run`). While every key is up a step changes nothing, and the first one with a
key down takes the lowest such key and goes on.
-/

namespace Chip8

open Debug (Printer)

namespace Session

/-- With a frontend that can end the tone, so that no reset is cut short. -/
theorem keyWait_of_run {config : MachineConfig} {m : Machine}
    (hm : Machine.create config = .ok m) {F : Type} [Frontend F] (hf : Frontend.EndsTone F)
    (dbg : Printer) (frontend : F) (attached : Bool) (events : List (Event F)) :
    let s := run dbg events ⟨m, frontend, attached⟩
    let c := s.machine.cpu
    (c.waitRegister.isSome = true ↔ c.runState = .awaitingKey) ∧
      ∀ x, c.waitRegister = some x →
        0 ≤ c.pc ∧ c.pc ≤ 0xFFE ∧ c.memory.load16 c.pc = .ok (waitWord x) ∧
          ((∀ key, c.keypad.isDown key = false) →
            (step dbg s).result = .ok false ∧ (step dbg s).state = s) ∧
          ∀ pressed, c.keypad.isDown pressed = true →
            ∃ key, c.keypad.isDown key = true ∧ (∀ lower < key, c.keypad.isDown lower = false) ∧
              (step dbg s).result = .ok true ∧
              (step dbg s).state =
                s.setCpu
                  { c.setReg x key.val with
                    pc := c.pc + 2, runState := .running, waitRegister := none
                    executed := c.executed + 1 } := by
  intro s c
  obtain ⟨⟨-, -, hl⟩, rfl⟩ := Machine.create_eq_ok_iff.mp hm
  have hbounds : c.WellFormed :=
    (Cpu.WellFormed.kept dbg).run events (Machine.initial_wellFormed hl)
  obtain ⟨ht, hw⟩ : c.table = .standard ∧ c.WaitState :=
    (Cpu.WaitState.kept dbg).run_of_endsTone (fun c h => ⟨h.1, .reset c⟩) hf events
      ⟨Machine.table_initial config, .create _ _ _ _ _ _⟩
  refine ⟨hw.isSome_iff, fun x hx => ?_⟩
  obtain ⟨hs, hword⟩ := hw.word_of_register hx
  obtain ⟨hfetch, hload, -⟩ := Cpu.canFetch_of_wordAt hword
  have hpc : 0 ≤ c.pc ∧ c.pc < c.memory.size - 1 := by simpa [Cpu.canFetch] using hfetch
  have hsize := hbounds.memory
  refine ⟨hpc.1, by omega, hload, fun hup => ?_, fun pressed hdown => ?_⟩
  · obtain ⟨lines, hstep⟩ := Cpu.step_of_parked_idle dbg hs hup
    have hstay : step dbg s = ⟨_, _, _⟩ := step_of_tones_nil (by rw [hstep])
    rw [hstay, hstep]
    exact ⟨rfl, rfl⟩
  · cases hk : c.keypad.firstPressed with
    | none =>
      rw [Keypad.firstPressed_eq_none_iff] at hk
      rw [hk pressed] at hdown
      cases hdown
    | some key =>
      obtain ⟨hkey, hlower⟩ := Keypad.firstPressed_eq_some_iff.mp hk
      obtain ⟨hresult, htones, hcpu⟩ := Cpu.step_of_parked dbg ht hs hword hk
      have hgo : step dbg s = ⟨(c.step dbg).result, s.setCpu (c.step dbg).cpu, _⟩ :=
        step_of_tones_nil htones
      refine ⟨key, hkey, hlower, ?_, ?_⟩
      · rw [hgo, hresult]
      · rw [hgo, hcpu]

end Session

/-- A program that waits for a key over and over. -/
def MachineConfig.waiting : MachineConfig where
  dialect := .legacy
  program := .listed [0xF3, 0x0A, 0x12, 0x00]
  cyclesPerFrame := 12
  random := .ofSequence fun _ => 0
  trace := none

theorem Machine.wordAt_waiting :
    (initial .waiting).cpu.wordAt (initial .waiting).cpu.pc = some (waitWord 3) :=
  Cpu.wordAt_of_program rfl (by decide) 0 rfl rfl (by decide)

theorem Session.keyWait_of_run_waiting :
    ∃ m, Machine.create .waiting = .ok m ∧
      let s := run .off [.step] (⟨m, Headless.start, false⟩ : Session Headless)
      s.machine.cpu.waitRegister = some 3 ∧ s.machine.cpu.runState = .awaitingKey ∧
        (step .off s).result = .ok false ∧ (step .off s).state = s := by
  obtain ⟨m, hm⟩ : ∃ m, Machine.create .waiting = .ok m :=
    ⟨_, Machine.create_eq_ok_iff.mpr ⟨⟨by decide, by decide, by decide⟩, rfl⟩⟩
  have hinitial := (Machine.create_eq_ok_iff.mp hm).2
  have ht : m.cpu.table = .standard := hinitial ▸ Machine.table_initial .waiting
  have hword : m.cpu.wordAt m.cpu.pc = some (waitWord 3) := hinitial ▸ Machine.wordAt_waiting
  have hi : m.cpu.idle = false := hinitial ▸ rfl
  have hup : ∀ key, m.cpu.keypad.isDown key = false := by
    rw [hinitial]
    decide
  obtain ⟨htones, hcpu⟩ :=
    Cpu.step_parks .off ht hi hword (Keypad.firstPressed_eq_none_iff.mpr hup)
  obtain ⟨hiff, hparked⟩ :=
    keyWait_of_run hm Headless.endsTone .off Headless.start false [.step]
  have hs : (run .off [.step] (⟨m, Headless.start, false⟩ : Session Headless)).machine.cpu =
      (m.cpu.step .off).cpu :=
    cpu_step_of_tones_nil htones
  refine ⟨m, hm, ?_⟩
  intro s
  have hx : s.machine.cpu.waitRegister = some 3 := by rw [hs, hcpu]
  have hkeys : ∀ key, s.machine.cpu.keypad.isDown key = false := by
    rw [hs, hcpu]
    exact hup
  obtain ⟨-, -, -, hidle, -⟩ := hparked 3 hx
  exact ⟨hx, hiff.mp (Option.isSome_iff_exists.mpr ⟨3, hx⟩), hidle hkeys⟩

end Chip8
