import Chip8.Proofs.Cpu.Footprint
import Chip8.Proofs.Machine.FaultConditions
import Chip8.Proofs.Machine.KeyWait
import Chip8.Proofs.Machine.Tracing

/-!
# Batches of cycles

Cycles can be run in batches: `k + n` of them are `k` and then, unless one of those failed, `n` more
from where the first ones ended (`Session.runCycles_add`). Each cycle is a step as far as its answer
and the processor are concerned, whether it is recorded or not (`cycle_mapState`).

The answer counts what the processor counts itself, and falls short of the number of cycles only
if the processor has nothing more to execute (`Cpu.Counted`). For this the induction goes by the
last cycle: once there is nothing to execute, a cycle changes neither that nor anything else of the
processor.
-/

namespace Chip8

open Debug (Printer)

theorem Action.countTrue_add {σ : Type} (a : Action σ Bool) (k n : Nat) :
    a.countTrue (k + n) = do
      let first ← a.countTrue k
      let later ← a.countTrue n
      return first + later := by
  induction k with
  | zero => simp only [Nat.zero_add, countTrue_zero, pure_bind, bind_pure]
  | succ k ih =>
    rw [Nat.add_right_comm, countTrue_succ, ih, countTrue_succ]
    simp only [bind_assoc, pure_bind]
    refine bind_congr fun yes => bind_congr fun first => bind_congr fun later => ?_
    cases yes <;> simp [Nat.add_right_comm]

namespace Outcome

variable {σ α β : Type} {o : Outcome σ α}

/-- Both parts of a chain that succeeds do, and it ends where the second one ends. -/
theorem of_andThen_ok {next : α → σ → Outcome σ β} {b : β}
    (h : (o.andThen next).result = .ok b) :
    ∃ a, o.result = .ok a ∧ (next a o.state).result = .ok b ∧
      (o.andThen next).state = (next a o.state).state := by
  cases hr : o.result with
  | error e =>
    rw [andThen_of_error hr] at h
    cases h
  | ok a =>
    rw [andThen_of_ok hr] at h ⊢
    exact ⟨a, rfl, h, rfl⟩

theorem of_map_ok {f : α → β} {b : β} (h : (o.map f).result = .ok b) :
    ∃ a, o.result = .ok a ∧ b = f a := by
  obtain ⟨result, s, lines⟩ := o
  cases result with
  | error e => cases h
  | ok a =>
    cases h
    exact ⟨a, rfl, rfl⟩

end Outcome

/-! ## Counting instructions -/

namespace Cpu

variable (dbg : Printer) {c d : Cpu}

theorem executed_execute (c : Cpu) (word : Int) :
    (c.execute dbg word).cpu.executed = c.executed := by
  refine (all_execute (P := (·.executed = c.executed)) rfl fun op => ?_).1
  obtain ⟨hc, htone⟩ := footprint_perform dbg c (.ofWord word) op
  exact ⟨hc.fixed.2.2, htone.fixed.2.2⟩

theorem executed_step {stepped : Bool} (h : (c.step dbg).result = .ok stepped) :
    (c.step dbg).cpu.executed = c.executed + stepped.toNat := by
  cases stepped with
  | false =>
    obtain ⟨lines, heq⟩ := step_of_idle dbg ((idle_iff_step_false dbg c).mpr h)
    rw [heq]
    rfl
  | true =>
    obtain ⟨hi, w, hw, hf⟩ := of_step_ok_true dbg h
    obtain ⟨lines, heq⟩ := executeFetched_of_no_fault dbg c.pc hf
    rw [step_of_word dbg hi hw, heq]
    exact congrArg (· + 1) (executed_execute dbg c.advance w)

/-- From `c` to `d`, `steps` of `cycles` cycles have executed an instruction. -/
structure Counted (cycles steps : Nat) (c d : Cpu) : Prop where
  executed : d.executed = c.executed + steps
  le : steps ≤ cycles
  idle : steps < cycles → d.idle = true

theorem Counted.refl (c : Cpu) : Counted 0 0 c c :=
  ⟨rfl, Nat.le_refl 0, fun h => absurd h (Nat.lt_irrefl 0)⟩

theorem Counted.step {cycles steps : Nat} (h : Counted cycles steps c d) {stepped : Bool}
    (hs : (d.step dbg).result = .ok stepped) :
    Counted (cycles + 1) (steps + stepped.toNat) c (d.step dbg).cpu := by
  have hcount := executed_step dbg hs
  cases stepped with
  | false =>
    have hi := (idle_iff_step_false dbg d).mpr hs
    obtain ⟨lines, heq⟩ := step_of_idle dbg hi
    rw [heq]
    exact ⟨h.executed, Nat.le_succ_of_le h.le, fun _ => hi⟩
  | true =>
    -- `d` is not idle, so that none of the cycles before has been without effect
    have hall : ¬ steps < cycles := fun hlt => by
      rw [(idle_iff_step_false dbg d).mp (h.idle hlt)] at hs
      cases hs
    have hle := h.le
    refine ⟨?_, Nat.succ_le_succ hle, fun hlt => absurd (Nat.lt_of_succ_lt_succ hlt) hall⟩
    rw [hcount, h.executed, Nat.add_assoc]

end Cpu

namespace Session

variable {F : Type} [Frontend F] {α : Type} {dbg : Printer} {s : Session F}

theorem runCycles_add (dbg : Printer) (k n : Nat) (s : Session F) :
    runCycles dbg (k + n) s =
      (runCycles dbg k s).andThen fun first t => (runCycles dbg n t).map (first + ·) := by
  rw [runCycles, Action.countTrue_add]
  refine congrArg (runCycles dbg k s).andThen (funext fun first => funext fun t => ?_)
  exact Action.run_bind_pure _ _ _

/-- The last cycle apart. -/
theorem runCycles_succ_last (dbg : Printer) (n : Nat) (s : Session F) :
    runCycles dbg (n + 1) s =
      (runCycles dbg n s).andThen fun executed t =>
        (cycle dbg t).map fun stepped => executed + stepped.toNat := by
  rw [runCycles_add]
  refine congrArg (runCycles dbg n s).andThen (funext fun executed => funext fun t => ?_)
  rw [runCycles_succ]
  obtain ⟨result, u, lines⟩ := cycle dbg t
  cases result with
  | error e => rfl
  | ok stepped =>
    cases stepped <;> simp [Outcome.andThen, Outcome.map, Outcome.after, Outcome.done, Except.map]

/-! ### One cycle -/

theorem cpu_of_install_ok {o : CpuOutcome α} {answer : α}
    (h : (s.install dbg o).result = .ok answer) :
    (s.install dbg o).state.machine.cpu = o.cpu := by
  unfold install at h ⊢
  simp only at h ⊢
  split at h
  · rfl
  · cases h

theorem result_cycle (dbg : Printer) (s : Session F) :
    (cycle dbg s).result = (step dbg s).result :=
  (congrArg Outcome.result (cycle_mapState dbg s) :)

theorem cpu_cycle (dbg : Printer) (s : Session F) :
    (cycle dbg s).state.machine.cpu = (step dbg s).state.machine.cpu :=
  (congrArg (·.state.machine.cpu) (cycle_mapState dbg s) :)

/-- A cycle that succeeds leaves behind what a step of the processor leaves behind. -/
theorem cpu_of_cycle_ok {stepped : Bool} (h : (cycle dbg s).result = .ok stepped) :
    (s.machine.cpu.step dbg).result = .ok stepped ∧
      (cycle dbg s).state.machine.cpu = (s.machine.cpu.step dbg).cpu := by
  rw [result_cycle] at h
  exact ⟨result_of_install h, (cpu_cycle dbg s).trans (cpu_of_install_ok h)⟩

/-! ### Cycles in a row -/

theorem counted_runCycles {n steps : Nat} (h : (runCycles dbg n s).result = .ok steps) :
    Cpu.Counted n steps s.machine.cpu (runCycles dbg n s).state.machine.cpu := by
  induction n generalizing steps with
  | zero =>
    cases h
    exact .refl _
  | succ n ih =>
    rw [runCycles_succ_last] at h ⊢
    obtain ⟨earlier, hearlier, hlast, hstate⟩ := Outcome.of_andThen_ok h
    rw [hstate]
    obtain ⟨stepped, hcycle, rfl⟩ := Outcome.of_map_ok hlast
    obtain ⟨hstep, hcpu⟩ := cpu_of_cycle_ok hcycle
    have hnext := (ih hearlier).step dbg hstep
    rwa [← hcpu] at hnext

theorem state_runCycles_of_ok {stepped : Bool} (h : (cycle dbg s).result = .ok stepped) (n : Nat) :
    (runCycles dbg (n + 1) s).state = (runCycles dbg n (cycle dbg s).state).state := by
  rw [runCycles_succ, Outcome.andThen_of_ok h]
  rfl

theorem state_runCycles_of_error {e : Error} (h : (cycle dbg s).result = .error e) (n : Nat) :
    (runCycles dbg (n + 1) s).state = (cycle dbg s).state := by
  rw [runCycles_succ, Outcome.andThen_of_error h]
  rfl

theorem result_runCycles_of_ok {n steps : Nat} {stepped : Bool}
    (h : (cycle dbg s).result = .ok stepped)
    (hrest : (runCycles dbg n (cycle dbg s).state).result = .ok steps) :
    (runCycles dbg (n + 1) s).result = .ok (steps + stepped.toNat) := by
  rw [runCycles_succ, Outcome.andThen_of_ok h]
  simp only [Outcome.after, Outcome.map, hrest, Except.map]
  cases stepped <;> rfl

theorem result_runCycles_of_idle (hi : s.machine.cpu.idle = true) (n : Nat) :
    (runCycles dbg n s).result = .ok 0 := by
  induction n generalizing s with
  | zero => rfl
  | succ n ih =>
    obtain ⟨lines, hstep⟩ := Cpu.step_of_idle dbg hi
    have hcycle : (cycle dbg s).result = .ok false := by
      rw [result_cycle, step_of_tones_nil (by rw [hstep]), hstep]
    refine result_runCycles_of_ok hcycle (ih ?_)
    rw [(cpu_of_cycle_ok hcycle).2, hstep]
    exact hi

/-- In two batches or in one, cycles end the same way, print the same lines and leave the same
session behind. Those that succeed count the instructions they execute, and come to fewer of them
only if at the end there is nothing more to execute. -/
theorem runCycles_in_batches (dbg : Printer) (a b : Nat) (s : Session F) :
    (runCycles dbg (a + b) s =
      (runCycles dbg a s).andThen fun first t => (runCycles dbg b t).map (first + ·)) ∧
    ∀ n, (runCycles dbg (a + b) s).result = .ok n →
      let c := (runCycles dbg (a + b) s).state.machine.cpu
      c.executed = s.machine.cpu.executed + n ∧ n ≤ a + b ∧
        (n < a + b → c.runState = .halted ∨
          c.runState = .awaitingKey ∧ ∀ key, c.keypad.isDown key = false) := by
  refine ⟨runCycles_add dbg a b s, fun n hn => ?_⟩
  obtain ⟨hexecuted, hle, hidle⟩ := counted_runCycles hn
  exact ⟨hexecuted, hle, fun hlt => Cpu.idle_iff.mp (hidle hlt)⟩

/-- The first of three cycles parks the processor, which ends all of them. -/
theorem runCycles_in_batches_waiting :
    let s := (⟨.initial .waiting, Headless.start, true⟩ : Session Headless).withTrace
      (some (.blank 4))
    (runCycles .off (1 + 2) s).result = .ok 1 ∧
      let c := (runCycles .off (1 + 2) s).state.machine.cpu
      c.executed = 1 ∧
        (c.runState = .halted ∨
          c.runState = .awaitingKey ∧ ∀ key, c.keypad.isDown key = false) := by
  intro s
  have ht : s.machine.cpu.table = .standard := Machine.table_initial .waiting
  have hup : ∀ key, s.machine.cpu.keypad.isDown key = false := by decide
  obtain ⟨lines, hparks⟩ :=
    Cpu.executeFetched_waitWord .off ht (Keypad.firstPressed_eq_none_iff.mpr hup) 3
  have hw : s.machine.cpu.wordAt s.machine.cpu.pc = some (waitWord 3) := Machine.wordAt_waiting
  have hstep := (Cpu.step_of_word .off rfl hw).trans hparks
  have hfirst : (cycle .off s).result = .ok true := by
    rw [result_cycle, step_of_tones_nil (by rw [hstep]), hstep]
  have hidle : (cycle .off s).state.machine.cpu.idle = true := by
    rw [(cpu_of_cycle_ok hfirst).2, hstep]
    exact Cpu.idle_iff.mpr (.inr ⟨rfl, hup⟩)
  have hresult : (runCycles .off (1 + 2) s).result = .ok 1 :=
    result_runCycles_of_ok hfirst (result_runCycles_of_idle hidle 2)
  obtain ⟨-, hcount⟩ := runCycles_in_batches .off 1 2 s
  obtain ⟨hexecuted, -, hend⟩ := hcount 1 hresult
  exact ⟨hresult, hexecuted, hend (by decide)⟩

end Session

end Chip8
