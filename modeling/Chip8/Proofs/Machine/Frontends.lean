import Chip8.App.Ui
import Chip8.Proofs.Machine.Runs

/-!
# Frontends that fail

What a session is told of a change of the tone goes on to its frontend, which may fail. Ending the
tone never does with the frontends of the library (`Frontend.EndsTone`), so that a reset, which can
do nothing else to the tone, always comes to its end (`cpu_reset`). A property that resets bring
about and all other operations keep is then kept by every run (`run_of_endsTone`).

The errors of a frontend are `Frontend.Raises`.
-/

namespace Chip8

open Debug (Printer)

namespace Frontend

def EndsTone (F : Type) [Frontend F] : Prop :=
  ∀ f : F, ((setTone false : Action F Unit).run f).result = .ok ()

/-- The errors with which a frontend may end. -/
inductive Raises (F : Type) [Frontend F] (e : Error) : Prop where
  | draw (grid : Grid) (f : F) (h : ((Frontend.draw grid : Action F Unit).run f).result = .error e)
  | poll (dbg : Printer) (f : F)
      (h : ((Frontend.poll dbg : Action F (Option InputEvent)).run f).result = .error e)
  | setTone (on : Bool) (f : F) (h : ((Frontend.setTone on : Action F Unit).run f).result = .error e)

end Frontend

theorem Headless.endsTone : Frontend.EndsTone Headless := fun _ => rfl

theorem Headless.not_raises (e : Error) : ¬ Frontend.Raises Headless e := by
  rintro (⟨grid, f, h⟩ | ⟨dbg, f, h⟩ | ⟨on, f, h⟩) <;> cases h

namespace Session

variable {F : Type} [Frontend F] {dbg : Printer}

/-! ## Changes of the tone -/

theorem raises_of_onFrontend {a : Action F Unit} {e : Error}
    (ha : ∀ f, (a.run f).result = .error e → Frontend.Raises F e) {s : Session F}
    (h : (onFrontend a s).result = .error e) : Frontend.Raises F e := by
  unfold onFrontend at h
  split at h
  · exact ha s.frontend h
  · cases h

/-- Telling of the tone goes wrong only if the frontend fails. -/
theorem raises_of_forwardTones {e : Error} :
    ∀ (tones : List Bool) (s : Session F), (forwardTones dbg tones s).result = .error e →
      Frontend.Raises F e
  | [], _, h => by cases h
  | on :: tones, s, h => by
    have hon : ((forwardTone dbg on).run s).result = .error e → Frontend.Raises F e := by
      rw [forwardTone_eq]
      exact raises_of_onFrontend fun f => .setTone on f
    have ht : ∀ t : Session F, (forwardTones dbg tones t).result = .error e →
        Frontend.Raises F e := raises_of_forwardTones tones
    unfold forwardTones at h
    generalize (forwardTone dbg on).run s = o at hon h
    obtain ⟨result, t, lines⟩ := o
    cases result with
    | error e => exact hon h
    | ok _ => exact ht t h

/-! ## Resets -/

theorem forwardTones_of_endsTone (hf : Frontend.EndsTone F) :
    ∀ (tones : List Bool) (s : Session F), (∀ on ∈ tones, on = false) →
      (forwardTones dbg tones s).result = .ok ()
  | [], _, _ => rfl
  | on :: tones, s, h => by
    obtain rfl := h on List.mem_cons_self
    have hon : ((forwardTone dbg false).run s).result = .ok () := by
      rw [forwardTone_eq]
      show (onFrontend (Frontend.setTone false) s).result = .ok ()
      unfold onFrontend
      split
      · exact hf s.frontend
      · rfl
    have ht := fun t => forwardTones_of_endsTone hf tones t fun on' h' =>
      h on' (List.mem_cons_of_mem false h')
    unfold forwardTones
    generalize (forwardTone dbg false).run s = o at hon
    obtain ⟨result, t, lines⟩ := o
    cases hon
    exact ht t

theorem tones_reset (c : Cpu) : ∀ on ∈ c.reset.tones, on = false := by
  intro on h
  have hc : c.timers.reset.2 = some on := by simpa [Cpu.reset, Timers.events] using h
  exact (Timers.crossing_eq_some hc).1.symm

theorem cpu_install_of_told {α : Type} {o : CpuOutcome α} {s : Session F}
    (h : (forwardTones dbg o.tones (s.setCpu o.cpuAtTone)).result = .ok ()) :
    (s.install dbg o).state.machine.cpu = o.cpu := by
  unfold install
  simp only [h]
  rfl

theorem cpu_reset (hf : Frontend.EndsTone F) (s : Session F) :
    (reset dbg s).state.machine.cpu = s.machine.cpu.reset.cpu :=
  cpu_install_of_told (forwardTones_of_endsTone hf _ _ (tones_reset _))

end Session

theorem Cpu.KeptBetweenResets.run_of_endsTone {F : Type} [Frontend F] {dbg : Printer}
    {P : Cpu → Prop} (hk : KeptBetweenResets dbg P) (hr : ∀ c, P c → P c.reset.cpu)
    (hf : Frontend.EndsTone F) (events : List (Session.Event F)) {s : Session F}
    (h : P s.machine.cpu) : P (s.run dbg events).machine.cpu := by
  refine Session.run_induction (Q := fun s => P s.machine.cpu) (fun e _ t ht => ?_) h
  by_cases he : e = .reset
  · subst he
    show P (Session.reset dbg t).state.machine.cpu
    rw [Session.cpu_reset hf]
    exact hr _ ht
  · exact hk.machine.apply he ht

end Chip8
