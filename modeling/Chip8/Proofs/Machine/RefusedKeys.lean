import Chip8.Proofs.Failures
import Chip8.Proofs.Input.Keypad
import Chip8.Proofs.Machine.Runs
import Chip8.Proofs.Machine.Tracing

/-!
# Keys that no keypad refuses

Only a keypad refuses a key, and it refuses those that it does not have. `Action.Takes Q`: from a
state with `Q` the action ends in one with `Q`, and not because a key is refused. What is made of
such actions is one, so that it can be read off the way an action is put together.

A frontend is orderly if its own actions are of this kind and it delivers keys of the keypad only
(`Frontend.Orderly`). No frame of a session with such a frontend ever refuses a key
(`Session.takesKeys_of_run`).
-/

namespace Chip8

open Debug (Printer)

/-! ## Results -/

/-- The computation does not end because a key is refused. -/
def TakesKeys {α : Type} (r : Except Error α) : Prop := ∀ key, r ≠ .error (.keyOutOfRange key)

namespace TakesKeys

variable {α β : Type} {r : Except Error α}

theorem ok {a : α} : TakesKeys (.ok a) := nofun

theorem error {e : Error} (h : ∀ key, e ≠ .keyOutOfRange key) :
    TakesKeys (.error e : Except Error α) :=
  fun key he => h key (Except.error.inj he)

theorem of_error {e : Error} (h : TakesKeys r) (he : r = .error e) :
    TakesKeys (.error e : Except Error β) :=
  error fun key heq => h key (heq ▸ he)

theorem iff_failsWith : TakesKeys r ↔ FailsWith (fun e => ∀ key, e ≠ .keyOutOfRange key) r :=
  ⟨fun h _ he key heq => h key (heq ▸ he), fun h key he => h _ he key rfl⟩

theorem bind {next : α → Except Error β} (h : TakesKeys r) (hn : ∀ a, TakesKeys (next a)) :
    TakesKeys (r >>= next) :=
  iff_failsWith.mpr ((iff_failsWith.mp h).bind fun a => iff_failsWith.mp (hn a))

theorem map (h : TakesKeys r) (f : α → β) : TakesKeys (r.map f) :=
  iff_failsWith.mpr ((iff_failsWith.mp h).map f)

theorem of_map {f : α → β} (h : TakesKeys (r.map f)) : TakesKeys r :=
  fun key he => h key (congrArg (Except.map f) he)

theorem mapM {f : α → Except Error β} (h : ∀ a, TakesKeys (f a)) (items : List α) :
    TakesKeys (items.mapM f) :=
  iff_failsWith.mpr (.mapM (fun a => iff_failsWith.mp (h a)) items)

end TakesKeys

/-! ## Outcomes -/

/-- The operation has not ended because a key is refused, and it has left a state with `Q`. -/
structure Outcome.Takes {σ α : Type} (Q : σ → Prop) (o : Outcome σ α) : Prop where
  takes : TakesKeys o.result
  keeps : Q o.state

namespace Outcome.Takes

variable {σ τ α β : Type} {Q : σ → Prop} {o : Outcome σ α}

theorem done {answer : α} {s : σ} {lines : List Debug.Line} (h : Q s) :
    (Outcome.done answer s lines).Takes Q :=
  ⟨.ok, h⟩

theorem map (h : o.Takes Q) (f : α → β) : (o.map f).Takes Q := ⟨h.takes.map f, h.keeps⟩

theorem mapState {R : τ → Prop} (h : o.Takes Q) {f : σ → τ} (hf : ∀ s, Q s → R (f s)) :
    (o.mapState f).Takes R :=
  ⟨h.takes, hf _ h.keeps⟩

theorem after (h : o.Takes Q) (earlier : List Debug.Line) : (o.after earlier).Takes Q :=
  ⟨h.takes, h.keeps⟩

theorem andThen {next : α → σ → Outcome σ β} (h : o.Takes Q)
    (hn : ∀ a, o.result = .ok a → Q o.state → (next a o.state).Takes Q) :
    (o.andThen next).Takes Q := by
  cases hr : o.result with
  | error e =>
    rw [andThen_of_error hr]
    exact ⟨h.takes.of_error hr, h.keeps⟩
  | ok a =>
    rw [andThen_of_ok hr]
    exact (hn a hr h.keeps).after o.lines

end Outcome.Takes

/-! ## Actions -/

/-- From a state with `Q` the action ends in one with `Q`, and not because a key is refused. -/
def Action.Takes {σ α : Type} (Q : σ → Prop) (a : Action σ α) : Prop :=
  ∀ s, Q s → (a.run s).Takes Q

namespace Action.Takes

variable {σ τ α β : Type} {Q : σ → Prop} {a : Action σ α}

theorem answer (x : α) : (pure x : Action σ α).Takes Q := fun _ h => .done h

theorem look : (get : Action σ σ).Takes Q := fun _ h => .done h

theorem change {f : σ → σ} (hf : ∀ s, Q s → Q (f s)) : (modify f : Action σ Unit).Takes Q :=
  fun s h => .done (hf s h)

theorem lift {r : Except Error α} (h : TakesKeys r) : (liftExcept r : Action σ α).Takes Q := by
  intro s hs
  cases r with
  | error e => exact ⟨h.of_error rfl, hs⟩
  | ok x => exact .done hs

theorem fail {e : Error} (h : ∀ key, e ≠ .keyOutOfRange key) : (throw e : Action σ α).Takes Q :=
  fun _ hs => ⟨.error h, hs⟩

theorem say {category text : String} {values : List Text.Value}
    (h : Debug.Spoken ⟨category, text, values⟩) (dbg : Printer) :
    (Action.say dbg category text values : Action σ Unit).Takes Q := by
  intro s hs
  rw [Action.run_say h]
  exact .done hs

theorem bind {next : α → Action σ β} (h : a.Takes Q) (hn : ∀ x, (next x).Takes Q) :
    (a >>= next).Takes Q :=
  fun s hs => (h s hs).andThen fun x _ hlater => hn x _ hlater

theorem onPart {P : τ → Prop} {part : σ → τ} {put : τ → σ → σ} {b : Action τ α} (h : b.Takes P)
    (hpart : ∀ s, Q s → P (part s)) (hput : ∀ s t, Q s → P t → Q (put t s)) :
    (b.onPart part put).Takes Q :=
  fun s hs => (h (part s) (hpart s hs)).mapState fun t => hput s t hs

theorem countTrue {b : Action σ Bool} (h : b.Takes Q) (n : Nat) : (b.countTrue n).Takes Q := by
  induction n with
  | zero => exact answer 0
  | succ n ih =>
    rw [countTrue_succ]
    exact h.bind fun yes => ih.bind fun count => answer _

end Action.Takes

/-! ## Processors -/

theorem Cpu.takesKeys_step (dbg : Printer) (c : Cpu) : TakesKeys (c.step dbg).result := by
  intro key he
  rcases step_failed dbg he with ⟨h, -⟩ | ⟨word, lines, hf, -⟩
  · cases h
  · cases mayFault_of_wordFault hf

/-! ## Frontends -/

/-- None of the actions of the frontend ends because a key is refused. They keep `Good`, under which
the frontend delivers keys of the keypad only. -/
structure Frontend.Orderly {F : Type} [Frontend F] (dbg : Printer) (Good : F → Prop) :
    Prop where
  draw (grid : Grid) : (Frontend.draw grid : Action F Unit).Takes Good
  setTone (on : Bool) : (Frontend.setTone on : Action F Unit).Takes Good
  poll : (Frontend.poll dbg : Action F (Option InputEvent)).Takes Good
  onKeypad {f : F} {index : Int} {pressed : Bool} : Good f →
    ((Frontend.poll dbg : Action F (Option InputEvent)).run f).result =
      .ok (some (.key index pressed)) → 0 ≤ index ∧ index < 16

namespace Session

variable {F : Type} [Frontend F] {α : Type} {dbg : Printer} {Good : F → Prop} {s : Session F}

/-! ## The tone -/

omit [Frontend F] in
theorem takes_onFrontend {a : Action F Unit} (ha : a.Takes Good) (h : Good s.frontend) :
    (onFrontend a s).Takes (Good ·.frontend) := by
  unfold onFrontend
  split
  · exact (ha s.frontend h).mapState fun _ hf => hf
  · exact .done h

theorem takes_forwardTones (hF : Frontend.Orderly dbg Good) (tones : List Bool)
    (h : Good s.frontend) : (forwardTones dbg tones s).Takes (Good ·.frontend) := by
  induction tones generalizing s with
  | nil => exact .done h
  | cons active tones ih =>
    have hone : ((forwardTone dbg active).run s).Takes (Good ·.frontend) := by
      rw [forwardTone_eq]
      exact (takes_onFrontend (hF.setTone active) h).after _
    exact hone.andThen fun _ _ => ih

theorem good_install (hF : Frontend.Orderly dbg Good) (o : CpuOutcome α) (h : Good s.frontend) :
    Good (s.install dbg o).state.frontend := by
  have ht := takes_forwardTones hF o.tones (s := s.setCpu o.cpuAtTone) h
  unfold install
  simp only
  split
  · exact ht.keeps
  · exact ht.keeps

theorem takes_install (hF : Frontend.Orderly dbg Good) {o : CpuOutcome α}
    (ho : TakesKeys o.result) (h : Good s.frontend) :
    (s.install dbg o).Takes (Good ·.frontend) := by
  refine ⟨?_, good_install hF o h⟩
  have ht := takes_forwardTones hF o.tones (s := s.setCpu o.cpuAtTone) h
  unfold install
  simp only
  split
  · exact ho
  · rename_i e he
    exact ht.takes.of_error he

theorem takes_step (hF : Frontend.Orderly dbg Good) :
    (step dbg : Action (Session F) Bool).Takes (Good ·.frontend) := fun s h =>
  takes_install hF (s.machine.cpu.takesKeys_step dbg) h

theorem takes_tick (hF : Frontend.Orderly dbg Good) :
    (tick dbg : Action (Session F) Unit).Takes (Good ·.frontend) := fun _ h =>
  takes_install hF .ok h

/-! ## Cycles -/

theorem takes_cycle (hF : Frontend.Orderly dbg Good) :
    (cycle dbg : Action (Session F) Bool).Takes (Good ·.frontend) := by
  intro s h
  have hs : (step dbg s).Takes (Good ·.frontend) := takes_step hF s h
  show (cycle dbg s).Takes (Good ·.frontend)
  unfold cycle
  split
  · exact hs
  obtain ⟨seen, hseen⟩ := s.machine.cpu.upcoming_eq_ok
  unfold recordedStep
  simp only [hseen]
  split
  · exact hs.mapState fun _ h => h
  · split
    · exact hs.mapState fun _ h => h
    · exact hs

/-! ## Input -/

/-- A session takes every key of the keypad. -/
theorem takes_setKey (hF : Frontend.Orderly dbg Good) {index : Int} {pressed : Bool}
    (hindex : 0 ≤ index ∧ index < 16) :
    (setKey dbg index pressed : Action (Session F) Unit).Takes (Good ·.frontend) := by
  intro s h
  obtain ⟨changed, hok⟩ := Keypad.setKey_of_bounds dbg s.machine.cpu.keypad hindex
  have hcpu : (s.machine.cpu.setKey dbg index pressed).result = .ok () :=
    congrArg (Except.map fun _ => ()) hok
  have htakes : TakesKeys (s.machine.cpu.setKey dbg index pressed).result := hcpu ▸ .ok
  exact takes_install hF htakes h

theorem takes_drainWithin (hF : Frontend.Orderly dbg Good) (bound : Nat) :
    (drainWithin dbg bound : Action (Session F) Bool).Takes (Good ·.frontend) := by
  induction bound with
  | zero => exact fun _ h => .done h
  | succ bound ih =>
    intro s h
    have hpoll : (((Frontend.poll dbg).run s.frontend).mapState fun frontend =>
        { s with frontend }).Takes (Good ·.frontend) := (hF.poll _ h).mapState fun _ hf => hf
    refine hpoll.andThen fun event hevent hgood => ?_
    match event with
    | none => exact .done hgood
    | some .quit => exact .done hgood
    | some (.key index pressed) =>
      exact (takes_setKey hF (hF.onKeypad h hevent) _ hgood).andThen fun _ _ => ih _

/-! ## Frames -/

theorem takes_draw (hF : Frontend.Orderly dbg Good) :
    (draw : Action (Session F) Unit).Takes (Good ·.frontend) := fun s h =>
  takes_onFrontend (hF.draw s.machine.cpu.display.rows) h

theorem takes_advanceFrame (hF : Frontend.Orderly dbg Good) :
    (advanceFrame dbg : Action (Session F) Unit).Takes (Good ·.frontend) := by
  intro s h
  simp only [Action.run, advanceFrame_eq]
  refine ((takes_cycle hF).countTrue s.machine.cyclesPerFrame s h).andThen fun executed _ h => ?_
  refine (takes_tick hF _ h).andThen fun _ _ h => ?_
  exact (takes_draw hF (countFrame _) h).after _

theorem takes_runFrame (hF : Frontend.Orderly dbg Good) :
    (runFrame dbg : Action (Session F) Bool).Takes (Good ·.frontend) := by
  intro s h
  have hinput : (if s.attached then drainInput dbg s else .done true s []).Takes
      (Good ·.frontend) := by
    split
    · exact takes_drainWithin hF _ s h
    · exact .done h
  refine hinput.andThen fun goesOn _ h => ?_
  split
  · exact (takes_advanceFrame hF _ h).map _
  · exact .done h

/-! ## Runs -/

theorem good_apply (hF : Frontend.Orderly dbg Good) {e : Event F}
    (he : ∀ f, e = .change f → ∀ g, Good g → Good (f g)) (h : Good s.frontend) :
    Good (apply dbg e s).frontend := by
  cases e with
  | step => exact (takes_step hF s h).keeps
  | cycles count => exact ((takes_cycle hF).countTrue count s h).keeps
  | frame => exact (takes_runFrame hF s h).keeps
  | key index pressed => exact good_install hF _ h
  | tick => exact (takes_tick hF s h).keeps
  | reset => exact good_install hF _ h
  | attach =>
    show Good (attach s).state.frontend
    unfold attach
    simp only
    split
    · exact (takes_onFrontend (s := { s with attached := true }) (hF.setTone true) h).keeps
    · exact h
  | detach => exact h
  | change f => exact he f rfl s.frontend h

/-- Whatever happens to a session with an orderly frontend, no frame ever refuses a key. -/
theorem takesKeys_of_run (hF : Frontend.Orderly dbg Good) {events : List (Event F)}
    (hchange : ∀ f, .change f ∈ events → ∀ g, Good g → Good (f g)) (h : Good s.frontend) :
    TakesKeys (runFrame dbg (run dbg events s)).result := by
  have hrun : Good (run dbg events s).frontend :=
    run_induction (Q := (Good ·.frontend)) (fun e he t ht =>
      good_apply hF (fun f hf => hchange f (hf ▸ he)) ht) h
  exact (takes_runFrame hF _ hrun).takes

end Session

end Chip8
