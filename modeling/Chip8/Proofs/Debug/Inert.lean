import Chip8.Frontend
import Chip8.Proofs.Debug.Spoken

/-!
# Operations that only speak

An operation is inert if what is printed decides nothing else: how it ends, the state that it leaves
behind and the messages that it has for the debug lines are the same under all printers
(`Outcome.Inert`, `Action.Inert`). What is made of inert operations is inert, so that it can be read
off the way an operation is put together.

A message that cannot be printed ends its operation. The ones that the interpreter has can be
printed (`Action.Inert.say`). Inert operations in turn give the same history under all printers
(`Action.history_eq`).
-/

namespace Chip8

open Debug (Printer)

/-! ## Messages -/

namespace Debug

/-- The lines of messages in turn. -/
def linesOf (dbg : Printer) (messages : List Message) : List Line :=
  messages.flatMap (·.lines dbg)

theorem linesOf_append (dbg : Printer) (messages later : List Message) :
    linesOf dbg (messages ++ later) = linesOf dbg messages ++ linesOf dbg later :=
  List.flatMap_append

theorem linesOf_singleton (dbg : Printer) (m : Message) : linesOf dbg [m] = m.lines dbg :=
  List.append_nil _

end Debug

open Debug (Message Spoken linesOf)

/-! ## Outcomes -/

/-- The printer decides nothing but which messages are printed. -/
def Outcome.Inert {σ α : Type} (o : Printer → Outcome σ α) : Prop :=
  ∃ (result : Except Error α) (state : σ) (messages : List Message),
    (∀ m ∈ messages, Spoken m) ∧ ∀ dbg, o dbg = ⟨result, state, linesOf dbg messages⟩

namespace Outcome.Inert

variable {σ τ α β : Type} {o : Printer → Outcome σ α}

theorem agree (h : Inert o) (dbg dbg' : Printer) :
    (o dbg).result = (o dbg').result ∧ (o dbg).state = (o dbg').state := by
  obtain ⟨result, state, messages, -, h⟩ := h
  rw [h, h]
  exact ⟨rfl, rfl⟩

/-- An operation that does not look at the printer and prints nothing. -/
theorem silent {p : Outcome σ α} (h : p.lines = []) : Inert fun _ => p := by
  refine ⟨p.result, p.state, [], nofun, fun dbg => ?_⟩
  show p = ⟨p.result, p.state, []⟩
  rw [← h]

theorem done (answer : α) (state : σ) : Inert fun _ => .done answer state [] := silent rfl

theorem failed (e : Error) (state : σ) : Inert fun _ => (.failed e state [] : Outcome σ α) :=
  silent rfl

theorem speaks {category text : String} {values : List Text.Value}
    (hm : Spoken ⟨category, text, values⟩) (answer : α) (state : σ) :
    Inert fun dbg => .done answer state (dbg.lines category text values) :=
  ⟨.ok answer, state, _, List.forall_mem_singleton.mpr hm, fun dbg => by
    rw [Debug.linesOf_singleton]
    rfl⟩

theorem map (h : Inert o) (f : α → β) : Inert fun dbg => (o dbg).map f := by
  obtain ⟨result, state, messages, hs, h⟩ := h
  exact ⟨result.map f, state, messages, hs, fun dbg => congrArg (Outcome.map f) (h dbg)⟩

theorem mapState (h : Inert o) (f : σ → τ) : Inert fun dbg => (o dbg).mapState f := by
  obtain ⟨result, state, messages, hs, h⟩ := h
  exact ⟨result, f state, messages, hs, fun dbg => congrArg (Outcome.mapState f) (h dbg)⟩

theorem andThen {next : Printer → α → σ → Outcome σ β} (h : Inert o)
    (hn : ∀ a s, Inert fun dbg => next dbg a s) :
    Inert fun dbg => (o dbg).andThen (next dbg) := by
  obtain ⟨result, state, messages, hs, h⟩ := h
  have hstart := fun dbg => congrArg (Outcome.andThen · (next dbg)) (h dbg)
  cases result with
  | error e => exact ⟨.error e, state, messages, hs, hstart⟩
  | ok a =>
    obtain ⟨result, later, more, hs', hn⟩ := hn a state
    refine ⟨result, later, messages ++ more, List.forall_mem_append.mpr ⟨hs, hs'⟩, fun dbg => ?_⟩
    rw [Debug.linesOf_append]
    exact (hstart dbg).trans (congrArg (Outcome.after (linesOf dbg messages)) (hn dbg))

end Outcome.Inert

/-! ## Actions -/

/-- The action is inert in every state. -/
def Action.Inert {σ α : Type} (a : Printer → Action σ α) : Prop :=
  ∀ s, Outcome.Inert fun dbg => (a dbg).run s

namespace Action.Inert

variable {σ τ α β : Type}

theorem answer (a : α) : Inert fun _ => (pure a : Action σ α) := fun s => .done a s

theorem fail (e : Error) : Inert fun _ => (throw e : Action σ α) := fun s => .failed e s

theorem look : Inert fun _ => (get : Action σ σ) := fun s => .done s s

theorem change (f : σ → σ) : Inert fun _ => (modify f : Action σ Unit) := fun s => .done () (f s)

theorem lift (r : Except Error α) : Inert fun _ => (liftExcept r : Action σ α) := by
  cases r with
  | error e => exact fun s => .failed e s
  | ok a => exact fun s => .done a s

theorem say {category text : String} {values : List Text.Value}
    (h : Spoken ⟨category, text, values⟩) :
    Inert fun dbg => (Action.say dbg category text values : Action σ Unit) := by
  intro s
  simp only [Action.run_say h]
  exact .speaks h () s

theorem bind {a : Printer → Action σ α} {next : Printer → α → Action σ β} (h : Inert a)
    (hn : ∀ x, Inert fun dbg => next dbg x) : Inert fun dbg => a dbg >>= next dbg :=
  fun s => (h s).andThen fun x t => hn x t

theorem onPart {part : σ → τ} {put : τ → σ → σ} {a : Printer → Action τ α} (h : Inert a) :
    Inert fun dbg => (a dbg).onPart part put := fun s =>
  (h (part s)).mapState (put · s)

end Action.Inert

/-! ## Histories -/

/-- What an operation gives back. -/
inductive Answer where
  | nothing
  | flag (yes : Bool)
  | count (n : Nat)
  | input (event : Option InputEvent)
  deriving DecidableEq, Repr

/-- Operations in turn, each on the state that the one before leaves behind, also if it fails: how
they ended, and the states after them. -/
def Action.history {σ α ω : Type} (respond : ω → Action σ α) : List ω → σ →
    List (Except Error α × σ)
  | [], _ => []
  | op :: ops, s =>
    let o := (respond op).run s
    (o.result, o.state) :: history respond ops o.state

/-- The state that operations in turn leave behind, also if some of them fail. -/
def Action.runAll {σ α ω : Type} (respond : ω → Action σ α) (ops : List ω) (s : σ) : σ :=
  ops.foldl (fun s op => ((respond op).run s).state) s

theorem Action.runAll_append {σ α ω : Type} (respond : ω → Action σ α) (ops more : List ω) (s : σ) :
    runAll respond (ops ++ more) s = runAll respond more (runAll respond ops s) :=
  List.foldl_append

theorem Action.history_append {σ α ω : Type} (respond : ω → Action σ α) (ops more : List ω)
    (s : σ) :
    history respond (ops ++ more) s =
      history respond ops s ++ history respond more (runAll respond ops s) := by
  induction ops generalizing s with
  | nil => rfl
  | cons op ops ih => exact congrArg (List.cons _) (ih _)

theorem Action.history_eq {σ α ω : Type} {respond : Printer → ω → Action σ α}
    (h : ∀ op, Action.Inert (respond · op)) (dbg dbg' : Printer) (ops : List ω) (s : σ) :
    history (respond dbg) ops s = history (respond dbg') ops s := by
  induction ops generalizing s with
  | nil => rfl
  | cons op ops ih =>
    obtain ⟨hresult, hstate⟩ := (h op s).agree dbg dbg'
    simp only [history, hresult, hstate, ih]

end Chip8
