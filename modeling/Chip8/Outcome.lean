import Chip8.Debug
import Chip8.Error

/-!
# Outcomes

An operation ends with an answer or an error, and in both cases it leaves a state behind and may
have printed lines. `Action` chains such operations: an error ends the chain with the state and the
lines that had come about by then.
-/

namespace Chip8

/-- How an operation on a state `σ` with answers in `α` ended. -/
structure Outcome (σ α : Type) where
  result : Except Error α
  state : σ
  lines : List Debug.Line

namespace Outcome

variable {σ τ α β : Type}

def done (answer : α) (state : σ) (lines : List Debug.Line) : Outcome σ α :=
  ⟨.ok answer, state, lines⟩

def failed (error : Error) (state : σ) (lines : List Debug.Line) : Outcome σ α :=
  ⟨.error error, state, lines⟩

/-- The same end with another view of the state. -/
def mapState (f : σ → τ) (o : Outcome σ α) : Outcome τ α := ⟨o.result, f o.state, o.lines⟩

/-- The same end with another answer. -/
def map (f : α → β) (o : Outcome σ α) : Outcome σ β := ⟨o.result.map f, o.state, o.lines⟩

/-- The same end after earlier lines. -/
def after (earlier : List Debug.Line) (o : Outcome σ α) : Outcome σ α :=
  { o with lines := earlier ++ o.lines }

/-- Goes on with `next` after a success. -/
def andThen (o : Outcome σ α) (next : α → σ → Outcome σ β) : Outcome σ β :=
  match o with
  | ⟨.ok answer, state, lines⟩ => (next answer state).after lines
  | ⟨.error error, state, lines⟩ => ⟨.error error, state, lines⟩

@[simp] theorem andThen_done (answer : α) (state : σ) (lines : List Debug.Line)
    (next : α → σ → Outcome σ β) :
    (done answer state lines).andThen next = (next answer state).after lines := rfl

@[simp] theorem andThen_failed (error : Error) (state : σ) (lines : List Debug.Line)
    (next : α → σ → Outcome σ β) :
    (failed error state lines).andThen next = failed error state lines := rfl

theorem andThen_of_ok {o : Outcome σ α} {next : α → σ → Outcome σ β} {a : α}
    (h : o.result = .ok a) : o.andThen next = (next a o.state).after o.lines := by
  obtain ⟨result, state, lines⟩ := o
  cases h
  rfl

theorem andThen_of_error {o : Outcome σ α} {next : α → σ → Outcome σ β} {e : Error}
    (h : o.result = .error e) : o.andThen next = .failed e o.state o.lines := by
  obtain ⟨result, state, lines⟩ := o
  cases h
  rfl

@[simp] theorem after_nil (o : Outcome σ α) : o.after [] = o := rfl

theorem andThen_done_right (o : Outcome σ α) : (o.andThen fun a s => done a s []) = o := by
  obtain ⟨result, state, lines⟩ := o
  cases result with
  | error e => rfl
  | ok a => simp [andThen, after, done]

theorem andThen_assoc {γ : Type} (o : Outcome σ α) (f : α → σ → Outcome σ β)
    (g : β → σ → Outcome σ γ) :
    (o.andThen f).andThen g = o.andThen fun a s => (f a s).andThen g := by
  obtain ⟨result, state, lines⟩ := o
  cases result with
  | error e => rfl
  | ok a =>
    simp only [andThen, after]
    rcases hf : f a state with ⟨r, s, l⟩
    cases r <;> simp [List.append_assoc]

end Outcome

/-- An operation on a state, waiting for it. -/
def Action (σ α : Type) : Type := σ → Outcome σ α

namespace Action

variable {σ τ α : Type}

def run (a : Action σ α) (state : σ) : Outcome σ α := a state

instance : Monad (Action σ) where
  pure answer := fun state => .done answer state []
  bind a next := fun state => (a.run state).andThen fun answer later => (next answer).run later

instance : MonadStateOf σ (Action σ) where
  get := fun state => .done state state []
  set state := fun _ => .done () state []
  modifyGet f := fun state => .done (f state).1 (f state).2 []

instance : MonadExceptOf Error (Action σ) where
  throw error := fun state => .failed error state []
  tryCatch a handle := fun state =>
    match a.run state with
    | ⟨.ok answer, later, lines⟩ => ⟨.ok answer, later, lines⟩
    | ⟨.error error, later, lines⟩ => ((handle error).run later).after lines

/-- Prints lines. -/
def print (lines : List Debug.Line) : Action σ Unit := fun state => .done () state lines

/-- Prints a message. One that cannot be printed ends the action. -/
def say (dbg : Debug.Printer) (category message : String) (values : List Text.Value) :
    Action σ Unit := fun state =>
  match dbg.say category message values with
  | .ok lines => .done () state lines
  | .error e => .failed e state []

/-- An action on a part of the state. -/
def onPart (part : σ → τ) (put : τ → σ → σ) (a : Action τ α) : Action σ α :=
  fun state => (a.run (part state)).mapState (put · state)

/-- Does the action `n` times, after `count` true answers and the lines printed with them. -/
def countTrueFrom (a : Action σ Bool) (count : Nat) (printed : Array Debug.Line) :
    Nat → σ → Outcome σ Nat
  | 0, state => ⟨.ok count, state, printed.toList⟩
  | n + 1, state =>
    match a.run state with
    | ⟨.ok yes, later, lines⟩ =>
      countTrueFrom a (if yes then count + 1 else count) (printed ++ lines) n later
    | ⟨.error e, later, lines⟩ => ⟨.error e, later, (printed ++ lines).toList⟩

/-- Does the action `n` times; how often it answered true. -/
def countTrue (a : Action σ Bool) (n : Nat) : Action σ Nat := countTrueFrom a 0 #[] n

@[simp] theorem run_pure (answer : α) (state : σ) :
    (pure answer : Action σ α).run state = .done answer state [] := rfl

instance : LawfulMonad (Action σ) :=
  LawfulMonad.mk' _
    (fun a => funext fun state => (a.run state).andThen_done_right)
    (fun _ _ => rfl)
    (fun a f g => funext fun state =>
      (a.run state).andThen_assoc (fun x s => (f x).run s) fun y s => (g y).run s)

theorem run_bind {β : Type} (a : Action σ α) (next : α → Action σ β) (state : σ) :
    (a >>= next).run state = (a.run state).andThen fun answer later => (next answer).run later :=
  rfl

theorem run_get (state : σ) : (get : Action σ σ) state = .done state state [] := rfl

/-- An action that is done in silence hands over to the next one. -/
theorem bind_of_done {β : Type} {a : Action σ α} {next : α → Action σ β} {state later : σ}
    {answer : α} (h : a state = .done answer later []) : (a >>= next) state = next answer later := by
  show (a state).andThen _ = _
  rw [h]
  rfl

/-- An action with another answer. -/
theorem run_bind_pure {β : Type} (a : Action σ α) (f : α → β) (state : σ) :
    (a >>= fun answer => pure (f answer)).run state = (a.run state).map f := by
  rw [run_bind]
  obtain ⟨result, later, lines⟩ := a.run state
  cases result <;> simp [Outcome.andThen, Outcome.map, Outcome.after, Outcome.done, Except.map]

theorem countTrueFrom_eq (a : Action σ Bool) (count : Nat) (printed : Array Debug.Line) (n : Nat)
    (state : σ) :
    countTrueFrom a count printed n state =
      ((countTrueFrom a 0 #[] n state).map (count + ·)).after printed.toList := by
  induction n generalizing count printed state with
  | zero => simp [countTrueFrom, Outcome.map, Outcome.after, Except.map]
  | succ n ih =>
    unfold countTrueFrom
    obtain ⟨result, later, lines⟩ := a.run state
    cases result with
    | error e => simp [Outcome.map, Outcome.after, Except.map]
    | ok yes =>
      simp only
      rw [ih, ih (if yes = true then 0 + 1 else 0)]
      obtain ⟨r, s, l⟩ := countTrueFrom a 0 #[] n later
      cases r <;> cases yes <;>
        simp [Outcome.map, Outcome.after, Except.map, Nat.add_assoc]

@[simp] theorem countTrue_zero (a : Action σ Bool) : a.countTrue 0 = pure 0 := rfl

theorem countTrue_succ (a : Action σ Bool) (n : Nat) :
    a.countTrue (n + 1) = do
      let yes ← a
      let count ← a.countTrue n
      return if yes then count + 1 else count := by
  funext state
  show countTrueFrom a 0 #[] (n + 1) state = (a.run state).andThen _
  unfold countTrueFrom
  obtain ⟨result, later, lines⟩ := a.run state
  cases result with
  | error e => simp [Outcome.andThen]
  | ok yes =>
    simp only [Outcome.andThen, run_bind_pure]
    rw [countTrueFrom_eq]
    show (((a.countTrue n).run later).map _).after _ = _
    obtain ⟨r, s, l⟩ := (a.countTrue n).run later
    cases r <;> cases yes <;> simp [Outcome.map, Outcome.after, Except.map, Nat.add_comm]

end Action

end Chip8
