/-!
# Ways to fail

`FailsWith P` is a computation that goes wrong only in ways that `P` admits. It is read off the way
a computation is put together.
-/

namespace Chip8

/-- If the computation fails, then with an error that `P` holds of. -/
def FailsWith {ε α : Type} (P : ε → Prop) (r : Except ε α) : Prop :=
  ∀ e, r = .error e → P e

namespace FailsWith

variable {ε α β : Type} {P : ε → Prop} {r : Except ε α}

theorem ok {a : α} : FailsWith P (.ok a) := nofun

theorem error {e : ε} (h : P e) : FailsWith P (.error e : Except ε α) := by
  rintro _ ⟨⟩
  exact h

theorem bind {next : α → Except ε β} (h : FailsWith P r) (hn : ∀ a, FailsWith P (next a)) :
    FailsWith P (r >>= next) := by
  cases r with
  | error e => exact error (h e rfl)
  | ok a => exact hn a

theorem map (h : FailsWith P r) (f : α → β) : FailsWith P (r.map f) := by
  cases r with
  | error e => exact error (h e rfl)
  | ok a => exact ok

theorem mapM {f : α → Except ε β} (h : ∀ a, FailsWith P (f a)) (items : List α) :
    FailsWith P (items.mapM f) := by
  induction items with
  | nil => exact ok
  | cons item items ih =>
    rw [List.mapM_cons]
    exact (h item).bind fun b => ih.bind fun bs => ok

theorem foldlM {f : β → α → Except ε β} (h : ∀ b a, FailsWith P (f b a)) (items : List α)
    (start : β) : FailsWith P (items.foldlM f start) := by
  induction items generalizing start with
  | nil => exact ok
  | cons item items ih =>
    rw [List.foldlM_cons]
    exact (h start item).bind fun b => ih b

end FailsWith

end Chip8
