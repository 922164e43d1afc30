import Chip8.Proofs.Debug.Input
import Chip8.Proofs.Input.Keypad

/-!
# A keyboard over a keypad

The keyboard counts how often a key is held, and the keypad knows whether it is down. As long as
nobody else changes the keypad, both agree, and the keyboard has no entry of a key that is not held
(`Agrees`), which every request of the keyboard keeps (`behind_respond`).

* `isDown_iff_count_pos`: hence a key is down if and only if it is held, and it is held as often as
  its names were pressed and not released since the last reset, a release of a key that is not held
  not being counted.
-/

namespace Chip8

open Debug (Printer)

namespace Keyboard

/-! ## Counts -/

variable {k : Keyboard} {key other : Key} {n : Nat}

theorem count_released (key : Key) : released.count key = 0 := by
  simp [released, count, entry]

theorem mem_active : (key, n) ∈ k.active ↔ k.entry key = some n := by
  simp [active]

theorem mem_keys_active : key ∈ k.active.map Prod.fst ↔ k.entry key ≠ none := by
  simp [mem_active, Option.ne_none_iff_exists']

/-! ## Requests -/

/-- Whether a request goes to the keyboard and not past it. -/
def Request.isTyping : Request → Bool
  | .press _ | .release _ | .reset => true
  | .key _ _ | .keysUp => false

/-- What a request makes of the number of holds of a key. -/
def Request.balance (key : Key) : Request → Nat → Nat
  | .press name, n => if lookup name = some key then n + 1 else n
  | .release name, n => if lookup name = some key then n - 1 else n
  | .reset, _ => 0
  | .key _ _, n | .keysUp, n => n

/-- The number of holds of a key behind requests in turn, if it was not held before. -/
def balance (key : Key) (requests : List Request) : Nat :=
  requests.foldl (fun n r => r.balance key n) 0

/-- The keys that are down are those that are held, and no entry is of a key that is not held. -/
structure Agrees (s : Keyboard × Keypad) : Prop where
  down : ∀ key, s.2.isDown key = true ↔ 0 < s.1.count key
  entries : ∀ key, s.1.entry key ≠ some 0

theorem agrees_released : Agrees (released, .released) where
  down key := by simp [count_released, Keypad.released, Keypad.isDown]
  entries key := by simp [released, entry]

/-- The entries are the keys that are held, with how often they are. -/
theorem Agrees.entry_eq_some_iff {s : Keyboard × Keypad} (h : Agrees s) :
    s.1.entry key = some n ↔ n = s.1.count key ∧ 1 ≤ n := by
  have hzero := h.entries key
  unfold count
  cases hentry : s.1.entry key with
  | none => simp
  | some m =>
    have hm : m ≠ 0 := fun hm => hzero (hm ▸ hentry)
    simp
    omega

variable (dbg : Printer)

/-- A keypad takes every change of a key. -/
theorem setKey_val (pad : Keypad) (key : Key) (pressed : Bool) :
    let o := KeySink.setKey dbg key.val pressed pad
    o.result = .ok () ∧
      ∀ other, o.state.isDown other = if key = other then pressed else pad.isDown other := by
  obtain ⟨changed, hok⟩ := Keypad.setKey_of_bounds dbg pad (Keypad.bounds_val key)
  refine ⟨congrArg (Except.map fun _ => ()) hok, fun other => ?_⟩
  refine (Keypad.isDown_setKey dbg pad key.val pressed other).trans ?_
  simp only [Int.ofNat_inj, Fin.val_inj]

/-- Keys that are released at a keypad are up there, and no other key moves. -/
theorem releaseAll_keypad (keys : List Key) (pad : Keypad) :
    let o := releaseAll dbg keys pad
    o.result = .ok () ∧
      ∀ other, o.state.isDown other = if other ∈ keys then false else pad.isDown other := by
  induction keys generalizing pad with
  | nil => exact ⟨rfl, fun other => (if_neg List.not_mem_nil).symm⟩
  | cons key keys ih =>
    obtain ⟨hok, hkey⟩ := setKey_val dbg pad key false
    obtain ⟨hresult, hkeys⟩ := ih (KeySink.setKey dbg key.val false pad).state
    simp only [releaseAll, Outcome.andThen_of_ok hok]
    refine ⟨hresult, fun other => (hkeys other).trans ?_⟩
    rw [hkey]
    by_cases htail : other ∈ keys
    · rw [if_pos htail, if_pos (List.mem_cons_of_mem key htail)]
    · simp only [List.mem_cons, htail, or_false, if_false, eq_comm (a := other)]

/-- A success that leaves a key with `n` holds and the others with theirs, and keypad and keyboard
in agreement. -/
structure Puts (k : Keyboard) (key : Key) (n : Nat) {α : Type} (answer : α)
    (o : Outcome (Keyboard × Keypad) α) : Prop where
  result : o.result = .ok answer
  counts : ∀ other, o.state.1.count other = if key = other then n else k.count other
  agrees : Agrees o.state

theorem entry_put_ne_zero (h : ∀ key, k.entry key ≠ some 0) (hn : n ≠ 0) (other : Key) :
    (k.put key n).entry other ≠ some 0 := by
  rw [entry_put]
  split
  · simpa using hn
  · exact h other

theorem entry_drop_ne_zero (h : ∀ key, k.entry key ≠ some 0) (other : Key) :
    (k.drop key).entry other ≠ some 0 := by
  rw [entry_drop]
  split
  · simp
  · exact h other

theorem puts_passOn {pad : Keypad} (h : Agrees (k, pad)) {later : Keyboard}
    (hcounts : ∀ other, later.count other = if key = other then n else k.count other)
    (hentries : ∀ other, later.entry other ≠ some 0) {pressed : Bool}
    (hn : pressed = true ↔ 0 < n) :
    Puts k key n true (passOn dbg key pressed later pad) := by
  obtain ⟨hok, hkeys⟩ := setKey_val dbg pad key pressed
  refine ⟨congrArg (Except.map fun _ => true) hok, hcounts, fun other => ?_, hentries⟩
  show (KeySink.setKey dbg key.val pressed pad).state.isDown other = true ↔ 0 < later.count other
  rw [hkeys, hcounts]
  split
  · exact hn
  · exact h.down other

theorem puts_press {pad : Keypad} (h : Agrees (k, pad)) {name : String}
    (hname : lookup name = some key) :
    Puts k key (k.count key + 1) true (press dbg name (k, pad)) := by
  simp only [press_eq, hname]
  exact puts_passOn dbg h (count_put k key · _)
    (entry_put_ne_zero h.entries (Nat.succ_ne_zero _)) (by simp)

theorem puts_release {pad : Keypad} (h : Agrees (k, pad)) {name : String}
    (hname : lookup name = some key) :
    Puts k key (k.count key - 1) true (release dbg name (k, pad)) := by
  simp only [release_eq, hname]
  split
  · rename_i hlast
    rw [Nat.sub_eq_zero_of_le hlast]
    exact puts_passOn dbg h (count_drop k key) (entry_drop_ne_zero h.entries) (by simp)
  · rename_i hmore
    refine ⟨rfl, (count_put k key · _), fun other => (h.down other).trans ?_,
      entry_put_ne_zero h.entries (by omega)⟩
    simp only [Outcome.done, count_put]
    split
    · rename_i heq
      subst heq
      omega
    · exact Iff.rfl

/-- A press or a release of a name: what it answers, and what it does to the counts. -/
structure Names (name : String) (r : Request) (s : Keyboard × Keypad)
    (o : Outcome (Keyboard × Keypad) Answer) : Prop where
  result : o.result = .ok (.flag (lookup name).isSome)
  unmapped : lookup name = none → o.state = s
  counts : ∀ key, o.state.1.count key = r.balance key (s.1.count key)
  agrees : Agrees o.state

theorem names_respond {s : Keyboard × Keypad} (h : Agrees s) {name : String} {r : Request}
    (hr : r = .press name ∨ r = .release name) : Names name r s (respond dbg r s) := by
  obtain ⟨k, pad⟩ := s
  cases hname : lookup name with
  | none =>
    have hbalance (key : Key) : r.balance key (k.count key) = k.count key := by
      rcases hr with rfl | rfl <;> simp [Request.balance, hname]
    have hstate : (respond dbg r (k, pad)).state = (k, pad) := by
      rcases hr with rfl | rfl <;> simp only [respond, press_eq, release_eq, hname] <;> rfl
    have hresult : (respond dbg r (k, pad)).result = .ok (.flag (lookup name).isSome) := by
      rcases hr with rfl | rfl <;> simp only [respond, press_eq, release_eq, hname] <;> rfl
    exact ⟨hresult, fun _ => hstate, fun key => by rw [hstate, hbalance],
      by rw [hstate]; exact h⟩
  | some key =>
    obtain ⟨o, ho, hresult, hcounts, hagrees⟩ : ∃ o : Outcome (Keyboard × Keypad) Bool,
        respond dbg r (k, pad) = o.map .flag ∧
          Puts k key (r.balance key (k.count key)) true o := by
      rcases hr with rfl | rfl <;> simp only [Request.balance, hname, if_true]
      · exact ⟨_, rfl, puts_press dbg h hname⟩
      · exact ⟨_, rfl, puts_release dbg h hname⟩
    have hflag : (o.map Answer.flag).result = .ok (.flag (lookup name).isSome) := by
      rw [hname]
      exact congrArg (Except.map Answer.flag) hresult
    rw [ho]
    refine ⟨hflag, fun hnone => ?_, fun other => ?_, hagrees⟩
    · cases hname.symm.trans hnone
    · show o.state.1.count other = _
      rw [hcounts]
      split
      · rename_i heq
        rw [heq]
      · rename_i hne
        rcases hr with rfl | rfl <;> simp [Request.balance, hname, hne]

/-- A reset releases the keys that have an entry, and none has one any more. -/
theorem reset_released {k : Keyboard} {pad : Keypad} (h : Agrees (k, pad)) :
    let o := reset dbg (k, pad)
    o.result = .ok () ∧ o.state.1 = released ∧ Agrees o.state := by
  obtain ⟨hok, hkeys⟩ := releaseAll_keypad dbg (k.active.map Prod.fst) pad
  simp only [reset, hok]
  refine ⟨hok, rfl, fun key => ?_, agrees_released.entries⟩
  show (releaseAll dbg (k.active.map Prod.fst) pad).state.isDown key = true ↔ 0 < released.count key
  rw [hkeys, count_released]
  split
  · simp
  · rename_i hup
    rw [mem_keys_active, not_not] at hup
    rw [h.down key, count, hup]
    simp

/-- What a request of the keyboard leaves behind. -/
structure Behind (r : Request) (s : Keyboard × Keypad)
    (o : Outcome (Keyboard × Keypad) Answer) : Prop where
  ok : ∃ answer, o.result = .ok answer
  counts : ∀ key, o.state.1.count key = r.balance key (s.1.count key)
  agrees : Agrees o.state

theorem behind_respond {s : Keyboard × Keypad} (h : Agrees s) {r : Request} (hr : r.isTyping) :
    Behind r s (respond dbg r s) := by
  cases r with
  | press name =>
    have hn := names_respond dbg h (.inl rfl : _ ∨ Request.press name = .release name)
    exact ⟨⟨_, hn.result⟩, hn.counts, hn.agrees⟩
  | release name =>
    have hn := names_respond dbg h (.inr rfl : Request.release name = .press name ∨ _)
    exact ⟨⟨_, hn.result⟩, hn.counts, hn.agrees⟩
  | reset =>
    obtain ⟨hok, hcounts, hagrees⟩ := reset_released dbg h
    refine ⟨⟨.nothing, congrArg (Except.map fun _ => Answer.nothing) hok⟩, fun key => ?_, hagrees⟩
    exact (congrArg (count · key) hcounts).trans (count_released key)
  | key _ _ => exact absurd hr Bool.false_ne_true
  | keysUp => exact absurd hr Bool.false_ne_true

/-- Requests in turn keep keypad and counts in agreement. -/
theorem behind_runAll {s : Keyboard × Keypad} (h : Agrees s) {requests : List Request}
    (hrequests : ∀ r ∈ requests, r.isTyping) :
    let t := Action.runAll (respond dbg) requests s
    Agrees t ∧ ∀ key, t.1.count key =
      requests.foldl (fun n r => r.balance key n) (s.1.count key) := by
  induction requests generalizing s with
  | nil => exact ⟨h, fun _ => rfl⟩
  | cons r requests ih =>
    obtain ⟨hr, hrest⟩ := List.forall_mem_cons.mp hrequests
    have hnext := behind_respond dbg h hr
    obtain ⟨hagrees, hcounts⟩ := ih hnext.agrees hrest
    refine ⟨hagrees, fun key => (hcounts key).trans ?_⟩
    rw [hnext.counts]
    rfl

/-- However keys are pressed and released by name and reset, at a keypad that nobody else changes:
a key is down if and only if it is held. The entries are the keys that are held with how often they
are, which is at least once; it is how often their names were pressed and not released since the
last reset. Nothing fails, and names that stand for no key change nothing and are answered with a
no. -/
theorem isDown_iff_count_pos {requests : List Request} (hrequests : ∀ r ∈ requests, r.isTyping) :
    let s := Action.runAll (respond dbg) requests (released, .released)
    (∀ key, s.2.isDown key = true ↔ 0 < s.1.count key) ∧
      (∀ key n, s.1.entry key = some n ↔ n = s.1.count key ∧ 1 ≤ n) ∧
      (∀ key, s.1.count key = balance key requests) ∧
      (∀ r : Request, r.isTyping → ∃ answer, (respond dbg r s).result = .ok answer) ∧
      ∀ name, ∀ r, r = .press name ∨ r = .release name →
        (respond dbg r s).result = .ok (.flag (lookup name).isSome) ∧
          (lookup name = none → (respond dbg r s).state = s) := by
  intro s
  obtain ⟨hagrees, hcounts⟩ := behind_runAll dbg agrees_released hrequests
  refine ⟨hagrees.down, fun _ _ => hagrees.entry_eq_some_iff, fun key => ?_, fun r hr => ?_,
    fun name r hr => ?_⟩
  · refine (hcounts key).trans ?_
    rw [count_released]
    rfl
  · exact (behind_respond dbg hagrees hr).ok
  · have hn := names_respond dbg hagrees hr
    exact ⟨hn.result, hn.unmapped⟩

/-- A key with two names, capital letters, a name that stands for no key, a release without a press
and a reset. -/
theorem isDown_iff_count_pos_names :
    let requests : List Request := [.press "q", .press "x", .reset, .press "[4]", .release "w",
      .press "4", .press "Q", .press "space", .release "q", .release "4"]
    let s := Action.runAll (respond .off) requests (released, .released)
    (∀ r ∈ requests, r.isTyping) ∧ s.1.active = [(0xC, 1)] ∧ s.2.isDown 0xC = true ∧
      s.1.count 0xC = balance 0xC requests ∧ balance 0xC requests = 1 ∧
      (respond .off (.release "return") s).result = .ok (.flag (lookup "return").isSome) ∧
      lookup "return" = none := by
  intro requests
  have hrequests : ∀ r ∈ requests, r.isTyping := by decide
  obtain ⟨hdown, hentries, hcount, -, hnames⟩ := isDown_iff_count_pos .off hrequests
  dsimp only at hdown hentries hcount hnames ⊢
  have hheld : (Action.runAll (respond .off) requests (released, .released)).1.active =
      [(0xC, 1)] := by decide
  have hentry := mem_active.mp (hheld ▸ List.mem_singleton_self (0xC, 1))
  obtain ⟨hn, hpos⟩ := (hentries 0xC 1).mp hentry
  exact ⟨hrequests, hheld, (hdown 0xC).mpr (hn ▸ hpos), hcount 0xC, by decide,
    (hnames "return" _ (.inr rfl)).1, by decide⟩

end Keyboard

end Chip8
