import Chip8.App.Ui
import Chip8.Proofs.App.KeyQueue

/-!
# Keys with several sources

Keyboard and gamepad hold keys through one queue. The queue counts what it is told, which is not
always what the sources hold: the keyboard passes on every press of a key but only its last release,
and passes on a release also where it holds nothing. The difference is the `drift` of a key.

* `count_feedAll`: the holds of a key are its sources and its drift.
* `isDown_iff_of_feedAll`: hence a key is down at the end if and only if these are not zero, which
  is the same as being held by a source exactly where the drift neither stands in for a source nor
  cancels them all. Without a press of a key that the keyboard holds, and without a release of one
  that it does not, there is no drift.
* `not_isDown_iff_held`: pressing and releasing two names of a key leaves it down, and a release
  without a press takes it from the gamepad.
-/

namespace Chip8

open Debug (Printer)

namespace Ui

/-! ## Sources -/

/-- What a source of keys reports. -/
inductive SourceEvent where
  | press (name : String)
  | release (name : String)
  | button (pressed : Bool)
  | directions (d : Directions)
  | padReset

/-- The user interface after a report. -/
def feed (dbg : Printer) (u : Ui) : SourceEvent → Ui
  | .press name => ((onKeyboard (Keyboard.press dbg name)).run u).state
  | .release name => ((onKeyboard (Keyboard.release dbg name)).run u).state
  | .button pressed => ((onGamepad (Gamepad.setButton dbg pressed)).run u).state
  | .directions d => ((onGamepad (Gamepad.setDirections dbg d)).run u).state
  | .padReset => ((onGamepad (Gamepad.reset dbg)).run u).state

/-- The user interface after reports in turn. -/
def feedAll (dbg : Printer) (u : Ui) (events : List SourceEvent) : Ui :=
  events.foldl (feed dbg) u

/-- How often a source that may hold a key does. -/
def once (p : Prop) [Decidable p] : Nat := if p then 1 else 0

/-- How many sources hold a key. -/
def sources (u : Ui) (key : Key) : Nat :=
  once (0 < u.keyboard.count key) + once ((key.val : Int) ∈ u.gamepad.pressedKeys)

/-- What a report adds to the drift of a key: one for a press of a key that the keyboard holds
already, minus one for a release of a key that it does not hold. -/
def shift (key : Key) (u : Ui) : SourceEvent → Int
  | .press name => if Keyboard.lookup name = some key ∧ 0 < u.keyboard.count key then 1 else 0
  | .release name => if Keyboard.lookup name = some key ∧ u.keyboard.count key = 0 then -1 else 0
  | _ => 0

/-- The drift of a key after reports in turn. It cannot take away more than the sources give. -/
def drift (dbg : Printer) (key : Key) : Ui → List SourceEvent → Int → Int
  | _, [], d => d
  | u, e :: es, d =>
    drift dbg key (feed dbg u e) es (max (d + shift key u e) (-((feed dbg u e).sources key)))

/-! ## Reports of the keyboard -/

variable (dbg : Printer) (u : Ui)

theorem feed_press (name : String) : feed dbg u (.press name) =
    match Keyboard.lookup name with
    | none => u
    | some key =>
      { u with
        keyboard := u.keyboard.put key (u.keyboard.count key + 1)
        queue := u.queue.hold key key.val } := by
  simp only [feed, onKeyboard, Action.onPart, Action.run, Keyboard.press_eq]
  cases Keyboard.lookup name with
  | none => rfl
  | some key =>
    simp only [Keyboard.passOn, KeyQueue.setKey_val]
    rfl

theorem feed_release (name : String) : feed dbg u (.release name) =
    match Keyboard.lookup name with
    | none => u
    | some key =>
      if u.keyboard.count key ≤ 1 then
        { u with
          keyboard := u.keyboard.drop key
          queue := u.queue.letGo key key.val }
      else { u with keyboard := u.keyboard.put key (u.keyboard.count key - 1) } := by
  simp only [feed, onKeyboard, Action.onPart, Action.run, Keyboard.release_eq]
  cases Keyboard.lookup name with
  | none => rfl
  | some key =>
    simp only
    split
    · simp only [Keyboard.passOn, KeyQueue.setKey_val]
      rfl
    · rfl

/-! ## Reports of the gamepad -/

/-- Sources, gamepad and queue agree as far as they do after every report. -/
structure Settled (u : Ui) : Prop where
  keys : u.gamepad.keys = {}
  held : u.gamepad.held = u.gamepad.pressedKeys
  faithful : u.queue.Faithful
  nonneg : ∀ key, 0 ≤ u.queue.count key

theorem Settled.congr {u v : Ui} (h : u.Settled) (hgamepad : v.gamepad = u.gamepad)
    (hqueue : v.queue = u.queue) : v.Settled :=
  ⟨hgamepad ▸ h.keys, hgamepad ▸ h.held, hqueue ▸ h.faithful, hqueue ▸ h.nonneg⟩

theorem key_of_mem_pressedKeys {g : Gamepad} (hk : g.keys = {}) {x : Int}
    (h : x ∈ g.pressedKeys) : ∃ key : Key, x = key.val := by
  rw [Gamepad.mem_pressedKeys, Gamepad.inputs, hk] at h
  simp only [List.mem_cons, Prod.mk.injEq, List.not_mem_nil, or_false] at h
  obtain ⟨-, rfl⟩ | ⟨-, rfl⟩ | ⟨-, rfl⟩ | ⟨-, rfl⟩ | ⟨-, rfl⟩ := h
  · exact ⟨2, rfl⟩
  · exact ⟨8, rfl⟩
  · exact ⟨4, rfl⟩
  · exact ⟨6, rfl⟩
  · exact ⟨5, rfl⟩

/-- The gamepad brings the queue up to date: a key gains or loses a hold where the pressed keys
differ from those that were held. -/
theorem sync_of_held {g : Gamepad} (hk : g.keys = {}) {old : Gamepad} (ho : old.keys = {})
    (hh : g.held = old.pressedKeys) {q : KeyQueue} (hq : q.Faithful) (hn : ∀ key, 0 ≤ q.count key) :
    ∃ r, Gamepad.sync dbg (g, q) = .done () ({ g with held := g.pressedKeys }, r) [] ∧ r.Faithful ∧
      ∀ key : Key, r.count key =
        max (q.count key + once ((key.val : Int) ∈ g.pressedKeys) -
          once ((key.val : Int) ∈ old.pressedKeys)) 0 := by
  have hkeys : ∀ c ∈ g.pending, ∃ key : Key, c.1 = key.val := by
    rintro ⟨x, pressed⟩ hc
    rw [Gamepad.mem_pending, hh] at hc
    cases pressed with
    | true => exact key_of_mem_pressedKeys hk hc.1
    | false => exact key_of_mem_pressedKeys ho hc.1
  have hnodup : (g.pending.map Prod.fst).Nodup :=
    Gamepad.nodup_pending (hh ▸ old.nodup_pressedKeys)
  obtain ⟨r, hr, hf, hcount⟩ := KeyQueue.deliver_of_nodup dbg hkeys hnodup hq
  refine ⟨r, ?_, hf, fun key => ?_⟩
  · simp only [Gamepad.sync, hr]
    rfl
  obtain ⟨hmoved, hstays⟩ := hcount key
  have hsame (hiff : (key.val : Int) ∈ g.pressedKeys ↔ (key.val : Int) ∈ old.pressedKeys) :
      r.count key = q.count key := hstays fun pressed hm => by
    rw [Gamepad.mem_pending, hh] at hm
    cases pressed <;> simp [hiff] at hm
  have hpos := hn key
  by_cases hnew : (key.val : Int) ∈ g.pressedKeys <;>
    by_cases hold : (key.val : Int) ∈ old.pressedKeys
  · rw [hsame (iff_of_true hnew hold)]
    simp [once, hnew, hold, hpos]
  · rw [hmoved true (Gamepad.mem_pending.mpr (by simp [hh, hnew, hold]))]
    simp only [once, hnew, hold, KeyQueue.moved, if_true, if_false]
    omega
  · rw [hmoved false (Gamepad.mem_pending.mpr (by simp [hh, hnew, hold]))]
    simp only [once, hnew, hold, KeyQueue.moved, if_true, if_false, Bool.false_eq_true]
    omega
  · rw [hsame (iff_of_false hnew hold)]
    simp [once, hnew, hold, hpos]

/-! ## Counts -/

/-- The holds of a key follow its sources, but for the shift; they do not go below zero. -/
def Follows (u v : Ui) (key : Key) (shift : Int) : Prop :=
  v.queue.count key = max (u.queue.count key + v.sources key - u.sources key + shift) 0

variable {u}

theorem Follows.nonneg {v : Ui} {key : Key} {shift : Int} (h : Follows u v key shift) :
    0 ≤ v.queue.count key := h ▸ le_max_right _ _

theorem settled_sync (h : u.Settled) {g : Gamepad} (hk : g.keys = {})
    (hh : g.held = u.gamepad.held) {v : Ui}
    (hv : v = { u with
      gamepad := (Gamepad.sync dbg (g, u.queue)).state.1
      queue := (Gamepad.sync dbg (g, u.queue)).state.2 }) :
    v.Settled ∧ ∀ key, Follows u v key 0 := by
  obtain ⟨r, hr, hf, hcount⟩ := sync_of_held dbg hk h.keys (hh.trans h.held) h.faithful h.nonneg
  rw [hr] at hv
  subst hv
  refine ⟨⟨hk, rfl, hf, fun key => hcount key ▸ le_max_right _ _⟩, fun key => ?_⟩
  have hpressed : ({ g with held := g.pressedKeys } : Gamepad).pressedKeys = g.pressedKeys := rfl
  have hc := hcount key
  simp only [Follows, sources, Outcome.done, hpressed]
  omega

theorem follows_press (h : u.Settled) (name : String) (key : Key) :
    Follows u (feed dbg u (.press name)) key (shift key u (.press name)) := by
  have hpos := h.nonneg key
  rw [feed_press]
  cases hl : Keyboard.lookup name with
  | none =>
    simp only [Follows, shift, hl]
    simp [hpos]
  | some pressed =>
    simp only [Follows, sources, shift, hl, KeyQueue.count_hold, Keyboard.count_put,
      Option.some.injEq]
    by_cases hkey : pressed = key
    · subst hkey
      by_cases hheld : 0 < u.keyboard.count pressed
      · simp [once, hheld]
        omega
      · simp [once, hheld]
        omega
    · simp [hkey, hpos]

theorem settled_press (h : u.Settled) (name : String) :
    (feed dbg u (.press name)).Settled ∧
      ∀ key, Follows u (feed dbg u (.press name)) key (shift key u (.press name)) := by
  have hf := follows_press dbg h name
  refine ⟨?_, hf⟩
  have hn := fun key => (hf key).nonneg
  rw [feed_press] at hn ⊢
  cases hl : Keyboard.lookup name with
  | none => exact h
  | some pressed =>
    rw [hl] at hn
    exact ⟨h.keys, h.held, KeyQueue.faithful_hold h.faithful pressed, hn⟩

theorem follows_release (h : u.Settled) (name : String) (key : Key) :
    Follows u (feed dbg u (.release name)) key (shift key u (.release name)) := by
  have hpos := h.nonneg key
  rw [feed_release]
  cases hl : Keyboard.lookup name with
  | none =>
    simp only [Follows, shift, hl]
    simp [hpos]
  | some released =>
    simp only
    by_cases hlast : u.keyboard.count released ≤ 1
    · rw [if_pos hlast]
      simp only [Follows, sources, shift, hl, KeyQueue.count_letGo, Keyboard.count_drop,
        Option.some.injEq]
      by_cases hkey : released = key
      · subst hkey
        by_cases hzero : u.keyboard.count released = 0
        · simp [once, hzero]
          split <;> omega
        · simp [once, hzero, Nat.pos_of_ne_zero hzero]
          split <;> omega
      · simp [hkey, hpos]
    · rw [if_neg hlast]
      simp only [Follows, sources, shift, hl, Keyboard.count_put, Option.some.injEq]
      by_cases hkey : released = key
      · subst hkey
        have hbefore : once (0 < u.keyboard.count released) = 1 := if_pos (by omega)
        have hafter : once (0 < u.keyboard.count released - 1) = 1 := if_pos (by omega)
        rw [if_pos rfl, hbefore, hafter, if_neg (by omega)]
        omega
      · simp [hkey, hpos]

theorem settled_release (h : u.Settled) (name : String) :
    (feed dbg u (.release name)).Settled ∧
      ∀ key, Follows u (feed dbg u (.release name)) key (shift key u (.release name)) := by
  have hf := follows_release dbg h name
  refine ⟨?_, hf⟩
  have hn := fun key => (hf key).nonneg
  rw [feed_release] at hn ⊢
  cases hl : Keyboard.lookup name with
  | none => exact h
  | some released =>
    simp only [hl] at hn ⊢
    split at hn
    · rename_i hlast
      rw [if_pos hlast]
      exact ⟨h.keys, h.held, KeyQueue.faithful_letGo h.faithful released, hn⟩
    · rename_i hmore
      rw [if_neg hmore]
      exact ⟨h.keys, h.held, h.faithful, hn⟩

/-- A report moves the holds of a key as its sources, but for the shift. -/
theorem settled_feed (h : u.Settled) (e : SourceEvent) :
    (feed dbg u e).Settled ∧ ∀ key, Follows u (feed dbg u e) key (shift key u e) := by
  cases e with
  | press name => exact settled_press dbg h name
  | release name => exact settled_release dbg h name
  | button pressed => exact settled_sync dbg h (g := u.gamepad.withButton pressed) h.keys rfl rfl
  | directions d => exact settled_sync dbg h (g := u.gamepad.withDirections d) h.keys rfl rfl
  | padReset => exact settled_sync dbg h (g := u.gamepad.atRest) h.keys rfl rfl

/-- The holds of a key are its sources and its drift. -/
theorem count_feedAll (dbg : Printer) (key : Key) : ∀ (events : List SourceEvent) {u : Ui}
    {d : Int}, u.Settled → u.queue.count key = u.sources key + d →
      (feedAll dbg u events).Settled ∧
        (feedAll dbg u events).queue.count key =
          (feedAll dbg u events).sources key + drift dbg key u events d
  | [], _, _, h, hc => ⟨h, hc⟩
  | e :: es, u, d, h, hc => by
    obtain ⟨hv, hf⟩ := settled_feed dbg h e
    refine count_feedAll dbg key es hv ?_
    rw [hf key]
    omega

theorem settled_create {config : AppConfig} {host : Host} (h : create config host = .ok u) :
    u.Settled ∧ ∀ key, u.queue.count key = 0 ∧ u.sources key = 0 := by
  unfold create at h
  split at h
  · cases h
  · cases h
    have hcount (key : Key) : KeyQueue.start.count key = 0 := by
      simp [KeyQueue.start, KeyQueue.count]
    refine ⟨⟨rfl, rfl, KeyQueue.faithful_start, fun key => (hcount key).ge⟩,
      fun key => ⟨hcount key, ?_⟩⟩
    · simp [sources, once, Keyboard.released, Keyboard.count, Keyboard.entry, Gamepad.pressedKeys,
        Gamepad.inputs]

/-- No key is pressed on the keyboard that it holds, and none released that it does not hold. -/
def Paired (dbg : Printer) (key : Key) : Ui → List SourceEvent → Prop
  | _, [] => True
  | u, e :: es => shift key u e = 0 ∧ Paired dbg key (feed dbg u e) es

theorem drift_of_paired {key : Key} : ∀ {events : List SourceEvent} {u : Ui},
    Paired dbg key u events → drift dbg key u events 0 = 0
  | [], _, _ => rfl
  | e :: es, u, h => by
    have hmax : max (0 + shift key u e) (-((feed dbg u e).sources key : Int)) = 0 := by
      rw [h.1]
      omega
    rw [drift, hmax]
    exact drift_of_paired h.2

theorem sources_pos_iff {key : Key} : 0 < u.sources key ↔
    0 < u.keyboard.count key ∨ (key.val : Int) ∈ u.gamepad.pressedKeys := by
  unfold sources once
  split <;> split <;> simp_all

/-- A key is down at the end if and only if its sources and its drift come to more than nothing.
This is to be held by a source, unless a drift is left without a source or cancels all sources;
without unpaired reports of the keyboard there is no drift. -/
theorem isDown_iff_of_feedAll {config : AppConfig} {host : Host} (hu : create config host = .ok u)
    (dbg : Printer) (events : List SourceEvent) (key : Key) :
    let v := feedAll dbg u events
    let d := drift dbg key u events 0
    let HeldBySource := 0 < v.keyboard.count key ∨ (key.val : Int) ∈ v.gamepad.pressedKeys
    (v.queue.replayed.isDown key = true ↔ 0 < v.sources key + d) ∧
      ((v.queue.replayed.isDown key = true ↔ HeldBySource) ↔
        (v.sources key = 0 → d = 0) ∧ (0 < v.sources key → v.sources key + d ≠ 0)) ∧
      (Paired dbg key u events → (v.queue.replayed.isDown key = true ↔ HeldBySource)) := by
  intro v d HeldBySource
  obtain ⟨hs, hzero⟩ := settled_create hu
  obtain ⟨hc, hn⟩ := hzero key
  obtain ⟨hv, hcount⟩ := count_feedAll dbg key events (d := 0) hs (by omega)
  have hd : Paired dbg key u events → d = 0 := drift_of_paired dbg
  replace hcount : v.queue.count key = v.sources key + d := hcount
  replace hv : v.Settled := hv
  clear_value v d
  have hnonneg := hv.nonneg key
  have hdown : v.queue.replayed.isDown key = true ↔ 0 < v.sources key + d := by
    rw [hv.faithful key]
    omega
  have hheld : HeldBySource ↔ 0 < v.sources key := sources_pos_iff.symm
  refine ⟨hdown, ?_, fun hp => ?_⟩
  · rw [hdown, hheld]
    omega
  · rw [hdown, hheld, hd hp]
    omega

theorem isDown_iff_of_feedAll_button :
    ∃ u, create {} .absent = .ok u ∧
      let v := feedAll .off u [.press "w", .button true, .release "W"]
      let d := drift .off 5 u [.press "w", .button true, .release "W"] 0
      (v.queue.replayed.isDown 5 = true ↔ 0 < v.sources 5 + d) ∧ v.sources 5 = 1 ∧ d = 0 := by
  have hu : create {} .absent = .ok _ := rfl
  exact ⟨_, hu, (isDown_iff_of_feedAll hu .off _ 5).1, by decide +kernel, by decide +kernel⟩

/-- Two names of a key that are pressed and released leave it down, and a release without a press
takes a key up that the gamepad holds. -/
theorem not_isDown_iff_held :
    ∃ u, create {} .absent = .ok u ∧
      let v := feedAll .off u [.press "1", .press "[1]", .release "1", .release "[1]"]
      let w := feedAll .off u [.button true, .release "w"]
      (v.queue.replayed.isDown 1 = true ∧
        ¬ (0 < v.keyboard.count 1 ∨ ((1 : Key).val : Int) ∈ v.gamepad.pressedKeys)) ∧
      w.queue.replayed.isDown 5 = false ∧ ((5 : Key).val : Int) ∈ w.gamepad.pressedKeys :=
  ⟨_, rfl, by decide +kernel, by decide +kernel⟩

end Ui

end Chip8
