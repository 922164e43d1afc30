import Chip8.Proofs.Input.Mirroring

/-!
# A gamepad that changes sinks

What the sinks of a station hold down that the controller is not plugged into. The controller tells
the sink that it leaves nothing, so that a key which is pressed at that moment stays down there: it
is *left down*, until it is pressed on that sink again. A sink shows a key if and only if the
controller is plugged into it and presses the key, or the key was left down there (`Accounts`), and
every event keeps this up (`behind_apply`).

* `isDown_iff_leftDown_of_applyAll`: hence what a sink has down that the controller is not plugged
  into, and that it never has anything down if and only if no key is pressed whenever the controller
  goes from one sink to another.
* `isDown_of_handover`: a key that is pressed at that moment.
-/

namespace Chip8

open Debug (Printer)

namespace GamepadStation

/-! ## Courses of events -/

/-- Where the controller is plugged in behind an event. -/
def Event.plug : Event → Option Nat → Option Nat
  | .attach i, _ => some i
  | _, plugged => plugged

/-- Where the controller is plugged in behind events in turn. -/
def plugAll (events : List Event) (plugged : Option Nat) : Option Nat :=
  events.foldl (fun p e => e.plug p) plugged

/-- What an event does to a key's being left down on a sink: the key is left there if it is pressed
and the controller goes on to another sink. A key that is pressed on a sink anew is left no more. -/
def Event.leaves (e : Event) (i : Nat) (key : Int) (plugged : Option Nat) (pad : Gamepad)
    (left : Bool) : Bool :=
  if plugged = some i ∧ key ∈ pad.pressedKeys then decide (e.plug plugged ≠ some i) else left

/-- Whether a key has been left down on a sink by events in turn. -/
def leftDown (i : Nat) (key : Int) : List Event → Option Nat → Gamepad → Bool → Bool
  | [], _, _, left => left
  | e :: events, plugged, pad, left =>
    leftDown i key events (e.plug plugged) (e.turn pad) (e.leaves i key plugged pad left)

/-- Whenever the controller goes from one sink to another, no key is pressed. -/
def LeavesAtRest : List Event → Option Nat → Gamepad → Prop
  | [], _, _ => True
  | e :: events, plugged, pad =>
    (∀ i, plugged = some i → e.plug plugged ≠ some i → pad.pressedKeys = []) ∧
      LeavesAtRest events (e.plug plugged) (e.turn pad)

theorem leftDown_held (i : Nat) (key : Int) (events : List Event) (plugged : Option Nat)
    (pad : Gamepad) (held : List Int) (left : Bool) :
    leftDown i key events plugged { pad with held } left =
      leftDown i key events plugged pad left := by
  induction events generalizing plugged pad left with
  | nil => rfl
  | cons e events ih =>
    have hturn : e.turn { pad with held } = { e.turn pad with held } := by cases e <;> rfl
    rw [leftDown, hturn, ih]
    rfl

/-- A controller that leaves at rest leaves nothing down. -/
theorem leftDown_of_leavesAtRest {i : Nat} {key : Int} {events : List Event}
    {plugged : Option Nat} {pad : Gamepad} (h : LeavesAtRest events plugged pad) :
    leftDown i key events plugged pad false = false := by
  induction events generalizing plugged pad with
  | nil => rfl
  | cons e events ih =>
    obtain ⟨hrest, hlater⟩ := h
    have hleaves : e.leaves i key plugged pad false = false := by
      unfold Event.leaves
      split
      · rename_i hpressed
        obtain ⟨hplugged, hkey⟩ := hpressed
        refine decide_eq_false fun hgoes => ?_
        rw [hrest i hplugged hgoes] at hkey
        exact List.not_mem_nil hkey
      · rfl
    rw [leftDown, hleaves]
    exact ih hlater

theorem LeavesAtRest.of_prefix {events before : List Event} (hb : before <+: events)
    {plugged : Option Nat} {pad : Gamepad} (h : LeavesAtRest events plugged pad) :
    LeavesAtRest before plugged pad := by
  induction before generalizing events plugged pad with
  | nil => trivial
  | cons e before ih =>
    obtain ⟨later, rfl⟩ := hb
    exact ⟨h.1, ih (List.prefix_append before later) h.2⟩

/-- If nothing is ever left down on a sink that the controller has gone from, then it leaves at
rest. -/
theorem leavesAtRest_of_leftDown {n : Nat} {events : List Event} {plugged : Option Nat}
    {pad : Gamepad} (hkeys : pad.keys.OnKeypad) (hplugged : ∀ i, plugged = some i → i < n)
    (hin : ∀ i, .attach i ∈ events → i < n)
    (h : ∀ before, before <+: events → ∀ i < n, plugAll before plugged ≠ some i → ∀ key : Key,
      leftDown i key.val before plugged pad false = false) :
    LeavesAtRest events plugged pad := by
  induction events generalizing plugged pad with
  | nil => trivial
  | cons e events ih =>
    have hrest : ∀ i, plugged = some i → e.plug plugged ≠ some i → pad.pressedKeys = [] := by
      intro i hi hgoes
      refine List.eq_nil_iff_forall_not_mem.mpr fun key hkey => ?_
      obtain ⟨h₀, h₁⟩ := Gamepad.onKeypad_of_mem_pressedKeys hkeys hkey
      have hval : ((⟨key.toNat, by omega⟩ : Key).val : Int) = key := by simp [h₀]
      have hleft := h [e] ⟨events, rfl⟩ i (hplugged i hi) hgoes ⟨key.toNat, by omega⟩
      rw [hval, leftDown, leftDown, Event.leaves, if_pos ⟨hi, hkey⟩] at hleft
      exact of_decide_eq_false hleft hgoes
    refine ⟨hrest, ih ?_ ?_ ?_ ?_⟩
    · cases e <;> exact hkeys
    · intro i hi
      cases e with
      | attach j =>
        cases hi
        exact hin i List.mem_cons_self
      | _ => exact hplugged i hi
    · exact fun i hi => hin i (List.mem_cons_of_mem e hi)
    · intro before hb i hi hne key
      have hleft := h (e :: before) ((List.cons_prefix_cons).mpr ⟨rfl, hb⟩) i hi hne key
      have hone : LeavesAtRest [e] plugged pad := ⟨hrest, trivial⟩
      have hleaves : e.leaves i key.val plugged pad false = false := leftDown_of_leavesAtRest hone
      rw [leftDown, hleaves] at hleft
      exact hleft

/-! ## What the sinks show -/

variable {S : Type} {log : S → List (Int × Bool)} {i : Nat} {s : GamepadStation S}

/-- Whether a key is down on a keypad that is told what the sink was told, all keys being up at
first. -/
def shows (log : S → List (Int × Bool)) (sink : S) (key : Key) : Bool :=
  (Keypad.released.told (log sink)).isDown key

/-- Sinks show what is pressed on them and what was left down there. -/
structure Accounts (log : S → List (Int × Bool)) (left : Nat → Int → Bool)
    (s : GamepadStation S) : Prop where
  onKeypad : s.pad.keys.OnKeypad
  present : ∀ i, s.plugged = some i → i < s.sinks.length
  settled : ∀ i, s.plugged = some i → s.pad.held = s.pad.pressedKeys
  shows : ∀ i sink, s.sinks[i]? = some sink → ∀ key : Key, shows log sink key = true ↔
    s.plugged = some i ∧ (key.val : Int) ∈ s.pad.pressedKeys ∨ left i key.val = true

theorem shows_of_calls {sink later : S} {calls : List (Int × Bool)}
    (h : log later = log sink ++ calls) (key : Key) :
    shows log later key = (callsOf key.val calls).getLast?.getD (shows log sink key) := by
  rw [shows, h, Keypad.told_append]
  exact Keypad.isDown_told calls _ key

variable [KeySink S] (dbg : Printer)

theorem sync_of_not_plugged (h : s.plugged = none) : sync dbg s = .done () s [] := by
  simp only [sync, h]

theorem sinks_sync (h : Ready i s) : ∃ later, (sync dbg s).state.sinks = s.sinks.set i later := by
  simp only [sync, h.plugged, List.getElem?_eq_getElem h.present]
  exact ⟨_, rfl⟩

/-- Bringing a sink up to date puts every key on it that is pressed and not held, or held and not
pressed, to where it is, and changes nothing else on any sink. -/
theorem shows_sync (hlog : KeySink.Logs log) (h : Ready i s) {j : Nat} {later : S}
    (hlater : (sync dbg s).state.sinks[j]? = some later) :
    ∃ sink, s.sinks[j]? = some sink ∧ ∀ key : Key, shows log later key =
      if j = i ∧ ¬ ((key.val : Int) ∈ s.pad.pressedKeys ↔ (key.val : Int) ∈ s.pad.held) then
        decide ((key.val : Int) ∈ s.pad.pressedKeys)
      else shows log sink key := by
  obtain ⟨-, -, hpad, calls, ⟨-, sink, new, hsink, hnew, hcalls⟩, hkeys⟩ := tells_sync dbg hlog h
  by_cases hj : j = i
  · subst hj
    obtain rfl : new = later := Option.some.inj (hnew.symm.trans hlater)
    refine ⟨sink, hsink, fun key => ?_⟩
    have hpressed : (sync dbg s).state.pad.pressedKeys = s.pad.pressedKeys := by rw [hpad]; rfl
    rw [shows_of_calls hcalls, hkeys, hpressed]
    by_cases hnow : (key.val : Int) ∈ s.pad.pressedKeys <;>
      by_cases hold : (key.val : Int) ∈ s.pad.held <;> simp [hnow, hold]
  · obtain ⟨set, hset⟩ := sinks_sync dbg h
    rw [hset, List.getElem?_set_ne (Ne.symm hj)] at hlater
    refine ⟨later, hlater, fun key => ?_⟩
    rw [if_neg fun hji => hj hji.1]

variable {left left' : Nat → Int → Bool}

/-- The accounts behind bringing a sink up to date, if what is left agrees with what changes. -/
theorem accounts_sync (hlog : KeySink.Logs log) (h : Accounts log left s)
    {t : GamepadStation S} (ht : Ready i t) (hsinks : t.sinks = s.sinks)
    (hleft : ∀ j key, i = j ∧ key ∈ t.pad.pressedKeys ∨ left' j key = true ↔
      if j = i ∧ ¬ (key ∈ t.pad.pressedKeys ↔ key ∈ t.pad.held) then key ∈ t.pad.pressedKeys
      else s.plugged = some j ∧ key ∈ s.pad.pressedKeys ∨ left j key = true) :
    Accounts log left' (sync dbg t).state := by
  obtain ⟨-, hready, hpad, -⟩ := tells_sync dbg hlog ht
  have hpressed : (sync dbg t).state.pad.pressedKeys = t.pad.pressedKeys := by rw [hpad]; rfl
  refine ⟨hready.onKeypad, fun j hj => ?_, fun j _ => ?_, fun j later hlater key => ?_⟩
  · obtain rfl := Option.some.inj (hready.plugged.symm.trans hj)
    exact hready.present
  · rw [hpad]
    rfl
  · obtain ⟨sink, hsink, hshows⟩ := shows_sync dbg hlog ht hlater
    rw [hsinks] at hsink
    rw [hready.plugged, hpressed, Option.some.injEq, hleft, hshows]
    split
    · exact decide_eq_true_iff
    · exact h.shows j sink hsink key

/-- What an event leaves behind. -/
structure Behind (log : S → List (Int × Bool)) (left : Nat → Int → Bool) (e : Event)
    (s : GamepadStation S) (o : Outcome (GamepadStation S) Unit) : Prop where
  ok : o.result = .ok ()
  plugged : o.state.plugged = e.plug s.plugged
  pad : ∃ held, o.state.pad = { e.turn s.pad with held }
  sinks : o.state.sinks.length = s.sinks.length
  accounts : Accounts log (fun i key => e.leaves i key s.plugged s.pad (left i key)) o.state

theorem behind_sync (hlog : KeySink.Logs log) (h : Accounts log left s) {e : Event}
    (held : List Int)
    (ht : Ready i { s with plugged := e.plug s.plugged, pad := { e.turn s.pad with held } })
    (hleft : ∀ j key, i = j ∧ key ∈ (e.turn s.pad).pressedKeys ∨
        e.leaves j key s.plugged s.pad (left j key) = true ↔
      if j = i ∧ ¬ (key ∈ (e.turn s.pad).pressedKeys ↔ key ∈ held) then
        key ∈ (e.turn s.pad).pressedKeys
      else s.plugged = some j ∧ key ∈ s.pad.pressedKeys ∨ left j key = true) :
    Behind log left e s
      (sync dbg { s with plugged := e.plug s.plugged, pad := { e.turn s.pad with held } }) := by
  obtain ⟨hok, hready, hpad, -⟩ := tells_sync dbg hlog ht
  obtain ⟨set, hset⟩ := sinks_sync dbg ht
  exact ⟨hok, hready.plugged.trans ht.plugged.symm, ⟨_, hpad⟩, by rw [hset, List.length_set],
    accounts_sync dbg hlog h ht rfl hleft⟩

theorem plug_of_isInput {e : Event} (he : e.isInput) (plugged : Option Nat) :
    e.plug plugged = plugged := by
  cases e with
  | attach _ => exact absurd he Bool.false_ne_true
  | _ => rfl

/-- An input lets go what it lets go, on the sink into which the controller is plugged. -/
theorem behind_input (hlog : KeySink.Logs log) (h : Accounts log left s) {e : Event}
    (he : e.isInput) : Behind log left e s (apply dbg e s) := by
  have hplug := plug_of_isInput he s.plugged
  have hkeys : (e.turn s.pad).keys = s.pad.keys := by cases e <;> rfl
  cases hp : s.plugged with
  | none =>
    rw [apply_of_isInput dbg he, sync_of_not_plugged dbg (s := { s with pad := e.turn s.pad }) hp]
    refine ⟨rfl, hplug.symm, ⟨_, rfl⟩, rfl, ?_⟩
    refine ⟨hkeys ▸ h.onKeypad, h.present, fun i hi => ?_, fun i sink hsink key => ?_⟩
    · cases hp.symm.trans hi
    · have hshows := h.shows i sink hsink key
      simpa [Outcome.done, Event.leaves, hp] using hshows
  | some i =>
    have hstation : apply dbg e s = sync dbg
        { s with
          plugged := e.plug s.plugged
          pad := { e.turn s.pad with held := s.pad.held } } := by
      rw [apply_of_isInput dbg he, hplug]
      cases e <;> rfl
    have hheld := h.settled i hp
    rw [hstation]
    refine behind_sync dbg hlog h (i := i) s.pad.held ⟨hplug.trans hp, h.present i hp,
      hkeys ▸ h.onKeypad, hheld ▸ Gamepad.nodup_pressedKeys s.pad, fun key hkey => ?_⟩
      fun j key => ?_
    · rw [hheld] at hkey
      exact Gamepad.onKeypad_of_mem_pressedKeys h.onKeypad hkey
    · rw [hheld, Event.leaves, hplug, hp]
      by_cases hj : j = i
      · subst hj
        by_cases hnow : key ∈ (e.turn s.pad).pressedKeys <;>
          by_cases hold : key ∈ s.pad.pressedKeys <;> simp [hnow, hold]
      · simp [hj, Ne.symm hj]

/-- An event keeps the accounts up. -/
theorem behind_apply (hlog : KeySink.Logs log) (h : Accounts log left s) {e : Event}
    (hin : ∀ i, e = .attach i → i < s.sinks.length) : Behind log left e s (apply dbg e s) := by
  by_cases he : e.isInput = true
  · exact behind_input dbg hlog h he
  · obtain ⟨i, rfl⟩ : ∃ i, e = .attach i := by
      cases e with
      | attach i => exact ⟨i, rfl⟩
      | _ => exact absurd rfl he
    refine behind_sync dbg hlog h (i := i) [] ⟨rfl, hin i rfl, h.onKeypad, List.nodup_nil,
      fun _ hkey => absurd hkey List.not_mem_nil⟩ fun j key => ?_
    have hp : (Event.turn (.attach i) s.pad) = s.pad := rfl
    have hplug : (Event.plug (.attach i) s.plugged) = some i := rfl
    rw [hp, Event.leaves, hplug]
    by_cases hnow : s.plugged = some j ∧ key ∈ s.pad.pressedKeys
    · rw [if_pos hnow]
      by_cases hj : j = i
      · subst hj
        simp [hnow]
      · simp [hj, hnow, Ne.symm hj]
    · rw [if_neg hnow]
      by_cases hj : j = i
      · subst hj
        by_cases hkey : key ∈ s.pad.pressedKeys <;> simp [hkey]
      · simp [hj, hnow, Ne.symm hj]

/-! ## Events in turn -/

/-- Events in turn keep the accounts up. -/
theorem accounts_applyAll (hlog : KeySink.Logs log) (h : Accounts log left s)
    (events : List Event) (hin : ∀ i, .attach i ∈ events → i < s.sinks.length) :
    let o := applyAll dbg events s
    o.result = .ok () ∧ o.state.plugged = plugAll events s.plugged ∧
      o.state.sinks.length = s.sinks.length ∧
      Accounts log (fun i key => leftDown i key events s.plugged s.pad (left i key)) o.state := by
  induction events generalizing s left with
  | nil => exact ⟨rfl, rfl, rfl, h⟩
  | cons e events ih =>
    have he := behind_apply dbg hlog h fun i hi => hin i (hi ▸ List.mem_cons_self)
    obtain ⟨held, hpad⟩ := he.pad
    obtain ⟨hok, hplugged, hlength, haccounts⟩ := ih he.accounts fun i hi => by
      rw [he.sinks]
      exact hin i (List.mem_cons_of_mem e hi)
    intro o
    have ho : o = (applyAll dbg events (apply dbg e s).state).after (apply dbg e s).lines :=
      Outcome.andThen_of_ok he.ok
    rw [ho]
    refine ⟨hok, hplugged.trans (congrArg (plugAll events) he.plugged),
      hlength.trans he.sinks, ?_⟩
    rw [he.plugged, hpad] at haccounts
    simp only [leftDown_held] at haccounts
    exact haccounts

/-- A controller without inputs, plugged into one of the sinks or into none, before any of them has
been told anything. -/
structure Fresh (log : S → List (Int × Bool)) (s : GamepadStation S) : Prop where
  onKeypad : s.pad.keys.OnKeypad
  atRest : s.pad = { keys := s.pad.keys }
  present : ∀ i, s.plugged = some i → i < s.sinks.length
  silent : ∀ sink ∈ s.sinks, log sink = []

omit [KeySink S] in
theorem Fresh.accounts (h : Fresh log s) : Accounts log (fun _ _ => false) s := by
  have hheld : s.pad.held = [] := by rw [h.atRest]
  have hpressed : s.pad.pressedKeys = [] := by rw [h.atRest]; rfl
  refine ⟨h.onKeypad, h.present, fun _ _ => hheld.trans hpressed.symm, fun i sink hsink key => ?_⟩
  have hreleased : Keypad.released.isDown key = false := by simp [Keypad.released, Keypad.isDown]
  rw [shows, h.silent sink (List.mem_of_getElem? hsink)]
  simp [Keypad.told, hreleased, hpressed]

/-- No sink shows a key but the one into which the controller is plugged. -/
def OthersUp (log : S → List (Int × Bool)) (s : GamepadStation S) : Prop :=
  ∀ i sink, s.sinks[i]? = some sink → s.plugged ≠ some i → ∀ key : Key, shows log sink key = false

/-- Whatever happens to a controller and wherever it is attached, nothing fails, and a sink that the
controller is not plugged into has the keys down that were left down there. So no such sink ever has
a key down if and only if the controller goes from one sink to another only while no key is
pressed. -/
theorem isDown_iff_leftDown_of_applyAll (hlog : KeySink.Logs log) (h : Fresh log s)
    {events : List Event} (hin : ∀ i, .attach i ∈ events → i < s.sinks.length) :
    let o := applyAll dbg events s
    o.result = .ok () ∧
      (∀ i sink, o.state.sinks[i]? = some sink → o.state.plugged ≠ some i → ∀ key : Key,
        shows log sink key = true ↔ leftDown i key.val events s.plugged s.pad false = true) ∧
      ((∀ before, before <+: events → OthersUp log (applyAll dbg before s).state) ↔
        LeavesAtRest events s.plugged s.pad) := by
  have hother {before : List Event} (hb : before <+: events) :
      let t := (applyAll dbg before s).state
      ∀ i sink, t.sinks[i]? = some sink → t.plugged ≠ some i → ∀ key : Key,
        shows log sink key = true ↔ leftDown i key.val before s.plugged s.pad false = true := by
    intro t i sink hsink hne key
    obtain ⟨-, -, -, haccounts⟩ := accounts_applyAll dbg hlog h.accounts before
      fun i hi => hin i (hb.subset hi)
    rw [haccounts.shows i sink hsink key]
    exact or_iff_right fun hplugged => hne hplugged.1
  have hok := (accounts_applyAll dbg hlog h.accounts events hin).1
  refine ⟨hok, hother (List.prefix_refl events), ?_, ?_⟩
  · intro hup
    refine leavesAtRest_of_leftDown h.onKeypad h.present hin fun before hb i hi hne key => ?_
    obtain ⟨-, hplugged, hlength, -⟩ := accounts_applyAll dbg hlog h.accounts before
      fun i hi => hin i (hb.subset hi)
    obtain ⟨sink, hsink⟩ : ∃ sink, (applyAll dbg before s).state.sinks[i]? = some sink :=
      ⟨_, List.getElem?_eq_getElem (hlength.symm ▸ hi)⟩
    have hne : (applyAll dbg before s).state.plugged ≠ some i := by rw [hplugged]; exact hne
    rw [← Bool.not_eq_true, ← hother hb i sink hsink hne key, hup before hb i sink hsink hne key]
    exact Bool.false_ne_true
  · intro hrest before hb i sink hsink hne key
    rw [← Bool.not_eq_true, hother hb i sink hsink hne key,
      leftDown_of_leavesAtRest (hrest.of_prefix hb)]
    exact Bool.false_ne_true

/-- A controller in no sink, beside two keypads. -/
def twoKeypads : GamepadStation RecordedKeypad := ⟨{ keys := {} }, [.start, .start], none⟩

/-- The controller goes from the first keypad to the second with two keys pressed, of which one is
let go only there, and back. -/
theorem isDown_iff_leftDown_of_applyAll_twoKeypads :
    let events : List Event := [.attach 0, .directions { down := some true }, .button true,
      .attach 1, .directions { down := some false }, .attach 0, .reset, .attach 1]
    let o := applyAll .off events twoKeypads
    (Fresh RecordedKeypad.calls twoKeypads ∧
        ∀ i, .attach i ∈ events → i < twoKeypads.sinks.length) ∧
      ∃ sink, o.state.sinks[0]? = some sink ∧ o.state.plugged = some 1 ∧
        (shows RecordedKeypad.calls sink 8 = true ↔
          leftDown 0 8 events none twoKeypads.pad false = true) ∧
        leftDown 0 8 events none twoKeypads.pad false = true ∧
        leftDown 0 5 events none twoKeypads.pad false = false := by
  intro events o
  have hfresh : Fresh RecordedKeypad.calls twoKeypads := by
    refine ⟨by decide, rfl, nofun, by decide⟩
  have hin : ∀ i, .attach i ∈ events → i < twoKeypads.sinks.length := by
    intro i hi
    simp [events] at hi
    rcases hi with rfl | rfl | rfl | rfl <;> decide
  obtain ⟨-, hshows, -⟩ :=
    isDown_iff_leftDown_of_applyAll .off RecordedKeypad.logs hfresh hin
  exact ⟨⟨hfresh, hin⟩, _, rfl, by decide, hshows 0 _ rfl (by decide) 8, by decide, by decide⟩

/-- A key that is pressed when the controller goes to another sink stays down on the one it
leaves. -/
theorem isDown_of_handover :
    let o := applyAll .off [.attach 0, .button true, .attach 1] twoKeypads
    Fresh RecordedKeypad.calls twoKeypads ∧ o.result = .ok () ∧ o.state.plugged = some 1 ∧
      (∃ sink, o.state.sinks[0]? = some sink ∧ sink.calls = [(5, true)] ∧
        shows RecordedKeypad.calls sink 5 = true) ∧ ¬ OthersUp RecordedKeypad.calls o.state :=
  ⟨⟨by decide, rfl, nofun, by decide⟩, by decide, by decide, ⟨_, rfl, by decide, by decide⟩,
    fun h => absurd (h 0 _ rfl (by decide) 5) (by decide)⟩

end GamepadStation

end Chip8
