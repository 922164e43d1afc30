import Chip8.Proofs.Debug.Inert
import Chip8.Proofs.Input.Mirroring

/-!
# A gamepad on a keypad that refuses

The inputs of a controller may stand for keys that the keypad does not have. An operation that tells
the keypad of such a key fails there, and the controller does not note what it told the keypad
before: keys that it had pressed by then it will not let go. A later operation that succeeds presses
them once more and notes them (`Tracked.of_ok`).

* `isDown_iff_lastPress`: hence letting all inputs go, which always succeeds, leaves a key down if
  and only if the operation that pressed it last has failed.
* `isDown_of_refusal`: a key that is pressed before one that is refused.
-/

namespace Chip8

open Debug (Printer)

variable (dbg : Printer)

namespace Gamepad

variable {g : Gamepad} {key : Int}

theorem press_mem_pending : (key, true) ∈ g.pending ↔ key ∈ g.pressedKeys ∧ key ∉ g.held :=
  mem_pending.trans (by rw [if_pos rfl])

/-- Of a key that is not held nothing but one press is pending. -/
theorem callsOf_of_prefix_pending (hheld : g.held.Nodup) (hkey : key ∉ g.held)
    {calls : List (Int × Bool)} (h : calls <+: g.pending) :
    callsOf key calls = if (key, true) ∈ calls then [true] else [] := by
  have hcalls := callsOf_of_prefix key h
  rw [callsOf_pending hheld, decide_eq_false hkey] at hcalls
  simp only [← mem_callsOf]
  by_cases hnow : key ∈ g.pressedKeys
  · rw [decide_eq_true hnow, if_neg nofun, List.prefix_cons_iff] at hcalls
    obtain hnone | ⟨rest, hrest, hnil⟩ := hcalls
    · simp [hnone]
    · simp [hrest, List.prefix_nil.mp hnil]
  · rw [decide_eq_false hnow, if_pos rfl, List.prefix_nil] at hcalls
    simp [hcalls]

/-- What a keypad takes of changes in turn: those up to the first that it refuses. -/
theorem deliver_recorded (changes : List (Int × Bool)) (r : RecordedKeypad) :
    let o := deliver dbg changes r
    (o.result = .ok () ↔ ∀ c ∈ changes, 0 ≤ c.1 ∧ c.1 < 16) ∧
      ∃ calls, calls <+: changes ∧ (o.result = .ok () → calls = changes) ∧
        o.state = ⟨r.keypad.told calls, r.calls ++ calls⟩ := by
  induction changes generalizing r with
  | nil =>
    refine ⟨iff_of_true rfl (List.forall_mem_nil _), [], List.nil_prefix, fun _ => rfl, ?_⟩
    rw [List.append_nil]
    rfl
  | cons c rest ih =>
    obtain ⟨key, pressed⟩ := c
    let next := KeySink.setKey dbg key pressed r
    have hstate : next.state =
        ⟨r.keypad.told [(key, pressed)], r.calls ++ [(key, pressed)]⟩ :=
      congrArg (RecordedKeypad.mk · _) (Keypad.state_setKey dbg .off r.keypad)
    by_cases hkey : 0 ≤ key ∧ key < 16
    · have hok : next.result = .ok () := RecordedKeypad.logs.takes dbg pressed r hkey
      obtain ⟨hresult, calls, hfirst, hall, hlater⟩ := ih next.state
      have hdeliver : deliver dbg ((key, pressed) :: rest) r =
          (deliver dbg rest next.state).after next.lines := Outcome.andThen_of_ok hok
      rw [hdeliver]
      refine ⟨?_, (key, pressed) :: calls, (List.prefix_cons_inj _).mpr hfirst,
        fun h => congrArg _ (hall h), hlater.trans ?_⟩
      · rw [List.forall_mem_cons, and_iff_right hkey]
        exact hresult
      · rw [hstate, List.append_assoc]
        rfl
    · have herror : next.result = .error (.keyOutOfRange key) := by
        show ((r.keypad.setKey dbg key pressed).map _).result = _
        rw [Keypad.setKey_of_not_bounds dbg r.keypad hkey]
        rfl
      have hdeliver : deliver dbg ((key, pressed) :: rest) r =
          .failed (.keyOutOfRange key) next.state next.lines := Outcome.andThen_of_error herror
      rw [hdeliver]
      refine ⟨iff_of_false nofun fun h => hkey (h _ List.mem_cons_self), [(key, pressed)],
        (List.prefix_cons_inj _).mpr List.nil_prefix, nofun, hstate⟩

end Gamepad

namespace GamepadStation

variable {i : Nat} {s : GamepadStation RecordedKeypad}

/-! ## The last press of a key -/

/-- What sink `i` was told so far. -/
def callsAt (i : Nat) (s : GamepadStation RecordedKeypad) : List (Int × Bool) :=
  s.sinks[i]?.elim [] RecordedKeypad.calls

/-- What an event tells sink `i`. -/
def Event.tells (e : Event) (i : Nat) (s : GamepadStation RecordedKeypad) : List (Int × Bool) :=
  (callsAt i (apply dbg e s).state).drop (callsAt i s).length

/-- Whether an event that presses a key on sink `i` fails; what `last` says of the events before it,
if it does not press the key. -/
def Event.lastPress (e : Event) (i : Nat) (key : Int) (s : GamepadStation RecordedKeypad)
    (last : Option Bool) : Option Bool :=
  if (key, true) ∈ e.tells dbg i s then some (decide ((apply dbg e s).result ≠ .ok ())) else last

/-- Whether, of events in turn, the last one failed that pressed a key on sink `i`. -/
def lastPress (i : Nat) (key : Int) :
    List Event → GamepadStation RecordedKeypad → Option Bool → Option Bool
  | [], _, last => last
  | e :: events, s, last =>
    lastPress i key events (apply dbg e s).state (e.lastPress dbg i key s last)

/-- The controller is plugged into sink `i`, which was as `start` before and was told `calls` since.
Of the keys that it has, the controller holds some, which were pressed by an event that succeeded;
the others are as their last press has left them. -/
structure Tracked (i : Nat) (start : RecordedKeypad) (last : Int → Option Bool)
    (calls : List (Int × Bool)) (s : GamepadStation RecordedKeypad) : Prop where
  plugged : s.plugged = some i
  nodup : s.pad.held.Nodup
  held : ∀ key ∈ s.pad.held, 0 ≤ key ∧ key < 16
  noted : ∀ key ∈ s.pad.held, last key = some false
  sink : s.sinks[i]? = some ⟨start.keypad.told calls, start.calls ++ calls⟩
  pressed : ∀ key, last key ≠ none ↔ (key, true) ∈ calls
  down : ∀ key : Key, (key.val : Int) ∉ s.pad.held →
    (start.keypad.told calls).isDown key = (last key.val).getD (start.keypad.isDown key)

namespace Tracked

variable {start : RecordedKeypad} {last : Int → Option Bool} {calls new : List (Int × Bool)}

/-- What the last press of every key was once the keypad was told of changes as well. -/
def amended (new : List (Int × Bool)) (failed : Bool) (last : Int → Option Bool) (key : Int) :
    Option Bool :=
  if (key, true) ∈ new then some failed else last key

theorem amended_ne_none_iff (h : Tracked i start last calls s) (failed : Bool) (key : Int) :
    amended new failed last key ≠ none ↔ (key, true) ∈ calls ++ new := by
  rw [List.mem_append, ← h.pressed key, amended]
  split
  · rename_i hnew
    exact iff_of_true nofun (.inr hnew)
  · rename_i hnew
    exact (or_iff_left hnew).symm

theorem isDown_told (key : Key) :
    (start.keypad.told (calls ++ new)).isDown key =
      (callsOf key.val new).getLast?.getD ((start.keypad.told calls).isDown key) := by
  rw [Keypad.told_append, Keypad.isDown_told]

/-- The keypad has taken all that was pending. -/
theorem of_ok (h : Tracked i start last calls s)
    (hkeys : ∀ c ∈ s.pad.pending, 0 ≤ c.1 ∧ c.1 < 16) :
    Tracked i start (amended s.pad.pending false last) (calls ++ s.pad.pending)
      { s with
        pad := s.pad.settled
        sinks := s.sinks.set i ⟨start.keypad.told (calls ++ s.pad.pending),
          start.calls ++ (calls ++ s.pad.pending)⟩ } where
  plugged := h.plugged
  nodup := Gamepad.nodup_pressedKeys s.pad
  held key hkey := by
    by_cases hold : key ∈ s.pad.held
    · exact h.held key hold
    · exact hkeys (key, true) (Gamepad.press_mem_pending.mpr ⟨hkey, hold⟩)
  noted key hkey := by
    by_cases hold : key ∈ s.pad.held
    · rw [amended, h.noted key hold, ite_self]
    · rw [amended, if_pos (Gamepad.press_mem_pending.mpr ⟨hkey, hold⟩)]
  sink := List.getElem?_set_self (List.getElem?_eq_some_iff.mp h.sink).1
  pressed := h.amended_ne_none_iff false
  down key hkey := by
    have hkey : (key.val : Int) ∉ s.pad.pressedKeys := hkey
    have hnew : ((key.val : Int), true) ∉ s.pad.pending :=
      fun hnew => hkey (Gamepad.press_mem_pending.mp hnew).1
    rw [isDown_told, Gamepad.callsOf_pending h.nodup, amended, if_neg hnew]
    by_cases hold : (key.val : Int) ∈ s.pad.held
    · simp [hkey, hold, h.noted _ hold]
    · simp [hkey, hold, h.down key hold]

/-- The keypad has refused some of what was pending, and the controller notes nothing. -/
theorem of_error (h : Tracked i start last calls s) (hnew : new <+: s.pad.pending) :
    Tracked i start (amended new true last) (calls ++ new)
      { s with
        sinks := s.sinks.set i ⟨start.keypad.told (calls ++ new),
          start.calls ++ (calls ++ new)⟩ } where
  plugged := h.plugged
  nodup := h.nodup
  held := h.held
  noted key hkey := by
    have hnone : (key, true) ∉ new := fun hpress =>
      (Gamepad.press_mem_pending.mp (hnew.subset hpress)).2 hkey
    rw [amended, if_neg hnone, h.noted key hkey]
  sink := List.getElem?_set_self (List.getElem?_eq_some_iff.mp h.sink).1
  pressed := h.amended_ne_none_iff true
  down key hkey := by
    rw [isDown_told, Gamepad.callsOf_of_prefix_pending h.nodup hkey hnew, amended]
    split
    · rfl
    · exact h.down key hkey

/-- Bringing the keypad up to date keeps track of it, whether it refuses a key or not. -/
theorem of_sync (h : Tracked i start last calls s) :
    let o := sync dbg s
    (o.result = .ok () ↔ ∀ c ∈ s.pad.pending, 0 ≤ c.1 ∧ c.1 < 16) ∧
      ∃ new, new <+: s.pad.pending ∧
        Tracked i start (amended new (decide (o.result ≠ .ok ())) last) (calls ++ new) o.state := by
  let delivered := Gamepad.deliver dbg s.pad.pending
    (⟨start.keypad.told calls, start.calls ++ calls⟩ : RecordedKeypad)
  obtain ⟨hresult, new, hfirst, hall, hlater⟩ := Gamepad.deliver_recorded dbg s.pad.pending
    ⟨start.keypad.told calls, start.calls ++ calls⟩
  rw [← Keypad.told_append, List.append_assoc] at hlater
  have hsync : sync dbg s = _ := sync_of_plugged dbg h.plugged h.sink
  simp only [Outcome.mapState, hlater] at hsync
  rw [hsync]
  refine ⟨hresult, new, hfirst, ?_⟩
  by_cases hok : delivered.result = .ok ()
  · obtain rfl := hall hok
    rw [if_pos hok, decide_eq_false (not_not.mpr hok)]
    exact h.of_ok (hresult.mp hok)
  · rw [if_neg hok, decide_eq_true hok]
    exact h.of_error hfirst

/-- An event that comes down to bringing the keypad up to date keeps track of it. -/
theorem of_apply {e : Event} {t : GamepadStation RecordedKeypad} (h : Tracked i start last calls t)
    (hsinks : s.sinks = t.sinks) (hsync : apply dbg e s = sync dbg t) :
    ((apply dbg e s).result = .ok () ↔ ∀ c ∈ t.pad.pending, 0 ≤ c.1 ∧ c.1 < 16) ∧
      e.tells dbg i s <+: t.pad.pending ∧
      Tracked i start (fun key => e.lastPress dbg i key s (last key)) (calls ++ e.tells dbg i s)
        (apply dbg e s).state := by
  obtain ⟨hresult, new, hfirst, hnew⟩ := h.of_sync dbg
  have htells : e.tells dbg i s = new := by
    rw [Event.tells, hsync, callsAt, callsAt, hsinks, h.sink, hnew.sink, Option.elim, Option.elim,
      ← List.append_assoc, List.drop_left]
  rw [← hsync] at hresult hnew
  subst htells
  exact ⟨hresult, hfirst, hnew⟩

theorem turn (h : Tracked i start last calls s) (e : Event) :
    Tracked i start last calls { s with pad := e.turn s.pad } := by
  cases e <;> exact ⟨h.plugged, h.nodup, h.held, h.noted, h.sink, h.pressed, h.down⟩

theorem attached (hsink : s.sinks[i]? = some start) :
    Tracked i start (fun _ => none) []
      { s with plugged := some i, pad := { s.pad with held := [] } } where
  plugged := rfl
  nodup := List.nodup_nil
  held := List.forall_mem_nil _
  noted := List.forall_mem_nil _
  sink := by rw [List.append_nil]; exact hsink
  pressed key := iff_of_false (not_not.mpr rfl) List.not_mem_nil
  down _ _ := rfl

/-- Inputs in turn keep track of the keypad, although some of them may fail. -/
theorem of_runAll (h : Tracked i start last calls s) {inputs : List Event}
    (hinputs : ∀ e ∈ inputs, e.isInput) :
    ∃ more, Tracked i start (fun key => lastPress dbg i key inputs s (last key)) (calls ++ more)
      (Action.runAll (apply dbg) inputs s) := by
  induction inputs generalizing s last calls with
  | nil => exact ⟨[], (List.append_nil calls).symm ▸ h⟩
  | cons e inputs ih =>
    obtain ⟨he, hrest⟩ := List.forall_mem_cons.mp hinputs
    obtain ⟨-, -, hnext⟩ := (h.turn e).of_apply dbg (s := s) rfl (apply_of_isInput dbg he s)
    obtain ⟨more, hlater⟩ := ih hnext hrest
    rw [List.append_assoc] at hlater
    exact ⟨_, hlater⟩

/-- Letting all inputs go succeeds and presses nothing. -/
theorem of_reset (h : Tracked i start last calls s) :
    let o := apply dbg .reset s
    o.result = .ok () ∧ o.state.pad.held = [] ∧
      ∃ more, Tracked i start last (calls ++ more) o.state := by
  have hnone (key : Int) (pressed : Bool) (hc : (key, pressed) ∈ s.pad.atRest.pending) :
      key ∈ s.pad.held ∧ pressed = false := by
    have hc := Gamepad.mem_pending.mp hc
    cases pressed with
    | true => exact absurd hc.1 List.not_mem_nil
    | false => exact ⟨hc.1, rfl⟩
  obtain ⟨hresult, hfirst, hnext⟩ := (h.turn .reset).of_apply dbg (e := .reset) (s := s) rfl rfl
  have hok : (apply dbg .reset s).result = .ok () :=
    hresult.mpr fun c hc => h.held c.1 (hnone c.1 c.2 hc).1
  have hlast (key : Int) (last : Option Bool) : Event.reset.lastPress dbg i key s last = last :=
    if_neg fun hpress => Bool.noConfusion (hnone key true (hfirst.subset hpress)).2
  simp only [hlast] at hnext
  have hsync : apply dbg .reset s = _ :=
    sync_of_plugged dbg (s := { s with pad := s.pad.atRest }) h.plugged h.sink
  have hpad : (apply dbg .reset s).state.pad = s.pad.atRest.settled := by
    rw [hsync] at hok ⊢
    exact if_pos hok
  exact ⟨hok, by rw [hpad]; rfl, _, hnext⟩

end Tracked

/-- A controller is attached to a keypad and then its inputs change, some of which may fail because
the keypad does not have a key. Letting all inputs go succeeds. A key is then down if the operation
that pressed it last has failed, it is up if that operation succeeded, and it is where it was if the
controller never pressed it. So no key that it pressed is down if and only if for every key the last
operation that pressed it succeeded. -/
theorem isDown_iff_lastPress {start : RecordedKeypad} (hsink : s.sinks[i]? = some start)
    {inputs : List Event} (hinputs : ∀ e ∈ inputs, e.isInput) :
    let events := .attach i :: inputs
    let last (key : Key) := lastPress dbg i key.val events s none
    let o := apply dbg .reset (Action.runAll (apply dbg) events s)
    o.result = .ok () ∧ ∃ calls later, o.state.sinks[i]? = some later ∧
      later.calls = start.calls ++ calls ∧
      (∀ key : Key, later.keypad.isDown key = (last key).getD (start.keypad.isDown key)) ∧
      ((∀ key : Key, ((key.val : Int), true) ∈ calls → later.keypad.isDown key = false) ↔
        ∀ key : Key, last key ≠ some true) := by
  intro events last o
  obtain ⟨-, -, hattached⟩ :=
    (Tracked.attached hsink).of_apply dbg (e := .attach i) (s := s) rfl rfl
  obtain ⟨more, hinputs⟩ := hattached.of_runAll dbg hinputs
  obtain ⟨hok, hheld, rest, h⟩ := hinputs.of_reset dbg
  have hdown (key : Key) : (start.keypad.told _).isDown key =
      (last key).getD (start.keypad.isDown key) :=
    h.down key (hheld ▸ List.not_mem_nil)
  refine ⟨hok, _, _, h.sink, rfl, hdown, ?_⟩
  refine forall_congr' fun key => ?_
  rw [hdown, ← h.pressed]
  show last key ≠ none → _ ↔ _
  cases last key with
  | none => simp
  | some failed => cases failed <;> simp

/-- A controller one of whose inputs stands for a key that the keypad does not have. -/
def beyondKeypad : GamepadStation RecordedKeypad := ⟨{ keys := { up := 99 } }, [.start], none⟩

/-- A key is pressed by an operation that fails, and once more by one that succeeds. -/
theorem isDown_iff_lastPress_beyondKeypad :
    let both : Event := .directions { up := some true, down := some true }
    let inputs := [both, .directions { up := some false }, .button true]
    let t := Action.runAll (apply .off) (.attach 0 :: inputs) beyondKeypad
    (beyondKeypad.sinks[0]? = some .start ∧ ∀ e ∈ inputs, e.isInput) ∧
      (apply .off both (apply .off (.attach 0) beyondKeypad).state).result =
        .error (.keyOutOfRange 99) ∧
      (∀ key : Key, lastPress .off 0 key.val (.attach 0 :: inputs) beyondKeypad none ≠ some true) ∧
      (apply .off .reset t).result = .ok () ∧
      ∃ later, (apply .off .reset t).state.sinks = [later] ∧
        later.calls = [(8, true), (99, true), (8, true), (5, true), (5, false), (8, false)] ∧
        ∀ key : Key, ((key.val : Int), true) ∈ later.calls → later.keypad.isDown key = false := by
  intro both inputs
  have hsink : beyondKeypad.sinks[0]? = some .start := rfl
  have hinputs : ∀ e ∈ inputs, e.isInput := by decide
  have hlast : ∀ key : Key,
      lastPress .off 0 key.val (.attach 0 :: inputs) beyondKeypad none ≠ some true := by decide
  have hrefused : (apply .off both (apply .off (.attach 0) beyondKeypad).state).result =
      .error (.keyOutOfRange 99) := by decide
  obtain ⟨hok, calls, later, hlater, hcalls, -, hup⟩ := isDown_iff_lastPress .off hsink hinputs
  dsimp only at hlater hup ⊢
  have hsinks : (apply .off .reset (Action.runAll (apply .off) (.attach 0 :: inputs)
      beyondKeypad)).state.sinks =
    [⟨.released, [(8, true), (99, true), (8, true), (5, true), (5, false), (8, false)]⟩] := by
    decide
  rw [hsinks] at hlater
  obtain rfl := Option.some.inj hlater
  obtain rfl : _ = calls := hcalls
  exact ⟨⟨hsink, hinputs⟩, hrefused, hlast, hok, _, hsinks, rfl, hup.mpr hlast⟩

/-- A key that is pressed before one that is refused stays down although all inputs were let go. -/
theorem isDown_of_refusal :
    let events : List Event := [.attach 0, .directions { up := some true, down := some true }]
    let t := Action.runAll (apply .off) events beyondKeypad
    let o := apply .off .reset t
    o.result = .ok () ∧ o.state.pad.pressedKeys = [] ∧
      ∃ later, o.state.sinks[0]? = some later ∧ later.calls = [(8, true), (99, true)] ∧
        later.keypad.isDown 8 = true :=
  ⟨by decide, by decide, _, rfl, by decide, by decide⟩

end GamepadStation

end Chip8
