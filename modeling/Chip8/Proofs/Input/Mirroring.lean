import Chip8.Proofs.Input.Gamepad
import Chip8.Proofs.Input.Keypad
import Chip8.Proofs.Toggles

/-!
# A gamepad mirrored on a sink

What a sink is told by the controller that is plugged into it. Bringing the sink up to date tells it
of what is pending (`tells_sync`), which is one call for every key that is pressed now and was not
held, or the other way round, and no call for any other key (`callsOf_pending`). So the calls for a
key toggle it, a press first, and end at where it is (`mirrored_applyAll`, `mirrors_of_applyAll`).
-/

namespace Chip8

open Debug (Printer)

/-- All inputs stand for keys of the keypad. Several of them may stand for one key. -/
def GamepadKeys.OnKeypad (keys : GamepadKeys) : Prop :=
  ∀ key ∈ [keys.up, keys.down, keys.left, keys.right, keys.button], 0 ≤ key ∧ key < 16

instance (keys : GamepadKeys) : Decidable keys.OnKeypad :=
  inferInstanceAs (Decidable (∀ key ∈ [_, _, _, _, _], 0 ≤ key ∧ key < 16))

/-- The sink takes all keys of the keypad, and its log grows by what it is told of them. -/
structure KeySink.Logs {S : Type} [KeySink S] (log : S → List (Int × Bool)) : Prop where
  takes : ∀ (dbg : Printer) {key : Int} (pressed : Bool) (sink : S), 0 ≤ key ∧ key < 16 →
    (KeySink.setKey dbg key pressed sink).result = .ok ()
  notes : ∀ (dbg : Printer) {key : Int} (pressed : Bool) (sink : S), 0 ≤ key ∧ key < 16 →
    log (KeySink.setKey dbg key pressed sink).state = log sink ++ [(key, pressed)]

theorem RecordedKeypad.logs : KeySink.Logs RecordedKeypad.calls where
  takes dbg key pressed r h := by
    obtain ⟨changed, hok⟩ :
        ∃ changed, (r.keypad.setKey dbg _ pressed).result = .ok changed :=
      Keypad.setKey_of_bounds dbg r.keypad h
    exact congrArg (Except.map fun _ => ()) hok
  notes _ _ _ _ _ := rfl

/-- The calls for one key. -/
def callsOf (key : Int) (calls : List (Int × Bool)) : List Bool :=
  (calls.filter (·.1 = key)).map Prod.snd

theorem callsOf_append (key : Int) (first second : List (Int × Bool)) :
    callsOf key (first ++ second) = callsOf key first ++ callsOf key second := by
  rw [callsOf, List.filter_append, List.map_append]
  rfl

theorem callsOf_cons (key k : Int) (pressed : Bool) (calls : List (Int × Bool)) :
    callsOf key ((k, pressed) :: calls) =
      if k = key then pressed :: callsOf key calls else callsOf key calls := by
  by_cases h : k = key <;> simp [callsOf, h]

theorem mem_callsOf {key : Int} {pressed : Bool} {calls : List (Int × Bool)} :
    pressed ∈ callsOf key calls ↔ (key, pressed) ∈ calls := by
  simp [callsOf]

theorem callsOf_of_prefix (key : Int) {first calls : List (Int × Bool)} (h : first <+: calls) :
    callsOf key first <+: callsOf key calls := by
  obtain ⟨later, rfl⟩ := h
  exact ⟨callsOf key later, (callsOf_append key first later).symm⟩

/-- Calls that say the same of different keys. -/
theorem callsOf_map {keys : List Int} (h : keys.Nodup) (key : Int) (pressed : Bool) :
    callsOf key (keys.map (·, pressed)) = if key ∈ keys then [pressed] else [] := by
  induction keys with
  | nil => rfl
  | cons k ks ih =>
    obtain ⟨hk, hks⟩ := List.nodup_cons.mp h
    rw [List.map_cons, callsOf_cons, ih hks]
    by_cases heq : k = key
    · subst heq
      rw [if_pos rfl, if_neg hk, if_pos List.mem_cons_self]
    · have hmem : key ∈ k :: ks ↔ key ∈ ks := List.mem_cons.trans (or_iff_right (Ne.symm heq))
      simp only [if_neg heq, hmem]

/-- The keypad after calls in turn. A call for a key that there is not leaves it as it is. -/
def Keypad.told (calls : List (Int × Bool)) (k : Keypad) : Keypad :=
  calls.foldl (fun k c => (k.setKey .off c.1 c.2).state) k

theorem Keypad.told_append (calls later : List (Int × Bool)) (k : Keypad) :
    k.told (calls ++ later) = (k.told calls).told later :=
  List.foldl_append

/-- A key is where the last call for it has put it. -/
theorem Keypad.isDown_told (calls : List (Int × Bool)) (k : Keypad) (key : Key) :
    (k.told calls).isDown key = (callsOf key.val calls).getLast?.getD (k.isDown key) := by
  induction calls generalizing k with
  | nil => rfl
  | cons c calls ih =>
    obtain ⟨index, pressed⟩ := c
    refine (ih (k.setKey .off index pressed).state).trans ?_
    rw [callsOf_cons, isDown_setKey]
    split
    · rw [List.getLast?_cons, Option.getD_some]
    · rfl

/-! ## What is pending -/

namespace Gamepad

variable {S : Type} [KeySink S] {log : S → List (Int × Bool)} (dbg : Printer) {g : Gamepad}

theorem onKeypad_of_mem_pressedKeys (hkeys : g.keys.OnKeypad) {key : Int}
    (h : key ∈ g.pressedKeys) : 0 ≤ key ∧ key < 16 :=
  hkeys key (List.mem_map_of_mem (f := Prod.snd) (mem_pressedKeys.mp h))

/-- What is pending is about keys of the keypad. -/
theorem pending_onKeypad (hkeys : g.keys.OnKeypad) (hheld : ∀ key ∈ g.held, 0 ≤ key ∧ key < 16) :
    ∀ c ∈ g.pending, 0 ≤ c.1 ∧ c.1 < 16 := by
  rintro ⟨key, pressed⟩ hc
  have hc := mem_pending.mp hc
  cases pressed with
  | true => exact onKeypad_of_mem_pressedKeys hkeys hc.1
  | false => exact hheld key hc.1

/-- One call for a key that changes, none for any other. -/
theorem callsOf_pending (hheld : g.held.Nodup) (key : Int) :
    callsOf key g.pending =
      if decide (key ∈ g.pressedKeys) = decide (key ∈ g.held) then []
      else [decide (key ∈ g.pressedKeys)] := by
  rw [pending, callsOf_append, callsOf_map (hheld.filter _),
    callsOf_map ((nodup_pressedKeys g).filter _)]
  by_cases hnow : key ∈ g.pressedKeys <;> by_cases hold : key ∈ g.held <;> simp [hnow, hold]

/-- A sink that logs takes all changes of keys of the keypad. -/
theorem deliver_of_logs (hlog : KeySink.Logs log) {changes : List (Int × Bool)}
    (hkeys : ∀ c ∈ changes, 0 ≤ c.1 ∧ c.1 < 16) (sink : S) :
    (deliver dbg changes sink).result = .ok () ∧
      log (deliver dbg changes sink).state = log sink ++ changes := by
  induction changes generalizing sink with
  | nil => exact ⟨rfl, (List.append_nil _).symm⟩
  | cons c rest ih =>
    obtain ⟨key, pressed⟩ := c
    have hkey : 0 ≤ key ∧ key < 16 := hkeys _ List.mem_cons_self
    obtain ⟨hresult, hrest⟩ := ih (fun c hc => hkeys c (List.mem_cons_of_mem _ hc))
      (KeySink.setKey dbg key pressed sink).state
    rw [deliver, Outcome.andThen_of_ok (hlog.takes dbg pressed sink hkey)]
    refine ⟨hresult, hrest.trans ?_⟩
    rw [hlog.notes dbg pressed sink hkey, List.append_assoc]
    rfl

/-- The controller once its sink is up to date. -/
def settled (g : Gamepad) : Gamepad := { g with held := g.pressedKeys }

end Gamepad

/-! ## Inputs -/

namespace GamepadStation

/-- What an event does to the inputs of the controller. -/
def Event.turn : Event → Gamepad → Gamepad
  | .attach _ => id
  | .button pressed => Gamepad.withButton pressed
  | .directions d => Gamepad.withDirections d
  | .reset => Gamepad.atRest

/-- Whether an event leaves the controller plugged in where it is. -/
def Event.isInput : Event → Bool
  | .attach _ => false
  | _ => true

/-- What events do to the inputs of the controller. -/
def turnAll (events : List Event) (g : Gamepad) : Gamepad :=
  events.foldl (fun g e => e.turn g) g

theorem settled_turnAll (events : List Event) (g : Gamepad) (held : List Int) :
    (turnAll events { g with held }).settled = (turnAll events g).settled := by
  induction events generalizing g with
  | nil => rfl
  | cons e events ih =>
    have hturn : e.turn { g with held } = { e.turn g with held } := by cases e <;> rfl
    exact (congrArg (fun g => (turnAll events g).settled) hturn).trans (ih (e.turn g))

/-! ## What a sink was told -/

variable {S : Type} {log : S → List (Int × Bool)} {i : Nat} {s t u : GamepadStation S}

/-- Between two states of a station, the controller being plugged into sink `i` in the latter, that
sink was told of `calls`. -/
def Tells (log : S → List (Int × Bool)) (i : Nat) (calls : List (Int × Bool))
    (s t : GamepadStation S) : Prop :=
  t.plugged = some i ∧ ∃ sink later, s.sinks[i]? = some sink ∧ t.sinks[i]? = some later ∧
    log later = log sink ++ calls

theorem Tells.trans {first second : List (Int × Bool)} (h : Tells log i first s t)
    (h' : Tells log i second t u) : Tells log i (first ++ second) s u := by
  obtain ⟨-, sink, mid, hsink, hmid, hfirst⟩ := h
  obtain ⟨hplugged, mid', later, hmid', hlater, hsecond⟩ := h'
  obtain rfl : mid = mid' := Option.some.inj (hmid.symm.trans hmid')
  exact ⟨hplugged, sink, later, hsink, hlater, by rw [hsecond, hfirst, List.append_assoc]⟩

/-- The controller is plugged into sink `i`. The keys of its inputs and those that it holds are keys
of the keypad. -/
structure Ready (i : Nat) (s : GamepadStation S) : Prop where
  plugged : s.plugged = some i
  present : i < s.sinks.length
  onKeypad : s.pad.keys.OnKeypad
  nodup : s.pad.held.Nodup
  held : ∀ key ∈ s.pad.held, 0 ≤ key ∧ key < 16

theorem Ready.tells_nothing (h : Ready i s) : Tells log i [] s s :=
  ⟨h.plugged, _, _, List.getElem?_eq_getElem h.present, List.getElem?_eq_getElem h.present,
    (List.append_nil _).symm⟩

theorem Ready.pending (h : Ready i s) : ∀ c ∈ s.pad.pending, 0 ≤ c.1 ∧ c.1 < 16 :=
  Gamepad.pending_onKeypad h.onKeypad h.held

theorem Ready.of_settled (h : Ready i s) (hpad : t.pad = s.pad.settled)
    {calls : List (Int × Bool)} (ht : Tells log i calls s t) : Ready i t := by
  obtain ⟨hplugged, -, later, -, hlater, -⟩ := ht
  refine ⟨hplugged, (List.getElem?_eq_some_iff.mp hlater).1, ?_, ?_, ?_⟩ <;> rw [hpad]
  · exact h.onKeypad
  · exact Gamepad.nodup_pressedKeys s.pad
  · exact fun key hkey => Gamepad.onKeypad_of_mem_pressedKeys h.onKeypad hkey

theorem Ready.turn (h : Ready i s) (e : Event) : Ready i { s with pad := e.turn s.pad } := by
  cases e <;> exact ⟨h.plugged, h.present, h.onKeypad, h.nodup, h.held⟩

/-- A success that leaves the controller with the inputs of `pad` and its sink up to date: the sink
was told of every key what toggles it from `down` to whether it is pressed. -/
structure Mirrored (log : S → List (Int × Bool)) (i : Nat) (down : Int → Bool) (pad : Gamepad)
    (s : GamepadStation S) (o : Outcome (GamepadStation S) Unit) : Prop where
  ok : o.result = .ok ()
  ready : Ready i o.state
  settled : o.state.pad = pad.settled
  told : ∃ calls, Tells log i calls s o.state ∧ ∀ key,
    Toggles (down key) (callsOf key calls) (decide (key ∈ o.state.pad.pressedKeys))

theorem Mirrored.andThen {down : Int → Bool} {pad next : Gamepad}
    {o : Outcome (GamepadStation S) Unit} {a : Action (GamepadStation S) Unit}
    (h : Mirrored log i down pad s o)
    (h' : Mirrored log i (fun key => decide (key ∈ pad.pressedKeys)) next o.state (a o.state)) :
    Mirrored log i down next s (o.andThen fun _ t => a t) := by
  obtain ⟨calls, htells, htoggles⟩ := h.told
  obtain ⟨later, htells', htoggles'⟩ := h'.told
  rw [Outcome.andThen_of_ok h.ok]
  refine ⟨h'.ok, h'.ready, h'.settled, calls ++ later, htells.trans htells', fun key => ?_⟩
  have hmid := htoggles key
  rw [h.settled] at hmid
  rw [callsOf_append]
  exact hmid.append (htoggles' key)

/-! ## One event -/

variable [KeySink S] (dbg : Printer)

/-- The sink into which the controller is plugged is told of what is pending. The controller notes
it if the sink has taken all of it. -/
theorem sync_of_plugged {sink : S} (hplugged : s.plugged = some i)
    (hsink : s.sinks[i]? = some sink) :
    let o := Gamepad.deliver dbg s.pad.pending sink
    sync dbg s = o.mapState fun later =>
      { s with
        pad := if o.result = .ok () then s.pad.settled else s.pad
        sinks := s.sinks.set i later } := by
  simp only [sync, hplugged, hsink, Gamepad.sync]
  cases (Gamepad.deliver dbg s.pad.pending sink).result with
  | ok _ => rfl
  | error e => rfl

/-- The sink is told once of every key that is pressed and not held or held and not pressed. -/
theorem tells_sync (hlog : KeySink.Logs log) (h : Ready i s) :
    let o := sync dbg s
    o.result = .ok () ∧ Ready i o.state ∧ o.state.pad = s.pad.settled ∧
      ∃ calls, Tells log i calls s o.state ∧ ∀ key, callsOf key calls =
        if decide (key ∈ o.state.pad.pressedKeys) = decide (key ∈ s.pad.held) then []
        else [decide (key ∈ o.state.pad.pressedKeys)] := by
  obtain ⟨sink, hsink⟩ : ∃ sink, s.sinks[i]? = some sink := ⟨_, List.getElem?_eq_getElem h.present⟩
  obtain ⟨hresult, hlater⟩ := Gamepad.deliver_of_logs dbg hlog h.pending sink
  have hsync : sync dbg s =
      (Gamepad.deliver dbg s.pad.pending sink).mapState fun later =>
        { s with pad := s.pad.settled, sinks := s.sinks.set i later } := by
    rw [sync_of_plugged dbg h.plugged hsink, if_pos hresult]
  have htells : Tells log i s.pad.pending s (sync dbg s).state := by
    rw [hsync]
    exact ⟨h.plugged, _, _, hsink, List.getElem?_set_self h.present, hlater⟩
  have hpad : (sync dbg s).state.pad = s.pad.settled := by rw [hsync]; rfl
  refine ⟨by rw [hsync]; exact hresult, h.of_settled hpad htells, hpad, _, htells, fun key => ?_⟩
  rw [hpad]
  exact Gamepad.callsOf_pending h.nodup key

theorem apply_of_isInput {e : Event} (he : e.isInput) (s : GamepadStation S) :
    apply dbg e s = sync dbg { s with pad := e.turn s.pad } := by
  cases e with
  | attach _ => exact absurd he Bool.false_ne_true
  | _ => rfl

/-- An input tells the sink once of every key that it presses or lets go, and of no other. -/
theorem tells_apply (hlog : KeySink.Logs log) (h : Ready i s)
    (hsettled : s.pad.settled = s.pad) {e : Event} (he : e.isInput) :
    let o := apply dbg e s
    o.result = .ok () ∧ Ready i o.state ∧ o.state.pad = (e.turn s.pad).settled ∧
      ∃ calls, Tells log i calls s o.state ∧ ∀ key, callsOf key calls =
        if decide (key ∈ o.state.pad.pressedKeys) = decide (key ∈ s.pad.pressedKeys) then []
        else [decide (key ∈ o.state.pad.pressedKeys)] := by
  have hheld : (e.turn s.pad).held = s.pad.pressedKeys := by
    rw [← hsettled]
    cases e <;> rfl
  have hsync := tells_sync dbg hlog (h.turn e)
  rw [← apply_of_isInput dbg he] at hsync
  simp only [hheld] at hsync
  exact hsync

/-- Attaching tells the sink of the keys that are pressed. -/
theorem mirrored_attach (hlog : KeySink.Logs log) (hkeys : s.pad.keys.OnKeypad)
    (hi : i < s.sinks.length) :
    Mirrored log i (fun _ => false) s.pad s (apply dbg (.attach i) s) := by
  have hready : Ready i { s with plugged := some i, pad := { s.pad with held := [] } } :=
    ⟨rfl, hi, hkeys, List.nodup_nil, fun _ h => absurd h List.not_mem_nil⟩
  obtain ⟨hok, hnext, hpad, calls, htells, hcalls⟩ := tells_sync dbg hlog hready
  refine ⟨hok, hnext, hpad, calls, htells, fun key => ?_⟩
  rw [hcalls]
  show Toggles (decide (key ∈ ([] : List Int))) _ _
  exact toggles_step _ _

/-! ## Events in turn -/

/-- Events in turn, up to the first that fails. -/
def applyAll (dbg : Printer) : List Event → Action (GamepadStation S) Unit
  | [], s => .done () s []
  | e :: events, s => (apply dbg e s).andThen fun _ s => applyAll dbg events s

/-- Inputs in turn toggle every key from where it was to where it is. -/
theorem mirrored_applyAll (hlog : KeySink.Logs log) (h : Ready i s)
    (hsettled : s.pad.settled = s.pad) {inputs : List Event} (hinputs : ∀ e ∈ inputs, e.isInput) :
    Mirrored log i (fun key => decide (key ∈ s.pad.pressedKeys)) (turnAll inputs s.pad) s
      (applyAll dbg inputs s) := by
  induction inputs generalizing s with
  | nil => exact ⟨rfl, h, hsettled.symm, [], h.tells_nothing, fun key => rfl⟩
  | cons e inputs ih =>
    obtain ⟨hok, hready, hpad, calls, htells, hcalls⟩ :=
      tells_apply dbg hlog h hsettled (hinputs e List.mem_cons_self)
    have hfirst : Mirrored log i (fun key => decide (key ∈ s.pad.pressedKeys)) (e.turn s.pad) s
        (apply dbg e s) :=
      ⟨hok, hready, hpad, calls, htells, fun key => hcalls key ▸ toggles_step _ _⟩
    have hrest := ih hready (by rw [hpad]; rfl) fun e he => hinputs e (List.mem_cons_of_mem _ he)
    rw [hpad] at hrest
    exact hfirst.andThen { hrest with
      settled := hrest.settled.trans (settled_turnAll inputs (e.turn s.pad) _) }

/-- A controller is attached to a sink, or was built with it, and then its inputs change. Nothing
fails. What the sink was told of a key since then goes back and forth, a press first, and ends at
whether the key is pressed, which it is while one of its inputs is held. One more input tells the
sink once of every key that it presses or lets go, and of no other. -/
theorem mirrors_of_applyAll (hlog : KeySink.Logs log) (hkeys : s.pad.keys.OnKeypad)
    (hi : i < s.sinks.length) {inputs : List Event} (hinputs : ∀ e ∈ inputs, e.isInput)
    {events : List Event} (hevents : events = .attach i :: inputs ∨
      events = inputs ∧ s.pad = { keys := s.pad.keys } ∧ s.plugged = some i) :
    let o := applyAll dbg events s
    let now := o.state.pad
    o.result = .ok () ∧ now.inputs = (turnAll inputs s.pad).inputs ∧
      (∃ calls, Tells log i calls s o.state ∧ ∀ key,
        Toggles false (callsOf key calls) (decide (key ∈ now.pressedKeys))) ∧
      (∀ key, key ∈ now.pressedKeys ↔ (true, key) ∈ now.inputs) ∧
      ∀ e : Event, e.isInput →
        let p := apply dbg e o.state
        p.result = .ok () ∧ ∃ calls, Tells log i calls o.state p.state ∧ ∀ key, callsOf key calls =
          if decide (key ∈ p.state.pad.pressedKeys) = decide (key ∈ now.pressedKeys) then []
          else [decide (key ∈ p.state.pad.pressedKeys)] := by
  have hmirrored : Mirrored log i (fun _ => false) (turnAll inputs s.pad) s
      (applyAll dbg events s) := by
    rcases hevents with rfl | ⟨rfl, hpad, hplugged⟩
    · have hattach : Mirrored log i (fun _ => false) s.pad s (apply dbg (.attach i) s) :=
        mirrored_attach dbg hlog hkeys hi
      have hrest := mirrored_applyAll dbg hlog hattach.ready
        (by rw [hattach.settled]; rfl) hinputs
      rw [hattach.settled] at hrest
      exact hattach.andThen { hrest with
        settled := hrest.settled.trans (settled_turnAll inputs s.pad _) }
    · -- A controller that was just built holds nothing and its inputs are at rest.
      have hheld : s.pad.held = [] := by rw [hpad]
      have hpressed : s.pad.pressedKeys = [] := by rw [hpad]; rfl
      have hready : Ready i s := ⟨hplugged, hi, hkeys, hheld ▸ List.nodup_nil,
        fun key h => absurd (hheld ▸ h) List.not_mem_nil⟩
      have hrun := mirrored_applyAll dbg hlog hready (by rw [hpad]; rfl) hinputs
      simp only [hpressed, List.not_mem_nil, decide_false] at hrun
      exact hrun
  intro o now
  have hnow : now = (turnAll inputs s.pad).settled := hmirrored.settled
  refine ⟨hmirrored.ok, by rw [hnow]; rfl, hmirrored.told,
    fun key => Gamepad.mem_pressedKeys, fun e he => ?_⟩
  obtain ⟨hok, -, -, hcalls⟩ := tells_apply dbg hlog hmirrored.ready
    (by rw [hmirrored.settled]; rfl) he
  exact ⟨hok, hcalls⟩

/-- A controller whose button and upper direction stand for one key, both held, beside a keypad. -/
def sharedKey : GamepadStation RecordedKeypad :=
  ⟨{ keys := { up := 5 }, up := true, button := true }, [.start], none⟩

theorem mirrors_of_applyAll_sharedKey :
    let inputs : List Event := [.directions { up := some false }, .button false, .button true]
    let o := applyAll .off (.attach 0 :: inputs) sharedKey
    (sharedKey.pad.keys.OnKeypad ∧ 0 < sharedKey.sinks.length ∧ ∀ e ∈ inputs, e.isInput) ∧
      o.result = .ok () ∧ o.state.pad.pressedKeys = [5] ∧
      o.state.sinks.map RecordedKeypad.calls = [[(5, true), (5, false), (5, true)]] ∧
      ∃ calls, Tells RecordedKeypad.calls 0 calls sharedKey o.state ∧
        Toggles false (callsOf 5 calls) true := by
  intro inputs o
  have hkeys : sharedKey.pad.keys.OnKeypad := by decide
  have hi : 0 < sharedKey.sinks.length := by decide
  have hinputs : ∀ e ∈ inputs, e.isInput := by decide
  have hpressed : o.state.pad.pressedKeys = [5] := by decide
  obtain ⟨hok, -, ⟨calls, htells, htoggles⟩, -, -⟩ :=
    mirrors_of_applyAll .off RecordedKeypad.logs hkeys hi hinputs (.inl rfl)
  have hfive := htoggles 5
  rw [hpressed] at hfive
  exact ⟨⟨hkeys, hi, hinputs⟩, hok, hpressed, by decide, calls, htells, hfive⟩

end GamepadStation

end Chip8
