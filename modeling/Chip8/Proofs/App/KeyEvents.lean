import Chip8.Proofs.App.HostErrors
import Chip8.Proofs.App.KeyQueue
import Chip8.Proofs.Debug.App
import Chip8.Proofs.Input.Sources

/-!
# Key events of the user interface

The events that are added to the queue of the user interface tell of the holds of keys: those of a
key go back and forth between where it was and where it is (`KeyQueue.Tell`). Every action of the
interface adds such events at most (`Ui.Reaches`), and polling then takes the first event that waits
(`Ui.behind_poll`), so that along requests in turn the events delivered and those that wait are the
ones that were added (`Ui.told_runAll`).

* `Ui.toggles_of_runAll`: hence what the events queued so far tell of every key, in which order they
  are delivered, and that no frame with this interface ever refuses a key.
-/

namespace Chip8

open Debug (Printer)

/-! ## Queues -/

namespace KeyQueue

/-- The changes of keys among events. -/
def changes (events : List InputEvent) : List (Int × Bool) :=
  events.filterMap fun
    | .key index pressed => some (index, pressed)
    | .quit => none

theorem changes_append (events more : List InputEvent) :
    changes (events ++ more) = changes events ++ changes more :=
  List.filterMap_append

/-- What the events tell of the keys from one queue to another: those of a key go back and forth,
away from whether it was held at first, and end at whether it is. They carry keys of the keypad, and
no key is held less than never. -/
structure Tell (added : List InputEvent) (q q' : KeyQueue) : Prop where
  onKeypad : ∀ c ∈ changes added, 0 ≤ c.1 ∧ c.1 < 16
  nonneg : (∀ key, 0 ≤ q.count key) → ∀ key, 0 ≤ q'.count key
  toggles : ∀ key : Key, Toggles (decide (0 < q.count key)) (callsOf key.val (changes added))
    (decide (0 < q'.count key))

/-- One queue has come from the other by changes of holds, and events that tell of them were
added. -/
def Grows (q q' : KeyQueue) : Prop := ∃ added, Tell added q q' ∧ q'.events = q.events ++ added

variable {q q' r : KeyQueue} {added more : List InputEvent}

theorem Tell.trans (h : Tell added q q') (h' : Tell more q' r) : Tell (added ++ more) q r where
  onKeypad c hc := by
    rw [changes_append, List.mem_append] at hc
    exact hc.elim (h.onKeypad c) (h'.onKeypad c)
  nonneg hq := h'.nonneg (h.nonneg hq)
  toggles key := by
    rw [changes_append, callsOf_append]
    exact (h.toggles key).append (h'.toggles key)

theorem tell_nothing (q : KeyQueue) : Tell [] q q := ⟨List.forall_mem_nil _, id, fun _ => rfl⟩

theorem Grows.refl (q : KeyQueue) : q.Grows q := ⟨[], tell_nothing q, (List.append_nil _).symm⟩

theorem Grows.trans (h : q.Grows q') (h' : q'.Grows r) : q.Grows r := by
  obtain ⟨added, htell, hevents⟩ := h
  obtain ⟨more, htell', hevents'⟩ := h'
  exact ⟨added ++ more, htell.trans htell', by rw [hevents', hevents, List.append_assoc]⟩

theorem grows_quit (q : KeyQueue) : q.Grows (q.push .quit) :=
  ⟨[.quit], ⟨List.forall_mem_nil _, id, fun _ => rfl⟩, rfl⟩

theorem count_pop (q : KeyQueue) (key : Key) : q.pop.2.count key = q.count key := by
  unfold pop
  split <;> rfl

/-- The event that is taken is the first of those that wait. -/
theorem events_pop (q : KeyQueue) : q.pop.1.toList ++ q.pop.2.events = q.events := by
  unfold pop
  split
  · rename_i h
    rw [h]
    rfl
  · rename_i h
    rw [h]
    rfl

theorem Tell.pop (h : Tell added q q') : Tell added q q'.pop.2 where
  onKeypad := h.onKeypad
  nonneg hq key := count_pop q' key ▸ h.nonneg hq key
  toggles key := count_pop q' key ▸ h.toggles key

/-- The holds of one key change, and an event tells of it if the key goes down or up thereby. -/
theorem grows_of_change (key : Key) {n : Int}
    (hcount : ∀ other, q'.count other = if key = other then n else q.count other)
    (hn : 0 ≤ q.count key → 0 ≤ n) {old new : Bool} (hold : old = decide (0 < q.count key))
    (hnew : new = decide (0 < n))
    (hevents : q'.events = q.events ++ if new = old then [] else [.key key.val new]) :
    q.Grows q' := by
  refine ⟨_, ⟨?_, fun hq other => ?_, fun other => ?_⟩, hevents⟩
  · split
    · exact List.forall_mem_nil _
    · exact List.forall_mem_singleton.mpr (Keypad.bounds_val key)
  · rw [hcount]
    split
    · exact hn (hq key)
    · exact hq other
  · rw [hcount]
    by_cases heq : key = other
    · subst heq
      rw [if_pos rfl, ← hold, ← hnew]
      have hcalls : callsOf key.val (changes (if new = old then [] else [.key key.val new])) =
          if new = old then [] else [new] := by
        split <;> simp [changes, callsOf]
      rw [hcalls]
      exact toggles_step old new
    · have hval : ¬ (key.val : Int) = other.val := fun h => heq (Fin.ext (by omega))
      have hcalls : callsOf other.val (changes (if new = old then [] else [.key key.val new])) =
          [] := by
        split <;> simp [changes, callsOf, hval]
      rw [hcalls, if_neg heq]
      rfl

theorem grows_hold (q : KeyQueue) (key : Key) : q.Grows (q.hold key key.val) := by
  refine grows_of_change key (count_hold q key · _) (fun h => by omega) rfl rfl ?_
  unfold hold
  by_cases hzero : q.count key = 0
  · simp [hzero, push, put]
  · have hsame : 0 < q.count key + 1 ↔ 0 < q.count key := by omega
    simp [hzero, put, hsame]

theorem grows_letGo (q : KeyQueue) (key : Key) : q.Grows (q.letGo key key.val) := by
  by_cases hpos : 0 < q.count key
  · refine grows_of_change key (n := q.count key - 1) (fun other => ?_) (fun _ => by omega) rfl
      rfl ?_
    · simpa [hpos] using count_letGo q key other key.val
    · unfold letGo
      by_cases hone : q.count key = 1
      · simp [hone, push, put]
      · have hmore : 1 < q.count key := by omega
        simp [hone, hpos, put, hmore]
  · have hsame : q.letGo key key.val = q := if_neg hpos
    rw [hsame]
    exact .refl q

/-- A queue grows by every key of the keypad. -/
theorem accepts (dbg : Printer) (q : KeyQueue) : KeySink.Accepts dbg q.Grows := by
  intro index pressed r hindex h
  obtain ⟨key, rfl⟩ : ∃ key : Key, index = key.val := ⟨⟨index.toNat, by omega⟩, by simp [hindex.1]⟩
  rw [setKey_val]
  refine .done (h.trans ?_)
  cases pressed with
  | true => exact grows_hold r key
  | false => exact grows_letGo r key

end KeyQueue

/-! ## The user interface -/

namespace Ui

/-- The gamepad tells of keys of the keypad only, and the queue has come from `q`. -/
structure Reaches (q : KeyQueue) (u : Ui) : Prop where
  inRange : u.gamepad.InRange
  grows : q.Grows u.queue

variable (dbg : Printer) {q : KeyQueue} {α : Type}

theorem takes_setKey {index : Int} (hindex : 0 ≤ index ∧ index < 16) (pressed : Bool) :
    (setKey index pressed).Takes (Reaches q) := fun u h =>
  (KeyQueue.accepts .off q index pressed u.queue hindex h.grows).mapState (R := Reaches q)
    (f := fun queue => { u with queue }) fun _ hq => ⟨h.inRange, hq⟩

theorem takes_onKeyboard {a : Action (Keyboard × KeyQueue) α} (ha : a.Takes (q.Grows ·.2)) :
    (onKeyboard a).Takes (Reaches q) :=
  ha.onPart (fun _ h => h.grows) fun _ _ h hq => ⟨h.inRange, hq⟩

theorem takes_onGamepad {a : Action (Gamepad × KeyQueue) α}
    (ha : a.Takes fun s => s.1.InRange ∧ q.Grows s.2) : (onGamepad a).Takes (Reaches q) :=
  ha.onPart (fun _ h => ⟨h.inRange, h.grows⟩) fun _ _ _ h => ⟨h.1, h.2⟩

theorem takes_pushQuit : pushQuit.Takes (Reaches q) :=
  .change fun _ h => ⟨h.inRange, h.grows.trans (KeyQueue.grows_quit _)⟩

theorem takes_handleKey (key : Reading) (pressed : Bool) :
    (handleKey dbg key pressed).Takes (Reaches q) := by
  have hq := KeyQueue.accepts dbg q
  refine .bind (.say (.hostKey key pressed) dbg) fun _ => ?_
  cases key with
  | text name =>
    refine .bind (takes_onKeyboard ?_) fun _ => .answer ()
    cases pressed with
    | true => exact Keyboard.takes_press hq name
    | false => exact Keyboard.takes_release hq name
  | _ => exact .fail nofun

/-! ### Game controllers -/

theorem takes_resetStickInputs : (resetStickInputs dbg).Takes (Reaches q) :=
  .bind (.change fun _ h => ⟨h.inRange, h.grows⟩) fun _ =>
    takes_onGamepad (Gamepad.takes_reset (KeyQueue.accepts dbg q))

theorem takes_updateGamepad : (updateGamepad dbg).Takes (Reaches q) :=
  have hq := KeyQueue.accepts dbg q
  .bind .look fun u => .bind (.lift u.inputs.takesKeys_directions) fun d =>
    .bind (takes_onGamepad (Gamepad.takes_setDirections hq d)) fun _ =>
      takes_onGamepad (Gamepad.takes_setButton hq _)

theorem takes_takeStick (index : Nat) (info : StickInfo) :
    (takeStick dbg index info).Takes (Reaches q) :=
  .bind (.change fun _ h => ⟨h.inRange, h.grows⟩) fun _ =>
    .bind (takes_resetStickInputs dbg) fun _ => .say (.stickAttached index info.name) dbg

theorem takes_openStick (wanted : Reading) : (openStick dbg wanted).Takes (Reaches q) := by
  refine .bind .look fun u => ?_
  split
  · exact .say (.sticksUnusable _) dbg
  · exact .say (.plain "input" "joystick_none_available") dbg
  · refine .bind (.lift (u.takesKeys_stickToOpen wanted)) fun index => ?_
    simp only
    split
    · exact .say (.stickUnusable index _) dbg
    · exact takes_takeStick dbg index _

theorem takes_detachStick : (detachStick dbg).Takes (Reaches q) := by
  refine .bind .look fun u => ?_
  split
  · exact .answer ()
  · exact .bind (.say (.stickDetached _) dbg) fun _ =>
      .bind (.change fun _ h => ⟨h.inRange, h.grows⟩) fun _ => takes_resetStickInputs dbg

theorem takes_applyStick (change : StickChange) :
    (applyStick dbg change).Takes (Reaches q) := by
  cases change with
  | removed => exact takes_detachStick dbg
  | _ =>
    refine .bind .look fun u => .bind (.lift (u.inputs.takesKeys_apply _)) fun inputs => ?_
    split
    · exact .answer ()
    · exact .bind (.change fun _ h => ⟨h.inRange, h.grows⟩) fun _ => takes_updateGamepad dbg

theorem takes_handleStick (event : HostEvent) : (handleStick dbg event).Takes (Reaches q) := by
  refine .bind .look fun u => ?_
  split
  · split
    · exact takes_openStick dbg _
    · exact .answer ()
  · split
    · exact takes_applyStick dbg _
    · exact .answer ()
  · exact .answer ()

/-! ### Events of the host -/

theorem takes_handleEvent (event : HostEvent) : (handleEvent dbg event).Takes (Reaches q) := by
  cases event with
  | quit => exact takes_pushQuit
  | keyDown key =>
    refine .bind (.lift (Reading.takesKeys_need "key" key)) fun key => ?_
    split
    · exact takes_pushQuit
    · exact takes_handleKey dbg key true
  | keyUp key =>
    exact .bind (.lift (Reading.takesKeys_need "key" key)) fun key => takes_handleKey dbg key false
  | _ =>
    refine .bind .look fun u => ?_
    split
    · exact takes_handleStick dbg _
    · exact .answer ()

theorem takes_pump : (pump dbg).Takes (Reaches q) := by
  have hevents (events : List HostEvent) : (handleEvents dbg events).Takes (Reaches q) := by
    induction events with
    | nil => exact .answer ()
    | cons event events ih => exact .bind (takes_handleEvent dbg event) fun _ => ih
  exact .bind .look fun u => .bind (.change fun _ h => ⟨h.inRange, h.grows⟩) fun _ => hevents _

/-! ## Requests -/

/-- A key that is held or let go directly is a key of the keypad. -/
def Request.OnKeypad : Request → Prop
  | .key index _ => 0 ≤ index ∧ index < 16
  | _ => True

/-- The event that an answer delivers. -/
def delivered : Except Error Answer → List InputEvent
  | .ok (.input (some event)) => [event]
  | _ => []

theorem delivered_input (event : Option InputEvent) :
    delivered (.ok (.input event)) = event.toList := by
  cases event <;> rfl

/-- What a request leaves behind: holds of keys may have changed, the events that tell of it have
come to wait, and the first event that waited may have been delivered. -/
structure Behind (u : Ui) (o : Outcome Ui Answer) : Prop where
  takes : TakesKeys o.result
  inRange : o.state.gamepad.InRange
  told : ∃ added, KeyQueue.Tell added u.queue o.state.queue ∧
    u.queue.events ++ added = delivered o.result ++ o.state.queue.events

variable {u : Ui}

theorem Behind.of_takes {o : Outcome Ui α} (ho : o.Takes (Reaches u.queue)) {f : α → Answer}
    (hf : ∀ a, delivered (.ok (f a)) = []) : Behind u (o.map f) := by
  obtain ⟨added, htell, hevents⟩ := ho.keeps.grows
  have hnone : delivered (o.map f).result = [] := by
    cases h : o.result with
    | error e => simp only [Outcome.map, h, Except.map, delivered]
    | ok a => simp only [Outcome.map, h, Except.map, hf]
  exact ⟨ho.takes.map f, ho.keeps.inRange, added, htell, by rw [hnone]; exact hevents.symm⟩

/-- Polling asks the host if nothing waits, and then takes the first event that waits. -/
theorem poll_eq (u : Ui) : poll dbg u =
    ((if u.queue.events.isEmpty then pump dbg else pure ()).run u).andThen fun _ v =>
      .done v.queue.pop.1 { v with queue := v.queue.pop.2 } [] := by
  let take : Action Ui (Option InputEvent) := modifyGet fun u =>
    (u.queue.pop.1, { u with queue := u.queue.pop.2 })
  have hpoll : poll dbg u =
      (if u.queue.events.isEmpty then pump dbg >>= fun _ => take else take).run u := rfl
  rw [hpoll]
  split <;> rfl

theorem behind_poll (hu : u.gamepad.InRange) : Behind u ((poll dbg u).map .input) := by
  have hfirst : ((if u.queue.events.isEmpty then pump dbg else pure ()).run u).Takes
      (Reaches u.queue) := by
    split
    · exact takes_pump dbg u ⟨hu, .refl _⟩
    · exact .done ⟨hu, .refl _⟩
  rw [poll_eq]
  generalize (if u.queue.events.isEmpty then pump dbg else pure ()).run u = o at hfirst
  obtain ⟨added, htell, hevents⟩ := hfirst.keeps.grows
  cases hr : o.result with
  | error e =>
    rw [Outcome.andThen_of_error hr]
    exact ⟨hfirst.takes.of_error hr, hfirst.keeps.inRange, added, htell, hevents.symm⟩
  | ok _ =>
    rw [Outcome.andThen_of_ok hr]
    refine ⟨.ok, hfirst.keeps.inRange, added, htell.pop, hevents.symm.trans ?_⟩
    exact (KeyQueue.events_pop _).symm.trans (congrArg (· ++ _) (delivered_input _).symm)

theorem behind_respond (hu : u.gamepad.InRange) {r : Request} (hr : r.OnKeypad) :
    Behind u (respond dbg r u) := by
  have hq := KeyQueue.accepts dbg u.queue
  have h : Reaches u.queue u := ⟨hu, .refl _⟩
  cases r with
  | key index pressed => exact .of_takes (takes_setKey hr pressed u h) fun _ => rfl
  | press name => exact .of_takes (takes_onKeyboard (Keyboard.takes_press hq name) u h) fun _ => rfl
  | release name =>
    exact .of_takes (takes_onKeyboard (Keyboard.takes_release hq name) u h) fun _ => rfl
  | keysUp => exact .of_takes (takes_onKeyboard (Keyboard.takes_reset hq) u h) fun _ => rfl
  | button pressed =>
    exact .of_takes (takes_onGamepad (Gamepad.takes_setButton hq pressed) u h) fun _ => rfl
  | directions d =>
    exact .of_takes (takes_onGamepad (Gamepad.takes_setDirections hq d) u h) fun _ => rfl
  | padReset => exact .of_takes (takes_onGamepad (Gamepad.takes_reset hq) u h) fun _ => rfl
  | hostKey key pressed => exact .of_takes (takes_handleKey dbg key pressed u h) fun _ => rfl
  | hostEvent event => exact .of_takes (takes_handleEvent dbg event u h) fun _ => rfl
  | openStick wanted => exact .of_takes (takes_openStick dbg wanted u h) fun _ => rfl
  | detachStick => exact .of_takes (takes_detachStick dbg u h) fun _ => rfl
  | arrive events => exact ⟨.ok, hu, [], KeyQueue.tell_nothing _, List.append_nil _⟩
  | poll => exact behind_poll dbg hu

/-! ## Histories -/

/-- The events that requests in turn deliver. -/
def polled (requests : List Request) (u : Ui) : List InputEvent :=
  (Action.history (respond dbg) requests u).flatMap fun answer => delivered answer.1

theorem polled_append (requests more : List Request) (u : Ui) :
    polled dbg (requests ++ more) u =
      polled dbg requests u ++ polled dbg more (Action.runAll (respond dbg) requests u) := by
  rw [polled, Action.history_append, List.flatMap_append]
  rfl

/-- Along requests in turn the events that were delivered and those that wait are the ones that
waited at first and those that tell of the changes of holds since. -/
theorem told_runAll (hu : u.gamepad.InRange) {requests : List Request}
    (hr : ∀ r ∈ requests, r.OnKeypad) :
    let t := Action.runAll (respond dbg) requests u
    t.gamepad.InRange ∧ ∃ added, KeyQueue.Tell added u.queue t.queue ∧
      u.queue.events ++ added = polled dbg requests u ++ t.queue.events := by
  induction requests generalizing u with
  | nil => exact ⟨hu, [], KeyQueue.tell_nothing _, List.append_nil _⟩
  | cons r requests ih =>
    obtain ⟨hfirst, hrest⟩ := List.forall_mem_cons.mp hr
    obtain ⟨-, hnext, added, htell, hevents⟩ := behind_respond dbg hu hfirst
    obtain ⟨hlast, more, htell', hevents'⟩ := ih hnext hrest
    refine ⟨hlast, added ++ more, htell.trans htell', ?_⟩
    calc u.queue.events ++ (added ++ more)
        = (u.queue.events ++ added) ++ more := (List.append_assoc _ _ _).symm
      _ = delivered (respond dbg r u).result ++
            ((respond dbg r u).state.queue.events ++ more) := by
          rw [hevents, List.append_assoc]
      _ = delivered (respond dbg r u).result ++ (polled dbg requests (respond dbg r u).state ++
            (Action.runAll (respond dbg) requests (respond dbg r u).state).queue.events) := by
          rw [hevents']
      _ = _ := (List.append_assoc _ _ _).symm

/-! ## Frames -/

/-- The interface has keys of the keypad only to tell of. -/
structure Orderly (u : Ui) : Prop where
  inRange : u.gamepad.InRange
  waiting : ∀ c ∈ KeyQueue.changes u.queue.events, 0 ≤ c.1 ∧ c.1 < 16

theorem Behind.onKeypad {o : Outcome Ui Answer} (h : Behind u o) (hu : Orderly u) :
    ∀ c ∈ KeyQueue.changes (delivered o.result ++ o.state.queue.events), 0 ≤ c.1 ∧ c.1 < 16 := by
  obtain ⟨added, htell, hevents⟩ := h.told
  rw [← hevents, KeyQueue.changes_append, List.forall_mem_append]
  exact ⟨hu.waiting, htell.onKeypad⟩

theorem Behind.orderly {o : Outcome Ui Answer} (h : Behind u o) (hu : Orderly u) :
    Orderly o.state := by
  have hall := h.onKeypad hu
  rw [KeyQueue.changes_append, List.forall_mem_append] at hall
  exact ⟨h.inRange, hall.2⟩

theorem takes_onHost {f : Host → Except Error Unit × Host} (hf : ∀ h, TakesKeys (f h).1) :
    (onHost f).Takes Orderly :=
  fun u h => ⟨hf u.host, h.inRange, h.waiting⟩

theorem takes_present (image : Image) : (present image).Takes Orderly := by
  have hcalls : (do onHost (·.makeSurface image); onHost Host.blit; onHost Host.flip :
      Action Ui Unit).Takes Orderly :=
    (takes_onHost fun _ => Host.takesKeys_callUnless _ _ _).bind fun _ =>
      (takes_onHost fun _ => Host.takesKeys_callUnless _ _ _).bind fun _ =>
        takes_onHost fun _ => Host.takesKeys_callUnless _ _ _
  refine .bind .look fun u => ?_
  split
  · exact .bind (.fail (by simp)) fun _ => hcalls
  · exact hcalls

theorem takes_draw (grid : Grid) : (draw grid).Takes Orderly := by
  intro u h
  have hnoted : Orderly { u with lastFrame := some grid } := ⟨h.inRange, h.waiting⟩
  simp only [Action.run, draw]
  split
  · exact .done h
  · cases hr : Image.render u.host.room u.palette grid u.config.scale with
    | error e => exact ⟨(Image.takesKeys_render _ _ _ _).of_error hr, hnoted⟩
    | ok image => exact takes_present image _ hnoted

theorem takes_setTone (on : Bool) : (setTone on).Takes Orderly := by
  intro u h
  simp only [Action.run, setTone]
  split
  · exact .done h
  · exact ⟨Beeper.takesKeys_setState on _ _, h.inRange, h.waiting⟩

theorem orderly : Frontend.Orderly dbg Orderly where
  draw := takes_draw
  setTone := takes_setTone
  poll u hu := by
    have h := behind_poll dbg hu.inRange
    exact ⟨h.takes.of_map, h.orderly hu⟩
  onKeypad {u index pressed} hu hpoll := by
    have h := (behind_poll dbg hu.inRange).onKeypad hu
    have hresult : ((poll dbg u).map Answer.input).result =
        .ok (.input (some (.key index pressed))) := congrArg (Except.map Answer.input) hpoll
    rw [hresult] at h
    exact h (index, pressed) List.mem_cons_self

/-- The interface changes by a request, or in a way that has nothing to do with keys. -/
def MayBecome (f : Ui → Ui) : Prop :=
  (∃ r : Request, r.OnKeypad ∧ f = fun u => (respond dbg r u).state) ∨
    ∀ u, (f u).gamepad = u.gamepad ∧ (f u).queue = u.queue

theorem MayBecome.orderly {f : Ui → Ui} (h : MayBecome dbg f) (hu : Orderly u) :
    Orderly (f u) := by
  obtain ⟨r, hr, rfl⟩ | hsame := h
  · exact (behind_respond dbg hu.inRange hr).orderly hu
  · obtain ⟨hgamepad, hqueue⟩ := hsame u
    exact ⟨hgamepad ▸ hu.inRange, hqueue ▸ hu.waiting⟩

/-- No input has come yet. -/
structure Fresh (u : Ui) : Prop where
  queue : u.queue = .start
  gamepad : u.gamepad = { keys := {} }

theorem fresh_of_create {config : AppConfig} {host : Host} (h : create config host = .ok u) :
    Fresh u := by
  unfold create at h
  split at h
  · cases h
  · cases h
    exact ⟨rfl, rfl⟩

/-- Keys are held and let go directly, by the keyboard and by the gamepad, host and game controllers
report what they like, and input is polled in between. For every key the events that were queued so
far, those that were delivered and those that wait, go back and forth, a press first, and end at
whether the key is held; no key is held less than never. The events carry keys of the keypad, and
they are delivered in the order in which they were queued, each once. So whatever happens to a
session with this interface, no frame of it ever refuses a key. -/
theorem toggles_of_runAll (hu : Fresh u) {requests : List Request}
    (hr : ∀ r ∈ requests, r.OnKeypad) :
    let t := Action.runAll (respond dbg) requests u
    let queued := polled dbg requests u ++ t.queue.events
    (∀ key : Key, Toggles false (callsOf key.val (KeyQueue.changes queued))
      (decide (0 < t.queue.count key))) ∧
      (∀ key : Key, 0 ≤ t.queue.count key) ∧
      (∀ c ∈ KeyQueue.changes queued, 0 ≤ c.1 ∧ c.1 < 16) ∧
      (∀ before later, requests = before ++ later →
        polled dbg before u ++ (Action.runAll (respond dbg) before u).queue.events <+: queued) ∧
      ∀ (machine : Machine) (attached : Bool) (events : List (Session.Event Ui)),
        (∀ f, .change f ∈ events → MayBecome dbg f) →
          let s := Session.run dbg events ⟨machine, t, attached⟩
          TakesKeys (Session.runFrame dbg s).result := by
  have hinRange : u.gamepad.InRange := by
    rw [hu.gamepad]
    exact ⟨by decide, List.forall_mem_nil _⟩
  have hstart : u.queue.events = [] := by rw [hu.queue]; rfl
  obtain ⟨hlast, added, htell, hevents⟩ := told_runAll dbg hinRange hr
  rw [hstart, List.nil_append] at hevents
  intro t queued
  subst hevents
  have hzero (key : Key) : u.queue.count key = 0 := by
    rw [hu.queue]
    simp [KeyQueue.start, KeyQueue.count]
  refine ⟨fun key => ?_, htell.nonneg fun key => (hzero key).ge, htell.onKeypad, ?_, ?_⟩
  · have htoggles := htell.toggles key
    rw [hzero] at htoggles
    exact htoggles
  · rintro before later rfl
    have hm := told_runAll dbg hinRange fun r h => hr r (List.mem_append_left later h)
    obtain ⟨-, more, -, hmore⟩ :=
      told_runAll dbg hm.1 fun r h => hr r (List.mem_append_right before h)
    refine ⟨more, ?_⟩
    show _ = polled dbg (before ++ later) u ++
      (Action.runAll (respond dbg) (before ++ later) u).queue.events
    rw [polled_append, Action.runAll_append, List.append_assoc, List.append_assoc, hmore]
  · intro machine attached events hchange
    refine Session.takesKeys_of_run (orderly dbg) (fun f hf v => (hchange f hf).orderly dbg) ?_
    have hqueued := htell.onKeypad
    rw [KeyQueue.changes_append, List.forall_mem_append] at hqueued
    exact ⟨hlast, hqueued.2⟩

/-- Keyboard and gamepad share a key, one release too many takes it from the gamepad, and a key is
let go that is not held. -/
theorem toggles_of_runAll_sharedKey :
    ∃ u, create {} .absent = .ok u ∧
      let requests : List Request := [.press "w", .button true, .poll, .release "w", .release "W",
        .button false, .key 3 false, .key 3 true, .poll, .hostEvent .quit, .press "q", .poll]
      let t := Action.runAll (respond .off) requests u
      let queued := polled .off requests u ++ t.queue.events
      (Fresh u ∧ ∀ r ∈ requests, r.OnKeypad) ∧
        polled .off requests u = [.key 5 true, .key 5 false, .key 3 true] ∧
        t.queue.events = [.quit, .key 4 true] ∧
        Toggles false (callsOf 5 (KeyQueue.changes queued)) (decide (0 < t.queue.count 5)) ∧
        ∀ machine : Machine,
          let s := Session.run .off [.frame, .change (Ui.call .flip), .step] ⟨machine, t, true⟩
          TakesKeys (Session.runFrame .off s).result := by
  have hu : create {} .absent = .ok _ := rfl
  refine ⟨_, hu, ?_⟩
  intro requests
  have hfresh := fresh_of_create hu
  have hr : ∀ r ∈ requests, r.OnKeypad := by simp [requests, Request.OnKeypad]
  obtain ⟨htoggles, -, -, -, hframes⟩ := toggles_of_runAll .off hfresh hr
  dsimp only at htoggles hframes ⊢
  refine ⟨⟨hfresh, hr⟩, by decide +kernel, by decide +kernel, htoggles 5, fun machine => ?_⟩
  refine hframes machine true _ fun f hf => .inr fun u => ?_
  simp only [List.mem_cons, reduceCtorEq, Session.Event.change.injEq, List.not_mem_nil, or_false,
    false_or] at hf
  subst hf
  exact ⟨rfl, rfl⟩

end Ui

end Chip8
