import Chip8.App.Run
import Chip8.Proofs.Debug.Machine

/-!
# Input of the application

The user interface tells the keyboard and the gamepad of what its host reports, and both of them
hold keys through one queue. All of this is inert: a line about an event is printed beside what the
event does. Whether the application records its steps is the one thing that the categories decide,
and it shows in the record alone (`App.untraced`).

`categories_inert` puts sessions, keyboards and applications side by side.
-/

namespace Chip8

open Debug (Printer Spoken)

namespace Ui

/-! ## Keys -/

theorem inert_setKey (index : Int) (pressed : Bool) : Action.Inert fun _ => setKey index pressed :=
  fun _ => .silent rfl

theorem inert_onKeyboard {α : Type} {a : Printer → Action (Keyboard × KeyQueue) α}
    (h : Action.Inert a) : Action.Inert fun dbg => onKeyboard (a dbg) := h.onPart

theorem inert_onGamepad {α : Type} {a : Printer → Action (Gamepad × KeyQueue) α}
    (h : Action.Inert a) : Action.Inert fun dbg => onGamepad (a dbg) := h.onPart

theorem inert_handleKey (key : Reading) (pressed : Bool) :
    Action.Inert (handleKey · key pressed) := by
  refine .bind (.say (.hostKey key pressed)) fun _ => ?_
  cases key with
  | text name =>
    refine .bind (inert_onKeyboard ?_) fun _ => .answer ()
    cases pressed with
    | true => exact Keyboard.inert_press KeyQueue.inert name
    | false => exact Keyboard.inert_release KeyQueue.inert name
  | _ => exact .fail _

/-! ## Game controllers -/

theorem inert_resetStickInputs : Action.Inert resetStickInputs :=
  .bind (.change _) fun _ => inert_onGamepad (Gamepad.inert_reset KeyQueue.inert)

theorem inert_updateGamepad : Action.Inert updateGamepad :=
  .bind .look fun u => .bind (.lift u.inputs.directions) fun d =>
    .bind (inert_onGamepad (Gamepad.inert_setDirections KeyQueue.inert d)) fun _ =>
      inert_onGamepad (Gamepad.inert_setButton KeyQueue.inert _)

theorem inert_takeStick (index : Nat) (info : StickInfo) :
    Action.Inert (takeStick · index info) :=
  .bind (.change _) fun _ => .bind inert_resetStickInputs fun _ =>
    .say (.stickAttached index info.name)

theorem inert_openStick (wanted : Reading) : Action.Inert (openStick · wanted) := by
  refine .bind .look fun u => ?_
  cases u.host.stickError with
  | some reason => exact .say (.sticksUnusable reason)
  | none =>
    cases u.host.sticks with
    | nil => exact .say (.plain "input" "joystick_none_available")
    | cons first rest =>
      refine .bind (.lift _) fun index => ?_
      generalize (first :: rest).getD index first = info
      cases h : info.error with
      | some reason => simpa only [h] using .say (.stickUnusable index reason)
      | none => simpa only [h] using inert_takeStick index info

theorem inert_detachStick : Action.Inert detachStick := by
  refine .bind .look fun u => ?_
  cases u.stick with
  | none => exact .answer ()
  | some stick =>
    exact .bind (.say (.stickDetached stick.instanceId)) fun _ =>
      .bind (.change _) fun _ => inert_resetStickInputs

theorem inert_applyStick (change : StickChange) : Action.Inert (applyStick · change) := by
  cases change with
  | removed => exact inert_detachStick
  | _ =>
    refine .bind .look fun u => .bind (.lift _) fun inputs => ?_
    cases inputs with
    | none => exact .answer ()
    | some inputs => exact .bind (.change _) fun _ => inert_updateGamepad

theorem inert_handleStick (event : HostEvent) : Action.Inert (handleStick · event) := by
  refine .bind .look fun u => ?_
  cases event with
  | stickAdded index =>
    simp only
    split
    · exact inert_openStick index
    · exact .answer ()
  | stick instanceId change =>
    simp only
    split
    · exact inert_applyStick change
    · exact .answer ()
  | _ => exact .answer ()

/-! ## Events -/

theorem inert_pushQuit : Action.Inert fun _ => pushQuit := .change _

theorem inert_handleEvent (event : HostEvent) : Action.Inert (handleEvent · event) := by
  cases event with
  | quit => exact inert_pushQuit
  | keyDown key =>
    refine .bind (.lift _) fun key => ?_
    split
    · exact inert_pushQuit
    · exact inert_handleKey key true
  | keyUp key => exact .bind (.lift _) fun key => inert_handleKey key false
  | _ =>
    refine .bind .look fun u => ?_
    split
    · exact inert_handleStick _
    · exact .answer ()

theorem inert_handleEvents : ∀ events : List HostEvent, Action.Inert (handleEvents · events)
  | [] => .answer ()
  | event :: events => .bind (inert_handleEvent event) fun _ => inert_handleEvents events

theorem inert_pump : Action.Inert pump :=
  .bind .look fun u => .bind (.change _) fun _ => inert_handleEvents u.host.takeEvents.1

theorem inert_poll : Action.Inert poll := by
  refine .bind .look fun u => ?_
  by_cases h : u.queue.events.isEmpty = true
  · simp only [h, if_true]
    exact .bind inert_pump fun _ => fun _ => .silent rfl
  · simp only [h]
    exact fun _ => .silent rfl

/-! ## Requests -/

/-- What can be asked of the input side of the user interface. -/
inductive Request where
  /-- A source holds a key or lets it go. -/
  | key (index : Int) (pressed : Bool)
  | press (name : String)
  | release (name : String)
  | keysUp
  | button (pressed : Bool)
  | directions (d : Directions)
  | padReset
  | hostKey (key : Reading) (pressed : Bool)
  | hostEvent (event : HostEvent)
  | openStick (wanted : Reading)
  | detachStick
  /-- Events come to wait at the host. -/
  | arrive (events : List HostEvent)
  | poll

def respond (dbg : Printer) : Request → Action Ui Answer
  | .key index pressed, u => (setKey index pressed u).map fun _ => .nothing
  | .press name, u => (onKeyboard (Keyboard.press dbg name) u).map .flag
  | .release name, u => (onKeyboard (Keyboard.release dbg name) u).map .flag
  | .keysUp, u => (onKeyboard (Keyboard.reset dbg) u).map fun _ => .nothing
  | .button pressed, u => (onGamepad (Gamepad.setButton dbg pressed) u).map fun _ => .nothing
  | .directions d, u => (onGamepad (Gamepad.setDirections dbg d) u).map fun _ => .nothing
  | .padReset, u => (onGamepad (Gamepad.reset dbg) u).map fun _ => .nothing
  | .hostKey key pressed, u => (handleKey dbg key pressed u).map fun _ => .nothing
  | .hostEvent event, u => (handleEvent dbg event u).map fun _ => .nothing
  | .openStick wanted, u => (openStick dbg wanted u).map fun _ => .nothing
  | .detachStick, u => (detachStick dbg u).map fun _ => .nothing
  | .arrive events, u => .done .nothing { u with host := u.host.addEvents events } []
  | .poll, u => (poll dbg u).map .input

theorem inert_respond (r : Request) : Action.Inert (respond · r) := by
  have hq : KeySink.Inert KeyQueue := KeyQueue.inert
  intro u
  cases r with
  | key index pressed => exact (inert_setKey index pressed u).map _
  | press name => exact (inert_onKeyboard (Keyboard.inert_press hq name) u).map _
  | release name => exact (inert_onKeyboard (Keyboard.inert_release hq name) u).map _
  | keysUp => exact (inert_onKeyboard (Keyboard.inert_reset hq) u).map _
  | button pressed => exact (inert_onGamepad (Gamepad.inert_setButton hq pressed) u).map _
  | directions d => exact (inert_onGamepad (Gamepad.inert_setDirections hq d) u).map _
  | padReset => exact (inert_onGamepad (Gamepad.inert_reset hq) u).map _
  | hostKey key pressed => exact (inert_handleKey key pressed u).map _
  | hostEvent event => exact (inert_handleEvent event u).map _
  | openStick wanted => exact (inert_openStick wanted u).map _
  | detachStick => exact (inert_detachStick u).map _
  | arrive events => exact .done _ _
  | poll => exact (inert_poll u).map _

end Ui

/-! ## The application -/

namespace App

/-- The application but for the record of its steps. -/
def untraced (app : App) : App := { app with trace := none }

def respond (dbg : Printer) (r : Ui.Request) : Action App Answer := onUi (Ui.respond dbg r)

theorem inert_respond (r : Ui.Request) : Action.Inert (respond · r) := by
  unfold respond onUi
  exact (Ui.inert_respond r).onPart

/-- What a new application answers to requests in turn, and its state after each of them but for the
record of steps. -/
def inputs (dbg : Printer) (config : AppConfig) (host : Host) (requests : List Ui.Request) :
    Except Error (List (Except Error Answer × App)) :=
  (create dbg config host).map fun app =>
    (Action.history (respond dbg) requests app).map fun (result, app) => (result, app.untraced)

/-- Input does not look at the record, and leaves it alone. -/
theorem untraced_history (dbg : Printer) (requests : List Ui.Request) (app : App) :
    (Action.history (respond dbg) requests app).map (fun (result, app) => (result, app.untraced)) =
      Action.history (respond dbg) requests app.untraced := by
  induction requests generalizing app with
  | nil => rfl
  | cons r requests ih =>
    simp only [Action.history, List.map_cons, ih]
    rfl

theorem inputs_eq_create (dbg : Printer) (config : AppConfig) (host : Host)
    (requests : List Ui.Request) :
    inputs dbg config host requests =
      (Ui.create config host).map fun ui =>
        Action.history (respond dbg) requests ⟨ui, none, none⟩ := by
  unfold inputs create
  cases Ui.create config host with
  | error e => rfl
  | ok ui => exact congrArg Except.ok (untraced_history dbg requests _)

end App

end Chip8
