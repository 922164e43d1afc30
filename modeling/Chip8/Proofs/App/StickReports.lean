import Chip8.Proofs.App.KeyHolds
import Chip8.Proofs.Debug.Inert

/-!
# Reports of a game controller

Game controllers come and go and report what is done to them, in any order. Only one of them counts
at a time: the first that can be opened while none is open. `StickEvent.attached` follows which one
that is and what it has reported since. The inputs of the user interface show the last of these
reports (`StickInputs.Shows`), the gamepad is steered by the inputs (`Gamepad.Steered`), and both
stay so behind every event (`Ui.Tracks`, `Ui.tracks_happen`).

* `Ui.pressedKeys_of_runAll`: hence the keys that the gamepad holds behind any events are those that
  the last reports of the open controller hold, and there are none if no controller is open.
-/

namespace Chip8

open Debug (Printer)
open Number (Scalar)

/-! ## Reports -/

/-- What a game controller reports of its axes, its hat and its buttons. -/
inductive StickReport where
  | axis (number : Int) (value : Scalar)
  | hat (x y : Scalar)
  | buttonDown (number : Int)
  | buttonUp (number : Int)

namespace StickReport

def change : StickReport → StickChange
  | axis number value => .axis (some (.whole number)) (some (.number value))
  | hat x y => .hat (some (.list [.number x, .number y]))
  | buttonDown number => .buttonDown (some (.whole number))
  | buttonUp number => .buttonUp (some (.whole number))

def axis? (number : Int) : StickReport → Option Scalar
  | axis n value => if n = number then some value else none
  | _ => none

def hat? : StickReport → Option (Scalar × Scalar)
  | hat x y => some (x, y)
  | _ => none

def isDown? (number : Int) : StickReport → Option Bool
  | buttonDown n => if n = number then some true else none
  | buttonUp n => if n = number then some false else none
  | _ => none

/-- What was reported last, or what is neutral. -/
def latest {α : Type} (part : StickReport → Option α) (neutral : α)
    (reports : List StickReport) : α :=
  (reports.filterMap part).getLast?.getD neutral

def axisOf (number : Int) (reports : List StickReport) : Scalar :=
  latest (axis? number) (.whole 0) reports

def hatOf (reports : List StickReport) : Scalar × Scalar := latest hat? (.whole 0, .whole 0) reports

def IsDown (number : Int) (reports : List StickReport) : Prop :=
  latest (isDown? number) false reports = true

/-- The keys that reports hold: those of the directions that an axis or the hat points to, and that
of the button while any button is down. -/
def Holds (reports : List StickReport) (key : Int) : Prop :=
  let x := axisOf 0 reports
  let y := axisOf 1 reports
  let hat := hatOf reports
  key = 2 ∧ (y.isBelow (-mkRat 1 2) = true ∨ hat.2.isAbove 0 = true) ∨
  key = 8 ∧ (y.isAbove (mkRat 1 2) = true ∨ hat.2.isBelow 0 = true) ∨
  key = 4 ∧ (x.isBelow (-mkRat 1 2) = true ∨ hat.1.isBelow 0 = true) ∨
  key = 6 ∧ (x.isAbove (mkRat 1 2) = true ∨ hat.1.isAbove 0 = true) ∨
  key = 5 ∧ ∃ number, IsDown number reports

variable {reports : List StickReport} {r : StickReport} {number : Int}

/-- One more report replaces what it speaks of. -/
theorem latest_append {α : Type} (part : StickReport → Option α) (neutral : α) :
    latest part neutral (reports ++ [r]) = (part r).getD (latest part neutral reports) := by
  rw [latest, List.filterMap_append]
  cases hr : part r with
  | none => simp [hr, latest]
  | some value => simp [hr]

@[simp] theorem axisOf_append :
    axisOf number (reports ++ [r]) = (axis? number r).getD (axisOf number reports) :=
  latest_append _ _

@[simp] theorem hatOf_append : hatOf (reports ++ [r]) = (hat? r).getD (hatOf reports) :=
  latest_append _ _

@[simp] theorem isDown_append : IsDown number (reports ++ [r]) ↔
    (isDown? number r).elim (IsDown number reports) (· = true) := by
  rw [IsDown, latest_append]
  cases isDown? number r <;> rfl

/-- Neutral inputs hold no key. -/
theorem not_holds_nil (key : Int) : ¬ Holds [] key := by
  rintro (⟨-, h | h⟩ | ⟨-, h | h⟩ | ⟨-, h | h⟩ | ⟨-, h | h⟩ | ⟨-, number, h⟩)
  case inr.inr.inr.inr => exact absurd h Bool.false_ne_true
  all_goals exact absurd h (by decide +kernel)

end StickReport

open StickReport (axis? axisOf hat? hatOf isDown? IsDown Holds)

/-! ## Events -/

/-- What happens to the game controllers of a host. -/
inductive StickEvent where
  /-- A controller was plugged in, at a host that has these controllers or cannot use any. -/
  | added (index : Option Int) (failure : Option String) (sticks : List StickInfo)
  | removed (instanceId : Reading)
  | reported (instanceId : Reading) (report : StickReport)

/-- A game controller that is open, and what it has reported since it was opened. -/
structure Attached where
  instanceId : Reading
  reports : List StickReport

/-- Whether an event of an instance is one of the open controller. -/
def Attached.hears (a : Attached) (instanceId : Reading) : Bool :=
  !instanceId.same .nothing && instanceId.same a.instanceId

namespace StickEvent

def hostEvent : StickEvent → HostEvent
  | added index _ _ => .stickAdded (index.elim .nothing .whole)
  | removed instanceId => .stick instanceId .removed
  | reported instanceId report => .stick instanceId report.change

/-- The number of the controller to open: the one asked for, by the event or else by the
configuration, and the first one where there is none of that number. -/
def place (config : AppConfig) (index : Option Int) (sticks : List StickInfo) : Nat :=
  let wanted := index.getD config.stickIndex
  if 0 ≤ wanted ∧ wanted < sticks.length then wanted.toNat else 0

/-- The controller that is opened, if it can be. -/
def opened (config : AppConfig) (index : Option Int) (failure : Option String)
    (sticks : List StickInfo) : Option StickInfo :=
  if failure.isSome then none
  else sticks[place config index sticks]?.filter (·.error.isNone)

/-- The open controller behind an event. -/
def next (config : AppConfig) : Option Attached → StickEvent → Option Attached
  | none, added index failure sticks =>
    (opened config index failure sticks).map fun info => ⟨info.instanceId, []⟩
  | none, removed _ => none
  | none, reported _ _ => none
  | some a, added _ _ _ => some a
  | some a, removed instanceId => if a.hears instanceId then none else some a
  | some a, reported instanceId report =>
    if a.hears instanceId then some { a with reports := a.reports ++ [report] } else some a

/-- The open controller behind events in turn. -/
def attached (config : AppConfig) (events : List StickEvent) : Option Attached :=
  events.foldl (next config) none

/-- An event that is none of the open controller, or one of an axis that does not count. -/
def Ignored : Option Attached → StickEvent → Prop
  | a, added _ _ _ => a.isSome = true
  | a, removed instanceId => ∀ s, a = some s → s.hears instanceId = false
  | a, reported instanceId report => (∀ s, a = some s → s.hears instanceId = false) ∨
    ∃ number value, report = .axis number value ∧ number ≠ 0 ∧ number ≠ 1

end StickEvent

/-! ## Inputs -/

namespace StickInputs

variable {s : StickInputs} {reports : List StickReport}

/-- The inputs are the last ones that were reported. -/
structure Shows (s : StickInputs) (reports : List StickReport) : Prop where
  x : s.x = .number (axisOf 0 reports)
  y : s.y = .number (axisOf 1 reports)
  hat : s.hat = .list [.number (hatOf reports).1, .number (hatOf reports).2]
  buttons : ∃ numbers : List Int,
    s.buttons = numbers.map Reading.whole ∧ ∀ number, number ∈ numbers ↔ IsDown number reports

theorem shows_neutral : Shows {} [] :=
  ⟨rfl, rfl, rfl, [], rfl, fun _ => iff_of_false List.not_mem_nil Bool.false_ne_true⟩

theorem any_same (n : Int) (numbers : List Int) :
    (numbers.map Reading.whole).any (Reading.whole n).same = decide (n ∈ numbers) := by
  induction numbers with
  | nil => rfl
  | cons m numbers ih =>
    rw [List.map_cons, List.any_cons, ih, Reading.same_whole, Bool.eq_iff_iff]
    simp

theorem filter_same (n : Int) (numbers : List Int) :
    (numbers.map Reading.whole).filter (fun r => !(Reading.whole n).same r) =
      (numbers.filter (· ≠ n)).map Reading.whole := by
  rw [List.filter_map]
  congr 2
  funext m
  simp [Reading.same_whole, eq_comm]

theorem apply_axis (s : StickInputs) (number : Int) (value : Scalar) :
    s.apply (StickReport.axis number value).change =
      .ok (if number = 0 then some { s with x := .number value }
        else if number = 1 then some { s with y := .number value } else none) := by
  simp only [StickReport.change, apply, Reading.need, Reading.same_whole, decide_eq_true_eq, bind,
    Except.bind, pure, Except.pure]
  split
  · rfl
  · split <;> rfl

theorem shows_axis (h : s.Shows reports) (number : Int) (value : Scalar) :
    ((if number = 0 then some { s with x := .number value }
      else if number = 1 then some { s with y := .number value } else none).getD s).Shows
        (reports ++ [.axis number value]) := by
  obtain ⟨hx, hy, hhat, numbers, hbuttons, hdown⟩ := h
  have hkept : ∀ n, n ∈ numbers ↔ IsDown n (reports ++ [.axis number value]) := fun n => by
    simpa [isDown?] using hdown n
  by_cases hzero : number = 0
  · subst hzero
    exact ⟨by simp [axis?], by simpa [axis?] using hy, by simpa [hat?] using hhat, numbers,
      hbuttons, hkept⟩
  · by_cases hone : number = 1
    · subst hone
      exact ⟨by simpa [axis?] using hx, by simp [axis?], by simpa [hat?] using hhat, numbers,
        hbuttons, hkept⟩
    · rw [if_neg hzero, if_neg hone]
      exact ⟨by simpa [axis?, hzero] using hx, by simpa [axis?, hone] using hy,
        by simpa [hat?] using hhat, numbers, hbuttons, hkept⟩

/-- A report of the controller becomes part of what the inputs show, also where they stay as they
are. -/
theorem shows_apply (h : s.Shows reports) (r : StickReport) :
    ∃ changed, s.apply r.change = .ok changed ∧ (changed.getD s).Shows (reports ++ [r]) := by
  cases r with
  | axis number value => exact ⟨_, apply_axis s number value, shows_axis h number value⟩
  | hat x y =>
    obtain ⟨hx, hy, -, numbers, hbuttons, hdown⟩ := h
    refine ⟨_, rfl, by simpa [axis?] using hx, by simpa [axis?] using hy, by simp [hat?], numbers,
      hbuttons, fun n => ?_⟩
    simpa [isDown?] using hdown n
  | buttonDown number =>
    obtain ⟨hx, hy, hhat, numbers, hbuttons, hdown⟩ := h
    refine ⟨_, rfl, by simpa [axis?] using hx, by simpa [axis?] using hy,
      by simpa [hat?] using hhat, if number ∈ numbers then numbers else number :: numbers, ?_,
      fun n => ?_⟩
    · simp only [Option.getD_some, hbuttons, any_same, decide_eq_true_eq]
      split <;> rfl
    · rw [StickReport.isDown_append, isDown?]
      by_cases hn : number = n
      · subst hn
        refine iff_of_true ?_ (by rw [if_pos rfl]; rfl)
        split
        · assumption
        · exact List.mem_cons_self
      · rw [if_neg hn, Option.elim_none, ← hdown n]
        split
        · exact Iff.rfl
        · rw [List.mem_cons]
          exact or_iff_right (Ne.symm hn)
  | buttonUp number =>
    obtain ⟨hx, hy, hhat, numbers, hbuttons, hdown⟩ := h
    refine ⟨_, rfl, by simpa [axis?] using hx, by simpa [axis?] using hy,
      by simpa [hat?] using hhat, numbers.filter (· ≠ number), ?_, fun n => ?_⟩
    · simp only [Option.getD_some, hbuttons]
      exact filter_same number numbers
    · rw [StickReport.isDown_append, isDown?, List.mem_filter]
      by_cases hn : number = n
      · subst hn
        simp
      · rw [if_neg hn, Option.elim_none, ← hdown n]
        exact and_iff_left (decide_eq_true (Ne.symm hn))

theorem Shows.isEmpty_buttons (h : s.Shows reports) :
    s.buttons.isEmpty = false ↔ ∃ number, IsDown number reports := by
  obtain ⟨numbers, hbuttons, hdown⟩ := h.buttons
  cases numbers with
  | nil =>
    rw [hbuttons]
    refine iff_of_false (by decide) ?_
    rintro ⟨n, hn⟩
    exact List.not_mem_nil ((hdown n).mpr hn)
  | cons n numbers =>
    rw [hbuttons]
    exact iff_of_true rfl ⟨n, (hdown n).mp List.mem_cons_self⟩

end StickInputs

/-! ## The gamepad -/

namespace Gamepad

variable {g : Gamepad} {s : StickInputs} {reports : List StickReport} {key : Int}

/-- The gamepad points where the inputs of the game controller point. -/
structure Steered (g : Gamepad) (s : StickInputs) : Prop where
  directions : s.directions = .ok
    { left := some g.left, right := some g.right, up := some g.up, down := some g.down }
  button : g.button = !s.buttons.isEmpty

theorem steered_neutral : ({ keys := {} } : Gamepad).Steered {} := by
  refine ⟨(StickInputs.directions_of_numbers rfl rfl rfl).trans ?_, rfl⟩
  have hpoints : Scalar.isBelow (-StickInputs.threshold) (.whole 0) = false ∧
      Scalar.isAbove StickInputs.threshold (.whole 0) = false := by decide +kernel
  rw [hpoints.1, hpoints.2]
  rfl

/-- The keys of a gamepad that is steered by inputs are those that the reports behind them hold. -/
theorem Steered.mem_pressedKeys (h : g.Steered s) (hk : g.keys = {}) (hs : s.Shows reports) :
    key ∈ g.pressedKeys ↔ Holds reports key := by
  have hthreshold : StickInputs.threshold = mkRat 1 2 := rfl
  have hdirections := h.directions
  rw [StickInputs.directions_of_numbers hs.x hs.y hs.hat, hthreshold] at hdirections
  obtain ⟨hleft, hright, hup, hdown⟩ := Directions.mk.inj (Except.ok.inj hdirections)
  have hbutton : g.button = true ↔ ∃ number, IsDown number reports := by
    rw [h.button, Bool.not_eq_true', hs.isEmpty_buttons]
  rw [Gamepad.mem_pressedKeys, Gamepad.inputs, hk, Holds, ← hbutton, ← Option.some.inj hleft,
    ← Option.some.inj hright, ← Option.some.inj hup, ← Option.some.inj hdown]
  simp only [List.mem_cons, Prod.mk.injEq, List.not_mem_nil, or_false, Bool.or_eq_true,
    and_comm, eq_comm (a := true)]

end Gamepad

/-! ## Events of the user interface -/

namespace Ui

/-- The user interface at a host whose controllers are those of an event. -/
def atHost (u : Ui) : StickEvent → Ui
  | .added _ failure sticks => { u with host := { u.host with stickError := failure, sticks } }
  | .removed _ => u
  | .reported _ _ => u

/-- The user interface is told of an event. -/
def happen (dbg : Printer) (e : StickEvent) : Action Ui Unit := fun u =>
  (handleEvent dbg e.hostEvent).run (u.atHost e)

/-- The user interface has opened this controller, and its inputs and its gamepad are as the reports
of it demand. -/
structure Tracks (config : AppConfig) (a : Option Attached) (u : Ui) : Prop where
  settled : u.Settled
  config : u.config = config
  stick : u.stick.map OpenStick.instanceId = a.map Attached.instanceId
  steered : u.gamepad.Steered u.inputs
  shows : u.inputs.Shows (a.elim [] Attached.reports)

variable {config : AppConfig} {a : Option Attached} {u : Ui} (dbg : Printer)

theorem tracks_create {host : Host} (h : create config host = .ok u) : Tracks config none u := by
  obtain ⟨hsettled, -⟩ := settled_create h
  unfold create at h
  split at h
  · cases h
  · cases h
    exact ⟨hsettled, rfl, rfl, Gamepad.steered_neutral, StickInputs.shows_neutral⟩

theorem Tracks.atHost (h : Tracks config a u) (e : StickEvent) : Tracks config a (u.atHost e) := by
  cases e with
  | added index failure sticks =>
    exact ⟨h.settled.congr rfl rfl, h.config, h.stick, h.steered, h.shows⟩
  | removed instanceId => exact h
  | reported instanceId report => exact h

/-- The gamepad of a settled interface passes on what has changed, and the interface is settled
again. -/
theorem onGamepad_of_settled (h : u.Settled) {g : Gamepad} (hk : g.keys = {})
    (hh : g.held = u.gamepad.held) {action : Action (Gamepad × KeyQueue) Unit}
    (haction : action (u.gamepad, u.queue) = Gamepad.sync dbg (g, u.queue)) :
    ∃ queue,
      let v : Ui := { u with gamepad := { g with held := g.pressedKeys }, queue }
      onGamepad action u = .done () v [] ∧ v.Settled := by
  obtain ⟨queue, hsync, hf, hcount⟩ :=
    sync_of_held dbg hk h.keys (hh.trans h.held) h.faithful h.nonneg
  refine ⟨queue, ?_, hk, rfl, hf, fun key => hcount key ▸ le_max_right _ _⟩
  simp only [onGamepad, Action.onPart, Action.run, haction, hsync]
  rfl

/-- The gamepad has been brought to where the inputs point, and nothing else of the controller has
changed. -/
structure Resteered (u v : Ui) : Prop where
  settled : v.Settled
  config : v.config = u.config
  stick : v.stick = u.stick
  inputs : v.inputs = u.inputs
  steered : v.gamepad.Steered v.inputs

theorem Resteered.tracks {v : Ui} (h : Resteered u v) (hconfig : u.config = config)
    (hstick : u.stick.map OpenStick.instanceId = a.map Attached.instanceId)
    (hshows : u.inputs.Shows (a.elim [] Attached.reports)) : Tracks config a v :=
  ⟨h.settled, h.config.trans hconfig, h.stick ▸ hstick, h.steered, h.inputs ▸ hshows⟩

theorem resetStickInputs_of_settled (h : u.Settled) :
    ∃ v, resetStickInputs dbg u = .done () v [] ∧ Resteered { u with inputs := {} } v := by
  let cleared : Ui := { u with inputs := {} }
  have hcleared : cleared.Settled := h.congr rfl rfl
  have hrest : Gamepad.reset dbg (cleared.gamepad, cleared.queue) =
      Gamepad.sync dbg (cleared.gamepad.atRest, cleared.queue) := rfl
  obtain ⟨queue, hreset, hv⟩ :=
    onGamepad_of_settled dbg hcleared (g := cleared.gamepad.atRest) h.keys rfl hrest
  exact ⟨_, hreset, hv, rfl, rfl, rfl, Gamepad.steered_neutral.directions,
    Gamepad.steered_neutral.button⟩

/-- Inputs that were reported point somewhere, and the gamepad follows them. -/
theorem updateGamepad_of_settled (h : u.Settled) {reports : List StickReport}
    (hshows : u.inputs.Shows reports) :
    ∃ v, updateGamepad dbg u = .done () v [] ∧ Resteered u v := by
  have hdirections := StickInputs.directions_of_numbers hshows.x hshows.y hshows.hat
  generalize hd : Directions.mk _ _ _ _ = d at hdirections
  have hdirect : Gamepad.setDirections dbg d (u.gamepad, u.queue) =
      Gamepad.sync dbg (u.gamepad.withDirections d, u.queue) := rfl
  obtain ⟨queue, hturn, hv⟩ :=
    onGamepad_of_settled dbg h (g := u.gamepad.withDirections d) h.keys rfl hdirect
  generalize hg : u.gamepad.withDirections d = g at hturn hv
  let turned : Gamepad := { g with held := g.pressedKeys }
  have hpress : Gamepad.setButton dbg (!u.inputs.buttons.isEmpty) (turned, queue) =
      Gamepad.sync dbg (turned.withButton !u.inputs.buttons.isEmpty, queue) := rfl
  obtain ⟨queue', hbutton, hw⟩ := onGamepad_of_settled dbg hv
    (g := turned.withButton !u.inputs.buttons.isEmpty) hv.keys rfl hpress
  refine ⟨_, ?_, hw, rfl, rfl, rfl, ?_, rfl⟩
  · show (liftExcept u.inputs.directions >>= fun d : Directions => _ : Action Ui Unit) u = _
    rw [hdirections]
    show (onGamepad (Gamepad.setDirections dbg d) >>= fun _ => _ : Action Ui Unit) u = _
    rw [Action.bind_of_done hturn]
    exact hbutton
  · subst hg hd
    exact hdirections

theorem detachStick_of_open {stick : OpenStick} (h : u.stick = some stick) :
    detachStick dbg u =
      (resetStickInputs dbg { u.call (.closeStick stick.index) with stick := none }).after
        (dbg.lines "input" "joystick_detached id=%s" [stick.instanceId.label]) := by
  cases u
  cases h
  show Outcome.andThen (Action.run (Action.say dbg _ _ _) _) _ = _
  rw [Action.run_say (.stickDetached stick.instanceId)]
  rfl

theorem takeStick_eq (index : Nat) (info : StickInfo) :
    takeStick dbg index info u =
      (resetStickInputs dbg
        { u.call (.openStick index) with stick := some ⟨index, info.instanceId⟩ }).andThen
          fun _ v => .done () v
            (dbg.lines "input" "joystick_attached index=%d name=%s"
              [.own index, info.name.label]) := by
  simp only [← Action.run_say (.stickAttached index info.name)]
  rfl

/-- The controller that is open goes away. -/
theorem tracks_detachStick {s : Attached} (h : Tracks config (some s) u) :
    ∃ v lines, detachStick dbg u = .done () v lines ∧ Tracks config none v := by
  obtain ⟨stick, hstick, -⟩ := Option.map_eq_some_iff.mp h.stick
  have hclosed : ({ u.call (.closeStick stick.index) with stick := none } : Ui).Settled :=
    h.settled.congr rfl rfl
  obtain ⟨v, hreset, hv⟩ := resetStickInputs_of_settled dbg hclosed
  rw [detachStick_of_open dbg hstick, hreset]
  exact ⟨v, _, rfl, hv.tracks h.config rfl StickInputs.shows_neutral⟩

/-- A controller is opened and has reported nothing yet. -/
theorem tracks_takeStick (h : Tracks config none u) (index : Nat) (info : StickInfo) :
    ∃ v lines, takeStick dbg index info u = .done () v lines ∧
      Tracks config (some ⟨info.instanceId, []⟩) v := by
  have hopened : ({ u.call (.openStick index) with
      stick := some ⟨index, info.instanceId⟩ } : Ui).Settled :=
    h.settled.congr rfl rfl
  obtain ⟨v, hreset, hv⟩ := resetStickInputs_of_settled dbg hopened
  rw [takeStick_eq, hreset]
  exact ⟨v, _, rfl, hv.tracks h.config rfl StickInputs.shows_neutral⟩

theorem stickToOpen_eq (u : Ui) (index : Option Int) :
    u.stickToOpen (index.elim .nothing .whole) =
      .ok (StickEvent.place u.config index u.host.sticks) := by
  have hindex (n : Int) : ((Reading.whole n).index? u.host.sticks.length).map (·.getD 0) =
      .ok (if 0 ≤ n ∧ n < u.host.sticks.length then n.toNat else 0) := by
    simp only [Reading.index?, Reading.whole, Reading.number?]
    split <;> rfl
  cases index with
  | none => exact hindex u.config.stickIndex
  | some n => exact hindex n

/-- The controller of the number to open, if there is any at all. -/
theorem openStick_of_cons {first : StickInfo} {others : List StickInfo}
    (hfailure : u.host.stickError = none) (hsticks : u.host.sticks = first :: others)
    (index : Option Int) :
    ∃ info, u.host.sticks[StickEvent.place u.config index u.host.sticks]? = some info ∧
      openStick dbg (index.elim .nothing .whole) u =
        match info.error with
        | some reason =>
          .done () u (dbg.lines "input" "joystick_open_failed index=%d error=%s"
            [.own (StickEvent.place u.config index u.host.sticks), .text reason])
        | none => takeStick dbg (StickEvent.place u.config index u.host.sticks) info u := by
  have hplace := stickToOpen_eq u index
  have hlt : StickEvent.place u.config index u.host.sticks < u.host.sticks.length := by
    rw [StickEvent.place]
    split
    · omega
    · rw [hsticks]
      exact Nat.succ_pos _
  generalize StickEvent.place u.config index u.host.sticks = place at hplace hlt
  obtain ⟨info, hinfo⟩ : ∃ info, u.host.sticks[place]? = some info :=
    ⟨_, List.getElem?_eq_getElem hlt⟩
  have hlift : (liftExcept (u.stickToOpen (index.elim .nothing .whole)) : Action Ui Nat) u =
      .done place u [] := by
    rw [hplace]
    rfl
  have hgetD : (first :: others).getD place first = info := by
    rw [List.getD_eq_getElem?_getD, ← hsticks, hinfo, Option.getD_some]
  refine ⟨info, hinfo, ?_⟩
  rw [openStick, Action.bind_of_done (Action.run_get u), hfailure, hsticks]
  refine (Action.bind_of_done hlift).trans ?_
  rw [hgetD]
  cases info.error with
  | some reason => exact Action.run_say (.stickUnusable place reason) dbg u
  | none => rfl

/-- A controller that was plugged in is opened if none is open, and if it can be. -/
theorem tracks_openStick (h : Tracks config none u) (index : Option Int) :
    ∃ v lines, openStick dbg (index.elim .nothing .whole) u = .done () v lines ∧
      Tracks config ((StickEvent.opened config index u.host.stickError u.host.sticks).map
        fun info => ⟨info.instanceId, []⟩) v := by
  cases hfailure : u.host.stickError with
  | some reason =>
    rw [openStick, Action.bind_of_done (Action.run_get u), hfailure]
    exact ⟨u, _, Action.run_say (.sticksUnusable reason) dbg u, h⟩
  | none =>
    cases hsticks : u.host.sticks with
    | nil =>
      rw [openStick, Action.bind_of_done (Action.run_get u), hfailure, hsticks]
      exact ⟨u, _, Action.run_say (.plain "input" "joystick_none_available") dbg u, h⟩
    | cons first others =>
      obtain ⟨info, hinfo, hopen⟩ := openStick_of_cons dbg hfailure hsticks index
      rw [h.config] at hinfo hopen
      rw [hopen, ← hsticks, StickEvent.opened, hinfo, Option.filter_some]
      cases herror : info.error with
      | some reason => exact ⟨u, _, rfl, h⟩
      | none => exact tracks_takeStick dbg h _ info

theorem applyStick_of_ok {r : StickReport} {changed : Option StickInputs}
    (h : u.inputs.apply r.change = .ok changed) :
    applyStick dbg r.change u = match changed with
      | none => .done () u []
      | some inputs => updateGamepad dbg { u with inputs } := by
  have hlift : (liftExcept (u.inputs.apply r.change) : Action Ui (Option StickInputs)) u =
      .done changed u [] := by
    rw [h]
    rfl
  cases r <;>
  · refine (Action.bind_of_done (Action.run_get u)).trans ((Action.bind_of_done hlift).trans ?_)
    cases changed <;> rfl

/-- The open controller reports something. -/
theorem tracks_applyStick {s : Attached} (h : Tracks config (some s) u) (r : StickReport) :
    ∃ v, applyStick dbg r.change u = .done () v [] ∧
      Tracks config (some { s with reports := s.reports ++ [r] }) v := by
  obtain ⟨changed, happly, hshows⟩ := StickInputs.shows_apply h.shows r
  rw [applyStick_of_ok dbg happly]
  cases changed with
  | none => exact ⟨u, rfl, h.settled, h.config, h.stick, h.steered, hshows⟩
  | some inputs =>
    have hput : ({ u with inputs } : Ui).Settled := h.settled.congr rfl rfl
    obtain ⟨v, hupdate, hv⟩ := updateGamepad_of_settled dbg hput hshows
    exact ⟨v, hupdate, hv.tracks h.config h.stick hshows⟩

theorem Tracks.isOpen (h : Tracks config a u) (instanceId : Reading) :
    u.isOpen instanceId = a.any (·.hears instanceId) := by
  have hstick := h.stick
  cases a with
  | none =>
    rw [Ui.isOpen, Option.map_eq_none_iff.mp hstick, Option.any_none, Bool.and_false]
    rfl
  | some s =>
    obtain ⟨stick, heq, hid⟩ := Option.map_eq_some_iff.mp hstick
    rw [Ui.isOpen, heq, Option.any_some, hid]
    rfl

theorem handleEvent_hostEvent (hpad : u.config.gamepadEnabled = true) (e : StickEvent) :
    handleEvent dbg e.hostEvent u = handleStick dbg e.hostEvent u := by
  cases e <;>
  · refine (Action.bind_of_done (Action.run_get u)).trans ?_
    rw [if_pos hpad]

theorem handleStick_stick (instanceId : Reading) (change : StickChange) :
    handleStick dbg (.stick instanceId change) u =
      if u.isOpen instanceId then applyStick dbg change u else .done () u [] := by
  refine (Action.bind_of_done (Action.run_get u)).trans ?_
  simp only
  split <;> rfl

theorem handleStick_added (index : Reading) :
    handleStick dbg (.stickAdded index) u =
      if u.stick.isNone then openStick dbg index u else .done () u [] := by
  refine (Action.bind_of_done (Action.run_get u)).trans ?_
  simp only
  split <;> rfl

theorem Tracks.isNone_stick (h : Tracks config a u) : u.stick.isNone = a.isNone := by
  rw [← Option.isNone_map, h.stick, Option.isNone_map]

/-- What an event comes to. -/
theorem happen_eq (hpad : config.gamepadEnabled = true) (h : Tracks config a u) (e : StickEvent) :
    happen dbg e u =
      match e with
      | .added index _ _ =>
        if a.isNone then openStick dbg (index.elim .nothing .whole) (u.atHost e)
        else .done () (u.atHost e) []
      | .removed instanceId =>
        if a.any (·.hears instanceId) then detachStick dbg u else .done () u []
      | .reported instanceId report =>
        if a.any (·.hears instanceId) then applyStick dbg report.change u else .done () u [] := by
  have hu := h.atHost e
  have hhandle : happen dbg e u = handleStick dbg e.hostEvent (u.atHost e) :=
    handleEvent_hostEvent dbg (hu.config ▸ hpad) e
  rw [hhandle]
  cases e with
  | added index failure sticks =>
    rw [StickEvent.hostEvent, handleStick_added, hu.isNone_stick]
  | removed instanceId =>
    rw [StickEvent.hostEvent, handleStick_stick, hu.isOpen]
    rfl
  | reported instanceId report =>
    rw [StickEvent.hostEvent, handleStick_stick, hu.isOpen]
    rfl

/-- Every event comes to its end and leaves the interface as the open controller demands. -/
theorem tracks_happen (hpad : config.gamepadEnabled = true) (h : Tracks config a u)
    (e : StickEvent) :
    ∃ v lines, happen dbg e u = .done () v lines ∧ Tracks config (e.next config a) v := by
  rw [happen_eq dbg hpad h]
  cases e with
  | added index failure sticks =>
    have hu := h.atHost (.added index failure sticks)
    cases a with
    | none => exact tracks_openStick dbg hu index
    | some s => exact ⟨_, [], rfl, hu⟩
  | removed instanceId =>
    cases a with
    | none => exact ⟨_, [], rfl, h⟩
    | some s =>
      simp only [Option.any_some, StickEvent.next]
      split
      · exact tracks_detachStick dbg h
      · exact ⟨_, [], rfl, h⟩
  | reported instanceId report =>
    cases a with
    | none => exact ⟨_, [], rfl, h⟩
    | some s =>
      simp only [Option.any_some, StickEvent.next]
      split
      · obtain ⟨v, happly, hv⟩ := tracks_applyStick dbg h report
        exact ⟨v, [], happly, hv⟩
      · exact ⟨_, [], rfl, h⟩

/-- An event that does not count changes nothing of the interface and says nothing. -/
theorem happen_of_ignored (hpad : config.gamepadEnabled = true) (h : Tracks config a u)
    {e : StickEvent} (he : e.Ignored a) : happen dbg e u = .done () (u.atHost e) [] := by
  have hunheard (instanceId : Reading) (hears : ∀ s, a = some s → s.hears instanceId = false) :
      a.any (·.hears instanceId) = false := by
    cases a with
    | none => rfl
    | some s => exact hears s rfl
  rw [happen_eq dbg hpad h]
  cases e with
  | added index failure sticks =>
    obtain ⟨s, rfl⟩ := Option.isSome_iff_exists.mp he
    rfl
  | removed instanceId =>
    simp only [hunheard instanceId he]
    rfl
  | reported instanceId report =>
    obtain hears | ⟨number, value, rfl, hzero, hone⟩ := he
    · simp only [hunheard instanceId hears]
      rfl
    · have happly := StickInputs.apply_axis u.inputs number value
      rw [if_neg hzero, if_neg hone] at happly
      simp only [applyStick_of_ok dbg happly, ite_self]
      rfl

/-- Behind all events the interface is as the open controller demands. -/
theorem tracks_runAll (hpad : config.gamepadEnabled = true) (h : Tracks config a u)
    (events : List StickEvent) :
    Tracks config (events.foldl (StickEvent.next config) a)
      (Action.runAll (happen dbg) events u) := by
  induction events generalizing a u with
  | nil => exact h
  | cons e events ih =>
    obtain ⟨v, lines, hstep, hv⟩ := tracks_happen dbg hpad h e
    have hstate : ((happen dbg e).run u).state = v := congrArg Outcome.state hstep
    have hnext := ih (hstate ▸ hv)
    exact hnext

/-- Whatever happens to the game controllers of a host, every event comes to its end. Behind the
events the open controller is the one that they leave attached. While none is open the gamepad holds
no key; while one is, it holds the keys that the last reports of that controller since it was opened
stand for. An event of another controller, of another axis or of one more controller changes
nothing. -/
theorem pressedKeys_of_runAll {host : Host} (hu : create config host = .ok u)
    (hpad : config.gamepadEnabled = true) (dbg : Printer) (events : List StickEvent) :
    let t := Action.runAll (happen dbg) events u
    let a := StickEvent.attached config events
    t.stick.map OpenStick.instanceId = a.map Attached.instanceId ∧
      (t.stick = none → t.gamepad.pressedKeys = []) ∧
      (∀ s, a = some s → ∀ key, key ∈ t.gamepad.pressedKeys ↔ Holds s.reports key) ∧
      ∀ e : StickEvent, (happen dbg e t).result = .ok () ∧
        (e.Ignored a → happen dbg e t = .done () (t.atHost e) []) := by
  have ht := tracks_runAll dbg hpad (tracks_create hu) events
  intro t a
  replace ht : Tracks config a t := ht
  clear_value t a
  have hkeys (key : Int) :
      key ∈ t.gamepad.pressedKeys ↔ Holds (a.elim [] Attached.reports) key :=
    ht.steered.mem_pressedKeys ht.settled.keys ht.shows
  refine ⟨ht.stick, fun hclosed => ?_, fun s hs key => ?_, fun e => ⟨?_, fun he => ?_⟩⟩
  · have hnone : a = none := by
      rw [← Option.map_eq_none_iff, ← ht.stick, hclosed, Option.map_none]
    rw [List.eq_nil_iff_forall_not_mem]
    intro key hkey
    rw [hkeys, hnone] at hkey
    exact StickReport.not_holds_nil key hkey
  · rw [hkeys, hs]
    rfl
  · obtain ⟨v, lines, hstep, -⟩ := tracks_happen dbg hpad ht e
    rw [hstep]
    rfl
  · exact happen_of_ignored dbg hpad ht he

/-- A controller is moved right and back, its hat up, and two of its buttons go down, of which one
comes up again. Another controller is plugged in meanwhile and is not listened to. -/
def steering : List StickEvent :=
  let pad : StickInfo := ⟨.whole 7, .text "pad", none⟩
  let other : StickInfo := ⟨.whole 8, .text "other", none⟩
  [.added none none [pad], .reported (.whole 7) (.axis 0 (.double 0.75)),
    .added (some 1) none [pad, other], .reported (.whole 8) (.axis 1 (.double 1.0)),
    .reported (.whole 7) (.axis 0 (.double 0.25)),
    .reported (.whole 7) (.hat (.whole 0) (.whole 1)), .reported (.whole 7) (.buttonDown 3),
    .reported (.whole 7) (.buttonDown 4), .reported (.whole 7) (.buttonUp 3)]

theorem pressedKeys_of_runAll_steering :
    ∃ u, create {} { Host.absent with loadable := true } = .ok u ∧
      let t := Action.runAll (happen .off) steering u
      t.stick.map OpenStick.instanceId = some (.whole 7) ∧
        2 ∈ t.gamepad.pressedKeys ∧ 5 ∈ t.gamepad.pressedKeys ∧ 6 ∉ t.gamepad.pressedKeys ∧
        (happen .off (.removed (.whole 7)) t).result = .ok () := by
  have hu : create {} { Host.absent with loadable := true } = .ok _ := rfl
  refine ⟨_, hu, ?_⟩
  intro t
  obtain ⟨hstick, -, hkeys, hevent⟩ := pressedKeys_of_runAll hu rfl .off steering
  have hopen : StickEvent.attached {} steering = some ⟨.whole 7,
      [.axis 0 (.double 0.75), .axis 0 (.double 0.25), .hat (.whole 0) (.whole 1), .buttonDown 3,
        .buttonDown 4, .buttonUp 3]⟩ := rfl
  have hkeys := hkeys _ hopen
  refine ⟨hstick.trans (by rw [hopen]; rfl), ?_, ?_, ?_, (hevent _).1⟩
  · exact (hkeys 2).mpr (.inl ⟨rfl, .inr (by decide +kernel)⟩)
  · exact (hkeys 5).mpr (.inr (.inr (.inr (.inr ⟨rfl, 4, rfl⟩))))
  · rw [hkeys]
    rintro (⟨hkey, -⟩ | ⟨hkey, -⟩ | ⟨hkey, -⟩ | ⟨-, hright⟩ | ⟨hkey, -⟩)
    · exact absurd hkey (by decide)
    · exact absurd hkey (by decide)
    · exact absurd hkey (by decide)
    · exact absurd hright (by decide +kernel)
    · exact absurd hkey (by decide)

end Ui

end Chip8
