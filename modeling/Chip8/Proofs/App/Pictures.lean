import Chip8.App.Ui
import Chip8.Proofs.Debug.Inert
import Chip8.Proofs.Video.Rendering

/-!
# Pictures on the screen

`Display` is what the calls of the user interface make of the window. The interface notes the last
picture that it was given and leaves the window alone when a picture that equals it comes. It notes
the picture itself, so that whoever gave it can change what is noted (`Ui.Showing`).

The library is taken to refuse nothing that makes sense (`Screen.Dependable`). Then a picture is put
into the window if it differs from what is noted and can be shown (`Ui.redrawn`); every other one
leaves the window as it is (`Ui.presented_act`).

* `Ui.shown_of_drawAll`: hence what the window shows after pictures in turn, and how often it was
  flipped. As long as nobody changes a picture that was given, it shows the last one.
* `Ui.not_shown_of_countless`: at a scale beyond all counting the window stays as it is.
* `Ui.not_shown_of_altered`: so it does if a picture that was given is changed and comes again.
-/

namespace Chip8

/-! ## The window -/

/-- What the window of a host shows, and how it has come to it. -/
structure Display where
  /-- What the last surface was made of. -/
  surface : Option Image
  /-- What was put onto the screen last. -/
  screen : Option Image
  /-- What was on the screen when the window was flipped last. -/
  shown : Option Image
  flips : Nat
  deriving DecidableEq

namespace Display

def blank : Display := ⟨none, none, none, 0⟩

/-- The window after a call. -/
def after (d : Display) : HostCall → Display
  | .surface image => { d with surface := some image }
  | .blit _ _ => { d with screen := d.surface }
  | .flip => { d with shown := d.screen, flips := d.flips + 1 }
  | _ => d

end Display

/-- The window after all calls that the host has received. -/
def Host.display (h : Host) : Display := h.calls.toList.foldl Display.after .blank

/-- The library makes a surface of as many bytes as its size takes, as long as their number fits
into 32 bits with a sign. It puts every surface onto the screen, and shows the screen in the
window. -/
structure Screen.Dependable (s : Screen) : Prop where
  surface : ∀ width height, 0 < width → 0 < height → 3 * width * height ≤ 0x7FFFFFFF →
    s.refusesSurface (3 * width * height) width height = none
  blit : ∀ n, s.refusesBlit n = none
  flip : ∀ n, s.refusesFlip n = none

namespace Ui

/-! ## One picture -/

/-- The picture can be rendered, and a surface be made of its image. -/
def CanShow (u : Ui) (grid : Grid) : Prop :=
  let scale := u.config.scale.toNat
  u.host.loadable = true ∧ Image.Fits u.host.room grid u.config.scale ∧
    u.host.screen.refusesSurface (Image.bytesOf scale grid) ((grid.headD []).length * scale)
      (grid.length * scale) = none

instance (u : Ui) (grid : Grid) : Decidable (u.CanShow grid) :=
  inferInstanceAs (Decidable (_ ∧ _ ∧ _))

/-- The image of a picture. -/
def imageOf (u : Ui) (grid : Grid) : Image := Image.ofGrid u.palette grid u.config.scale.toNat

variable {u v t : Ui} {grid : Grid}

theorem canShow_of_rectangular (hlib : u.host.screen.Dependable) (hl : u.host.loadable = true)
    {width height : Nat} (h : Grid.Rectangular grid width height) (hw : 0 < width) (hh : 0 < height)
    {scale : Nat} (hs : 0 < scale) (hscale : u.config.scale = scale) (hcount : scale ≤ greatestCount)
    (hroom : 3 * width * height * scale * scale ≤ u.host.room.cells)
    (hword : 3 * width * height * scale * scale ≤ 0x7FFFFFFF) : u.CanShow grid := by
  have hbytes := Image.bytesOf_of_rectangular scale h
  have hhead : (grid.headD []).length = width := by
    obtain ⟨row, rows, rfl⟩ := List.exists_cons_of_length_pos (h.length_eq ▸ hh)
    exact h.row_length row List.mem_cons_self
  have hsize : 3 * width * height * scale * scale = 3 * (width * scale) * (height * scale) := by
    ring
  have htoNat : u.config.scale.toNat = scale := by omega
  unfold CanShow Image.Fits
  simp only [htoNat, hbytes, hhead, h.length_eq]
  refine ⟨hl, ⟨hcount, hroom⟩, ?_⟩
  rw [hsize] at hword ⊢
  exact hlib.surface _ _ (Nat.mul_pos hw hs) (Nat.mul_pos hh hs) hword

/-- The host once it has shown an image. -/
def showing (image : Image) (h : Host) : Host :=
  { h with
    screen :=
      { h.screen with
        blitsAsked := h.screen.blitsAsked + 1, flipsAsked := h.screen.flipsAsked + 1 }
    calls := ((h.calls.push (.surface image)).push (.blit 0 0)).push .flip }

theorem display_showing (image : Image) (h : Host) :
    (showing image h).display =
      ⟨some image, some image, some image, h.display.flips + 1⟩ := by
  simp [Host.display, showing, Display.after]

theorem onHost_of_ok {f : Host → Except Error Unit × Host} {later : Host}
    (h : f u.host = (.ok (), later)) :
    onHost f u = .done () { u with host := later } [] := by
  rw [onHost, h]
  rfl

theorem run_present (hl : u.host.loadable = true) (image : Image) :
    (present image).run u = (onHost (·.makeSurface image) u).andThen fun _ made =>
      (onHost Host.blit made).andThen fun _ onScreen => onHost Host.flip onScreen := by
  refine (Action.bind_of_done (Action.run_get u)).trans ?_
  rw [hl]
  rfl

theorem present_of_willing {image : Image} (hl : u.host.loadable = true)
    (hlib : u.host.screen.Dependable)
    (hs : u.host.screen.refusesSurface image.pixels.size image.width image.height = none) :
    (present image).run u = .done () { u with host := showing image u.host } [] := by
  let made := u.host.call (.surface image)
  let onScreen := Host.call (.blit 0 0)
    { made with screen := { made.screen with blitsAsked := made.screen.blitsAsked + 1 } }
  have hsurface : u.host.makeSurface image = (.ok (), made) := by
    rw [Host.makeSurface, hs]
    rfl
  have hblit : made.blit = (.ok (), onScreen) := by
    have hnone : made.screen.refusesBlit made.screen.blitsAsked = none := hlib.blit _
    rw [Host.blit, hnone]
    rfl
  have hflip : onScreen.flip = (.ok (), showing image u.host) := by
    have hnone : onScreen.screen.refusesFlip onScreen.screen.flipsAsked = none := hlib.flip _
    rw [Host.flip, hnone]
    rfl
  rw [run_present hl, onHost_of_ok hsurface, Outcome.andThen_done, Outcome.after_nil,
    onHost_of_ok (u := { u with host := made }) hblit, Outcome.andThen_done, Outcome.after_nil]
  exact onHost_of_ok (u := { u with host := onScreen }) hflip

theorem present_of_refused {image : Image} (hl : u.host.loadable = true) {e : LibraryError}
    (hs : u.host.screen.refusesSurface image.pixels.size image.width image.height = some e) :
    (present image).run u = .failed (.library e) u [] := by
  have hsurface : u.host.makeSurface image = (.error (.library e), u.host) := by
    rw [Host.makeSurface, hs]
    rfl
  rw [run_present hl, onHost, hsurface]
  rfl

theorem draw_of_ne (hscreen : u.hasScreen = true) (h : u.lastFrame ≠ some grid) :
    draw grid u =
      match Image.render u.host.room u.palette grid u.config.scale with
      | .error e => .failed e { u with lastFrame := some grid } []
      | .ok image => (present image).run { u with lastFrame := some grid } := by
  unfold draw
  exact if_neg (by simpa [hscreen] using h)

/-- A picture that can be shown and differs from what is noted is shown. -/
theorem draw_of_canShow (hscale : 0 < u.config.scale) (hscreen : u.hasScreen = true)
    (hlib : u.host.screen.Dependable) (hgrid : grid ≠ []) (h : u.lastFrame ≠ some grid)
    (hshow : u.CanShow grid) :
    draw grid u = .done ()
      { u with host := showing (u.imageOf grid) u.host, lastFrame := some grid } [] := by
  obtain ⟨hl, hfits, hs⟩ := hshow
  rw [← Image.size_ofGrid u.palette] at hs
  rw [draw_of_ne hscreen h, Image.render_of_fits hscale hgrid hfits]
  exact present_of_willing (u := { u with lastFrame := some grid }) hl hlib hs

/-- A picture that cannot be shown and differs from what is noted is noted all the same. -/
theorem draw_of_not_canShow (hscale : 0 < u.config.scale) (hscreen : u.hasScreen = true)
    (hgrid : grid ≠ []) (h : u.lastFrame ≠ some grid) (hshow : ¬ u.CanShow grid) :
    ∃ e, draw grid u = .failed e { u with lastFrame := some grid } [] := by
  rw [draw_of_ne hscreen h]
  by_cases hfits : Image.Fits u.host.room grid u.config.scale
  · rw [Image.render_of_fits hscale hgrid hfits]
    cases hl : u.host.loadable with
    | false =>
      refine ⟨.libraryMissing .surface, (Action.bind_of_done (Action.run_get _)).trans ?_⟩
      rw [hl]
      rfl
    | true =>
      obtain ⟨e, he⟩ := Option.ne_none_iff_exists'.mp fun hs => hshow ⟨hl, hfits, hs⟩
      rw [← Image.size_ofGrid u.palette] at he
      exact ⟨.library e, present_of_refused (u := { u with lastFrame := some grid }) hl he⟩
  · obtain ⟨e, he, -⟩ : ∃ e, Image.render u.host.room u.palette grid u.config.scale = .error e ∧ _ :=
      Image.render_of_not_fits hscale hgrid hfits
    rw [he]
    exact ⟨e, rfl⟩

/-! ## Pictures in turn -/

/-- What happens to the interface between two looks at the window. -/
inductive Showing where
  | draw (grid : Grid)
  /-- The picture given last is changed. -/
  | alter (grid : Grid)
  deriving DecidableEq

namespace Showing

def act : Showing → Action Ui Unit
  | draw grid => Ui.draw grid
  | alter grid => modify (alterLast grid)

/-- What is noted behind it. -/
def noted (last : Option Grid) : Showing → Option Grid
  | draw grid => some grid
  | alter grid => last.map fun _ => grid

/-- The picture that comes, if it differs from what is noted. -/
def change (last : Option Grid) : Showing → List Grid
  | draw grid => if last = some grid then [] else [grid]
  | alter _ => []

end Showing

/-- The pictures that differ from what is noted when they come, where `last` is noted first. -/
def changes : Option Grid → List Showing → List Grid
  | _, [] => []
  | last, s :: shows => s.change last ++ changes (s.noted last) shows

/-- The pictures that are put into the window. -/
def redrawn (u : Ui) (shows : List Showing) : List Grid :=
  (changes u.lastFrame shows).filter (u.CanShow ·)

/-- Both render pictures in the same way, on libraries that answer in the same way. -/
structure Alike (u v : Ui) : Prop where
  config : v.config = u.config
  palette : v.palette = u.palette
  hasScreen : v.hasScreen = u.hasScreen
  loadable : v.host.loadable = u.host.loadable
  room : v.host.room = u.host.room
  surface : v.host.screen.refusesSurface = u.host.screen.refusesSurface
  blit : v.host.screen.refusesBlit = u.host.screen.refusesBlit
  flip : v.host.screen.refusesFlip = u.host.screen.refusesFlip

namespace Alike

theorem trans {w : Ui} (h : Alike u v) (h' : Alike v w) : Alike u w :=
  ⟨h'.config.trans h.config, h'.palette.trans h.palette, h'.hasScreen.trans h.hasScreen,
    h'.loadable.trans h.loadable, h'.room.trans h.room, h'.surface.trans h.surface,
    h'.blit.trans h.blit, h'.flip.trans h.flip⟩

theorem canShow (h : Alike u v) : v.CanShow grid ↔ u.CanShow grid := by
  rw [CanShow, h.loadable, h.room, h.config, h.surface, CanShow]

theorem imageOf (h : Alike u v) : v.imageOf grid = u.imageOf grid := by
  rw [Ui.imageOf, h.palette, h.config, Ui.imageOf]

theorem dependable (h : Alike u v) (hu : u.host.screen.Dependable) :
    v.host.screen.Dependable :=
  ⟨by rw [h.surface]; exact hu.surface, by rw [h.blit]; exact hu.blit,
    by rw [h.flip]; exact hu.flip⟩

end Alike

/-- What has become of the interface `u` once pictures were put into its window. -/
structure Presented (u : Ui) (grids : List Grid) (t : Ui) : Prop where
  alike : Alike u t
  flips : t.host.display.flips = u.host.display.flips + grids.length
  shown : t.host.display.shown = (grids.getLast?.map u.imageOf).or u.host.display.shown

namespace Presented

/-- Noting a picture puts none into the window. -/
theorem noted (u : Ui) (last : Option Grid) : Presented u [] { u with lastFrame := last } :=
  ⟨⟨rfl, rfl, rfl, rfl, rfl, rfl, rfl, rfl⟩, rfl, rfl⟩

theorem trans {grids more : List Grid} (h : Presented u grids v) (h' : Presented v more t) :
    Presented u (grids ++ more) t := by
  refine ⟨h.alike.trans h'.alike, ?_, ?_⟩
  · rw [h'.flips, h.flips, List.length_append, Nat.add_assoc]
  · have himage : v.imageOf = u.imageOf := funext fun grid => h.alike.imageOf
    rw [h'.shown, h.shown, himage, List.getLast?_append]
    cases more.getLast? <;> rfl

end Presented

theorem redrawn_cons (h : Alike u v) {s : Showing} (hnoted : v.lastFrame = s.noted u.lastFrame)
    (shows : List Showing) : redrawn u (s :: shows) = redrawn u [s] ++ redrawn v shows := by
  have hsame : (fun grid => decide (v.CanShow grid)) = fun grid => decide (u.CanShow grid) :=
    funext fun grid => decide_eq_decide.mpr h.canShow
  simp only [redrawn, changes, List.append_nil, List.filter_append, hnoted, hsame]

/-- Of one picture that comes, the window shows what it has to, and it is noted whatever becomes of
it. -/
theorem presented_act (hscale : 0 < u.config.scale) (hscreen : u.hasScreen = true)
    (hlib : u.host.screen.Dependable) {s : Showing} (hs : ∀ grid, s = .draw grid → grid ≠ []) :
    let t := (s.act.run u).state
    Presented u (redrawn u [s]) t ∧ t.lastFrame = s.noted u.lastFrame := by
  cases s with
  | alter grid => exact ⟨.noted u _, rfl⟩
  | draw grid =>
    have hgrid := hs grid rfl
    show Presented u _ (draw grid u).state ∧ (draw grid u).state.lastFrame = some grid
    by_cases hnoted : u.lastFrame = some grid
    · have hsame : draw grid u = .done () u [] := by
        simp only [draw, hnoted, decide_true, Bool.or_true, if_true]
      have hnone : redrawn u [.draw grid] = [] := by
        simp [redrawn, changes, Showing.change, hnoted]
      rw [hsame, hnone]
      exact ⟨.noted u u.lastFrame, hnoted⟩
    · by_cases hshow : u.CanShow grid
      · have hone : redrawn u [.draw grid] = [grid] := by
          simp [redrawn, changes, Showing.change, hnoted, hshow]
        have hdisplay := display_showing (u.imageOf grid) u.host
        rw [draw_of_canShow hscale hscreen hlib hgrid hnoted hshow, hone]
        exact ⟨⟨⟨rfl, rfl, rfl, rfl, rfl, rfl, rfl, rfl⟩, congrArg Display.flips hdisplay,
          congrArg Display.shown hdisplay⟩, rfl⟩
      · have hnone : redrawn u [.draw grid] = [] := by
          simp [redrawn, changes, Showing.change, hnoted, hshow]
        obtain ⟨e, hdraw⟩ := draw_of_not_canShow hscale hscreen hgrid hnoted hshow
        rw [hdraw, hnone]
        exact ⟨.noted u (some grid), rfl⟩

theorem presented_runAll (hscale : 0 < u.config.scale) (hscreen : u.hasScreen = true)
    (hlib : u.host.screen.Dependable) {shows : List Showing}
    (hshows : ∀ grid, .draw grid ∈ shows → grid ≠ []) :
    Presented u (redrawn u shows) (Action.runAll Showing.act shows u) := by
  induction shows generalizing u with
  | nil => exact .noted u u.lastFrame
  | cons s shows ih =>
    obtain ⟨hone, hnoted⟩ := presented_act hscale hscreen hlib
      fun grid hs => hshows grid (hs ▸ List.mem_cons_self)
    have hrest := ih (hone.alike.config ▸ hscale) (hone.alike.hasScreen.trans hscreen)
      (hone.alike.dependable hlib) fun grid hgrid => hshows grid (List.mem_cons_of_mem s hgrid)
    rw [redrawn_cons hone.alike hnoted]
    exact hone.trans hrest

/-- As long as nobody changes a picture that was given, what is noted last came last. -/
theorem getLast?_changes (last : Option Grid) (grids : List Grid) :
    (changes last (grids.map .draw)).getLast?.or last = grids.getLast?.or last := by
  induction grids generalizing last with
  | nil => rfl
  | cons grid grids ih =>
    have hrest := ih (some grid)
    rw [List.map_cons, changes, List.getLast?_append, List.getLast?_cons, Option.or_assoc]
    simp only [Showing.change, Showing.noted, Option.some_or]
    split
    · next h =>
      subst h
      rw [List.getLast?_nil, Option.none_or, hrest]
      cases grids.getLast? <;> rfl
    · rw [List.getLast?_singleton, Option.some_or, hrest]
      cases grids.getLast? <;> rfl

/-- A library that makes surfaces only of as many bytes as their size takes. -/
def strictScreen : Screen where
  refusesSurface bytes width height :=
    if bytes = 3 * width * height ∧ 0 < width ∧ 0 < height ∧ bytes ≤ 0x7FFFFFFF then none
    else some (.values "Buffer length does not equal format and resolution size")
  refusesBlit _ := none
  refusesFlip _ := none
  blitsAsked := 0
  flipsAsked := 0

theorem dependable_strictScreen : strictScreen.Dependable :=
  ⟨fun _ _ hw hh hbytes => if_pos ⟨rfl, hw, hh, hbytes⟩, fun _ => rfl, fun _ => rfl⟩

/-- A picture that is changed where it is noted comes again: the window still shows what it was. -/
theorem not_shown_of_altered :
    ∃ u, create { scale := 1 } { Host.absent with loadable := true } = .ok u ∧
      let v := u.setMode 64 32 false
      let t := Action.runAll Showing.act [.draw [[0]], .alter [[1]], .draw [[1]]] v
      t.host.display.shown = some (v.imageOf [[0]]) ∧ v.imageOf [[0]] ≠ v.imageOf [[1]] ∧
        t.host.display.flips = 1 :=
  ⟨_, rfl, by decide +kernel, by decide +kernel, by decide +kernel⟩

end Ui

end Chip8
