import Chip8.App.Ui
import Chip8.Proofs.Machine.RefusedKeys
import Chip8.Proofs.Video.Rendering

/-!
# What goes wrong at a host

Readings of devices may be of the wrong kind, a tone may have no samples and a picture no room. None
of this has to do with the keys of a keypad.
-/

namespace Chip8

/-! ## Readings -/

namespace Reading

theorem takesKeys_need (name : String) (part : Option Reading) : TakesKeys (need name part) := by
  cases part <;> exact nofun

theorem takesKeys_compares (comparison : Comparison) (kind : ValueKind) (limit : Rat)
    (r : Reading) : TakesKeys (r.compares comparison kind limit) := by
  unfold compares
  split <;> exact nofun

theorem takesKeys_pair (r : Reading) : TakesKeys r.pair := by
  unfold pair
  split
  · exact nofun
  · exact nofun
  · split <;> exact nofun

theorem takesKeys_index? (r : Reading) (count : Nat) : TakesKeys (r.index? count) := by
  unfold index?
  split
  · exact nofun
  · exact nofun
  · split
    · split <;> exact nofun
    · exact nofun

end Reading

namespace StickInputs

open Reading

theorem takesKeys_pointsTo (axisSide hatSide : Comparison) (axis hat : Reading) :
    TakesKeys (pointsTo axisSide hatSide axis hat) := by
  refine (takesKeys_compares _ _ _ axis).bind fun yes => ?_
  split
  · exact .ok
  · exact takesKeys_compares _ _ _ hat

theorem takesKeys_directions (s : StickInputs) : TakesKeys s.directions :=
  s.hat.takesKeys_pair.bind fun _ => (takesKeys_pointsTo _ _ _ _).bind fun _ =>
    (takesKeys_pointsTo _ _ _ _).bind fun _ => (takesKeys_pointsTo _ _ _ _).bind fun _ =>
      (takesKeys_pointsTo _ _ _ _).bind fun _ => .ok

theorem takesKeys_button (number : Option Reading) : TakesKeys (button number) := by
  refine (takesKeys_need "button" number).bind fun number => ?_
  split <;> exact nofun

theorem takesKeys_apply (s : StickInputs) (change : StickChange) : TakesKeys (s.apply change) := by
  cases change with
  | removed => exact .ok
  | axis number value =>
    refine (takesKeys_need "axis" number).bind fun number => ?_
    have hvalue := takesKeys_need "value" value
    split
    · exact hvalue.bind fun _ => .ok
    · split
      · exact hvalue.bind fun _ => .ok
      · exact .ok
  | hat position => exact (takesKeys_need "value" position).bind fun _ => .ok
  | buttonDown number => exact (takesKeys_button number).bind fun _ => .ok
  | buttonUp number => exact (takesKeys_button number).bind fun _ => .ok

end StickInputs

theorem Ui.takesKeys_stickToOpen (u : Ui) (wanted : Reading) : TakesKeys (u.stickToOpen wanted) :=
  (Reading.takesKeys_index? _ _).bind fun _ => .ok

/-! ## Tones -/

namespace SquareWave

theorem takesKeys_ofWhole (n : Int) : TakesKeys (ofWhole n) := by
  unfold ofWhole
  split <;> exact nofun

theorem takesKeys_finite (x : Float) : TakesKeys (finite x) := by
  unfold finite
  split
  · exact nofun
  · split <;> exact nofun

theorem takesKeys_samplesPerVibration (sampleRate : Int) (frequency : Number.Scalar) :
    TakesKeys (samplesPerVibration sampleRate frequency) := by
  cases frequency with
  | whole n =>
    simp only [samplesPerVibration]
    split
    · exact nofun
    · split <;> exact nofun
  | double x =>
    refine (takesKeys_ofWhole sampleRate).bind fun rate => ?_
    split <;> exact nofun

theorem takesKeys_twice (frequency : Number.Scalar) : TakesKeys (twice frequency) := by
  cases frequency with
  | whole n => exact (takesKeys_ofWhole n).map _
  | double x => exact .ok

theorem takesKeys_checkSample (sample : Int) : TakesKeys (checkSample sample) := by
  unfold checkSample
  repeat' split
  all_goals exact nofun

theorem takesKeys_build (sampleRate : Int) (frequency : Number.Scalar) (amplitude : Int) :
    TakesKeys (build sampleRate frequency amplitude) := by
  have hperiod : TakesKeys (periodSamples sampleRate frequency) :=
    (takesKeys_samplesPerVibration sampleRate frequency).bind fun _ =>
      (takesKeys_finite _).bind fun _ => .ok
  have hharmonics : TakesKeys (harmonics sampleRate frequency) :=
    (takesKeys_twice frequency).bind fun _ => (takesKeys_ofWhole sampleRate).bind fun _ =>
      (takesKeys_finite _).bind fun _ => .ok
  exact hperiod.bind fun _ => hharmonics.bind fun _ => (takesKeys_ofWhole amplitude).bind fun _ =>
    .mapM (fun _ => takesKeys_checkSample _) _

end SquareWave

namespace Beeper

theorem takesKeys_withSound (b : Beeper) (h : Host) : TakesKeys (b.withSound h).1 := by
  have hsamples : TakesKeys b.samples := by
    unfold samples
    split
    · exact .ok
    · exact (SquareWave.takesKeys_build _ _ _).map _
  unfold withSound
  split
  · exact .ok
  · split
    · rename_i e he
      exact hsamples.of_error he
    · exact .ok
    · exact .ok

theorem takesKeys_setState (on : Bool) (b : Beeper) (h : Host) :
    TakesKeys (b.setState on h).1 := by
  unfold setState
  split
  · exact .ok
  · split
    · exact .ok
    · have hsound := b.takesKeys_withSound h
      unfold start
      simp only
      split <;> exact hsound

end Beeper

/-! ## Pictures -/

theorem LacksRoom.takesKeys {α : Type} {r : Except Error α} (h : LacksRoom r) : TakesKeys r :=
  fun _ he => absurd (h _ he) Bool.false_ne_true

namespace Image

theorem takesKeys_render (room : Room) (palette : Palette) (grid : Grid) (scale : Int) :
    TakesKeys (render room palette grid scale) := by
  unfold render
  split
  · exact nofun
  · split
    · exact nofun
    · have hlacks : LacksRoom (grid.foldlM (addRow room palette scale.toNat) .empty) :=
        FailsWith.foldlM (lacksRoom_addRow room palette scale.toNat) grid .empty
      exact hlacks.takesKeys.bind fun _ => .ok

end Image

theorem Host.takesKeys_callUnless (refused : Option LibraryError) (c : HostCall) (h : Host) :
    TakesKeys (h.callUnless refused c).1 := by
  cases refused with
  | some e => exact .error (by simp)
  | none => exact .ok

end Chip8
