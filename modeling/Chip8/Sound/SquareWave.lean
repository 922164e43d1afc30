import Chip8.Error
import Chip8.Number.Double

/-!
# Square waves

One period of a square wave as 16-bit samples, made of its first odd harmonics so that it holds no
tone above half the sample rate. The sums are taken in double precision, lowest harmonic first, and
cut off at the amplitude.
-/

namespace Chip8.SquareWave

open Chip8.Number

/-- The fewest samples of a period. -/
def leastSamples : Int := 32

/-- The most harmonics of a wave. -/
def mostHarmonics : Int := 30

/-- The number pi. -/
def pi : Float := 3.141592653589793

/-- A whole number as a double. -/
def ofWhole (n : Int) : Except Error Float :=
  match nearestDouble n with
  | some x => .ok x
  | none => .error .numberTooGreat

/-- The exact value of a double that is finite. -/
def finite (x : Float) : Except Error Rat :=
  match exactValue x with
  | some r => .ok r
  | none => .error (if x.isNaN then .nanNotWhole else .infinityNotWhole)

/-- How many samples a vibration takes. Two whole numbers are divided exactly and rounded once. -/
def samplesPerVibration (sampleRate : Int) : Scalar → Except Error Float
  | .whole n =>
    if n = 0 then .error .wholeFrequencyZero
    else match nearestDouble (sampleRate / n) with
      | some x => .ok x
      | none => .error .quotientTooGreat
  | .double x => do
    let rate ← ofWhole sampleRate
    if x == 0.0 then throw .frequencyZero
    return rate / x

/-- Twice a number as a double. -/
def twice : Scalar → Except Error Float
  | .whole n => (ofWhole n).map (2.0 * ·)
  | .double x => .ok (2.0 * x)

/-- The number of samples of a period. -/
def periodSamples (sampleRate : Int) (frequency : Scalar) : Except Error Nat := do
  let r ← finite (← samplesPerVibration sampleRate frequency)
  return (max leastSamples (roundEven r)).toNat

/-- The number of harmonics below half the sample rate. -/
def harmonics (sampleRate : Int) (frequency : Scalar) : Except Error Nat := do
  let doubled ← twice frequency
  let rate ← ofWhole sampleRate
  let r ← finite ((rate / doubled + 1.0) / 2.0)
  return (max 1 (min mostHarmonics (truncate r))).toNat

/-- The sum of the first harmonics at a phase. -/
def harmonicSum (count : Nat) (phase : Float) : Float :=
  (List.range count).foldl (fun total n =>
    let k := Float.ofNat (2 * n + 1)
    total + (k * phase).sin / k) 0.0

/-- A value without its decimals, cut off at a bound on either side of zero. A negative bound cuts
everything off, to its opposite. -/
def cutOff (bound : Int) (value : Float) : Int :=
  if isBelow value bound then
    if isAbove value (-bound) then ((exactValue value).map truncate).getD 0 else -bound
  else max (-bound) bound

/-- What is cut off at a bound lies between it and its opposite. -/
theorem cutOff_mem {bound : Int} (h : 0 ≤ bound) (x : Float) :
    -bound ≤ cutOff bound x ∧ cutOff bound x ≤ bound := by
  rw [cutOff]
  split
  next hbelow =>
    split
    next habove =>
      cases hx : exactValue x with
      | none => simp only [Option.map_none, Option.getD_none]; omega
      | some r =>
        simp only [isBelow, isAbove, hx, decide_eq_true_eq] at hbelow habove
        exact truncate_mem (Rat.le_of_lt habove) (Rat.le_of_lt hbelow)
    next => omega
  next => omega

/-- A sample of two bytes. -/
def checkSample (sample : Int) : Except Error Int :=
  if sample < -0x8000000000000000 ∨ 0x8000000000000000 ≤ sample then .error .sampleBeyondWord
  else if sample > 32767 then .error .sampleTooGreat
  else if sample < -32768 then .error .sampleTooSmall
  else .ok sample

/-- What is cut off at a bound of two bytes is a sample of two bytes. -/
theorem checkSample_cutOff {bound : Int} (h : 0 ≤ bound) (hword : bound ≤ 32767) (x : Float) :
    checkSample (cutOff bound x) = .ok (cutOff bound x) := by
  obtain ⟨hlow, hhigh⟩ := cutOff_mem h x
  rw [checkSample, if_neg (by omega), if_neg (by omega), if_neg (by omega)]

/-- The samples of one period. -/
def build (sampleRate : Int) (frequency : Scalar) (amplitude : Int) : Except Error (List Int) := do
  let period ← periodSamples sampleRate frequency
  let count ← harmonics sampleRate frequency
  let scale := 4.0 / pi * (← ofWhole amplitude)
  (List.range period).mapM fun (index : Nat) =>
    let phase := 2.0 * pi * Float.ofNat index / Float.ofNat period
    checkSample (cutOff amplitude (harmonicSum count phase * scale))

/-- All samples pass, so only the measures of a period can be at fault. -/
theorem build_of_isOk {sampleRate amplitude : Int} {frequency : Scalar} (h : 0 ≤ amplitude)
    (hword : amplitude ≤ 32767) (hperiod : (periodSamples sampleRate frequency).isOk = true)
    (hcount : (harmonics sampleRate frequency).isOk = true)
    (hloudness : (ofWhole amplitude).isOk = true) :
    ∃ samples, build sampleRate frequency amplitude = .ok samples := by
  cases hp : periodSamples sampleRate frequency with
  | error e => rw [hp] at hperiod; cases hperiod
  | ok period =>
    cases hc : harmonics sampleRate frequency with
    | error e => rw [hc] at hcount; cases hcount
    | ok count =>
      cases hl : ofWhole amplitude with
      | error e => rw [hl] at hloudness; cases hloudness
      | ok loudness =>
        simp only [build, hp, hc, hl, checkSample_cutOff h hword, bind, Except.bind]
        exact ⟨_, List.mapM_pure⟩

end Chip8.SquareWave
