import Chip8.Error

/-!
# Code points

A number may stand for a character. The surrogates do not: a text that was put together from numbers
can hold them, but it has no encoding and cannot be printed (`encode`).
-/

namespace Chip8.Text

inductive CodePoint where
  | char (c : Char)
  /-- The code point `0xD800 + offset`. -/
  | surrogate (offset : Fin 0x800)
  deriving DecidableEq, Repr

namespace CodePoint

def ofNat (n : Nat) : CodePoint :=
  if h : 0xD800 ≤ n ∧ n < 0xE000 then .surrogate ⟨n - 0xD800, by omega⟩ else .char (.ofNat n)

def char? : CodePoint → Option Char
  | char c => some c
  | surrogate _ => none

end CodePoint

/-- The code points of characters. -/
def codePoints (cs : List Char) : List CodePoint := cs.map .char

/-- The characters of a text that starts at a place of the output. If there are surrogates, the
first ones that follow each other are to blame. -/
def encode (place : Nat) (ps : List CodePoint) : Except Error (List Char) :=
  match ps.dropWhile (·.char?.isSome) with
  | .surrogate offset :: rest =>
    let first := place + (ps.takeWhile (·.char?.isSome)).length
    .error (.unencodable (0xD800 + offset) first
      (first + (rest.takeWhile (·.char?.isNone)).length))
  | _ => .ok (ps.filterMap CodePoint.char?)

theorem codePoints_append (cs ds : List Char) :
    codePoints (cs ++ ds) = codePoints cs ++ codePoints ds :=
  List.map_append

theorem encode_codePoints (place : Nat) (cs : List Char) :
    encode place (codePoints cs) = .ok cs := by
  have hnone : (codePoints cs).dropWhile (·.char?.isSome) = [] := by
    induction cs with
    | nil => rfl
    | cons c cs ih => exact ih
  have hall : (codePoints cs).filterMap CodePoint.char? = cs := by
    simp [codePoints, List.filterMap_map, Function.comp_def, CodePoint.char?]
  rw [encode, hnone, hall]

/-- What can be encoded is made of characters. -/
theorem eq_codePoints_of_encode_ok {place : Nat} {ps : List CodePoint} {cs : List Char}
    (h : encode place ps = .ok cs) : ps = codePoints cs := by
  have hall : ∀ qs : List CodePoint, (∀ offset rest,
      qs.dropWhile (·.char?.isSome) ≠ .surrogate offset :: rest) →
      qs = codePoints (qs.filterMap CodePoint.char?) := by
    intro qs hqs
    induction qs with
    | nil => rfl
    | cons q qs ih =>
      cases q with
      | surrogate offset => exact absurd rfl (hqs offset qs)
      | char c => exact congrArg (CodePoint.char c :: ·) (ih hqs)
  unfold encode at h
  split at h
  · cases h
  · next hps =>
    cases h
    exact hall ps hps

/-- What cannot be encoded holds a surrogate. -/
theorem surrogate_mem_of_encode_error {place : Nat} {ps : List CodePoint} {e : Error}
    (h : encode place ps = .error e) :
    ∃ (offset : Fin 0x800) (first last : Nat),
      e = .unencodable (0xD800 + offset) first last ∧ .surrogate offset ∈ ps := by
  unfold encode at h
  split at h
  · next offset rest hps =>
    have hmem : .surrogate offset ∈ ps.dropWhile (·.char?.isSome) := hps ▸ List.mem_cons_self
    exact ⟨offset, _, _, (Except.error.inj h).symm, (List.dropWhile_suffix _).mem hmem⟩
  · cases h

end Chip8.Text
