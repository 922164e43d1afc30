import Chip8.Proofs.Failures
import Chip8.Text.Message

/-!
# Messages that can be written

A message that its values do not fit is written all the same, with the values behind it. Writing
fails only where a number is too great for its directive, for a width or for a precision, where
there is no room for a field, or where the values have to be listed and one of them cannot be
written (`compose_error`). A directive is tame for a value if none of this can happen
(`Directive.tame`), and a message whose directives are tame for their values can be written and
printed if the values can be, whether they fit or not (`compose_of_tame`).
-/

namespace Chip8.Text

/-- The value can be put in base ten: only a number with decimals may have no whole part. -/
def Value.isDouble : Value → Bool
  | .double _ => true
  | _ => false

/-- The width is written out and there is room for a field of it. -/
def Measure.tame (room : Room) : Measure → Bool
  | .digits n => n ≤ room.cells
  | .ofValue => false

/-- Neither the measures of the directive nor the value make it fail. -/
def Directive.tame (room : Room) (d : Directive) (v : Value) : Bool :=
  d.width.all (Measure.tame room) && d.precision.isNone &&
    match d.letter with
    | some 's' | some 'x' | some 'X' => true
    | some 'd' => !v.isDouble
    | _ => false

/-- Each directive has a value, for which it is tame. -/
def tame (room : Room) : List Piece → List Value → Bool
  | .literal _ :: ps, vs => tame room ps vs
  | .directive d :: ps, v :: vs => d.tame room v && tame room ps vs
  | .directive _ :: _, [] => false
  | [], _ => true

/-- The field is made of characters. -/
def Content.IsPlain : Content → Prop
  | codePoint _ => False
  | _ => True

theorem write_of_isPlain {f : Field} (h : f.content.IsPlain) : ∃ cs, f.write = codePoints cs := by
  obtain ⟨flags, width, content⟩ := f
  cases content with
  | codePoint p => exact h.elim
  | text | whole | point | unending => exact ⟨_, rfl⟩

theorem write_of_allPlain {fields : List Field} (h : ∀ f ∈ fields, f.content.IsPlain) :
    ∃ cs, fields.flatMap Field.write = codePoints cs := by
  induction fields with
  | nil => exact ⟨[], rfl⟩
  | cons f fields ih =>
    obtain ⟨hf, hfields⟩ := List.forall_mem_cons.mp h
    obtain ⟨cs, hcs⟩ := write_of_isPlain hf
    obtain ⟨ds, hds⟩ := ih hfields
    exact ⟨cs ++ ds, by rw [List.flatMap_cons, hcs, hds, codePoints_append]⟩

/-- It may be that values do not fit, but nothing else goes wrong, and `P` holds of what comes
out. -/
def Settles {α : Type} (P : α → Prop) : Except Trouble α → Prop
  | .ok a => P a
  | .error t => t = .misfit

theorem Settles.bind {α β : Type} {P : α → Prop} {Q : β → Prop} {r : Except Trouble α}
    {next : α → Except Trouble β} (h : Settles P r) (hn : ∀ a, P a → Settles Q (next a)) :
    Settles Q (r >>= next) := by
  cases r with
  | error t => exact h
  | ok a => exact hn a h

theorem settles_needNumber (v : Value) : Settles (fun _ => True) (needNumber v) := by
  unfold needNumber
  split
  · exact trivial
  · exact rfl

theorem needWhole_eq {v : Value} (h : v.isDouble = false) : needWhole v = needNumber v := by
  cases v with
  | double x => cases h
  | _ => rfl

theorem settles_needInBase {letter : Char} {v : Value}
    (h : isOtherBase letter = true ∨ v.isDouble = false) :
    Settles (fun _ => True) (needInBase letter v) := by
  unfold needInBase
  split
  · exact settles_needNumber v
  · next hten =>
    rw [needWhole_eq (h.resolve_left hten)]
    exact settles_needNumber v

theorem settles_textContent (cs : List Char) (v : Value) :
    Settles Content.IsPlain (textContent none cs v) := by
  unfold textContent
  split
  · exact trivial
  · exact rfl

variable {room : Room}

theorem needSpace_eq_ok {cells : Nat} (h : cells ≤ room.cells) : needSpace room cells = .ok () := by
  rw [needSpace, (needRoom_eq_ok_iff room cells).mpr h]
  rfl

/-- Without a precision there is no least number of digits to fail for. -/
theorem settles_wholeContent (letter : Char) {v : Value}
    (h : isOtherBase letter = true ∨ v.isDouble = false) :
    Settles Content.IsPlain (wholeContent room none letter v) := by
  refine (settles_needInBase h).bind fun n _ => ?_
  simp only [Option.getD_none, Nat.not_lt_zero, if_false, needSpace_eq_ok (Nat.zero_le room.cells)]
  split
  · exact rfl
  · exact trivial

theorem settles_content {d : Directive} {v : Value} {letter : Char} (h : d.tame room v = true)
    (hl : d.letter = some letter) : Settles Content.IsPlain (content room none letter v) := by
  simp only [Directive.tame, hl, Bool.and_eq_true] at h
  obtain ⟨-, h⟩ := h
  split at h
  · rename_i heq
    cases heq
    exact settles_textContent v.plain v
  · rename_i heq
    cases heq
    exact settles_wholeContent 'x' (.inl rfl)
  · rename_i heq
    cases heq
    exact settles_wholeContent 'X' (.inl rfl)
  · rename_i heq
    cases heq
    exact settles_wholeContent 'd' (.inr (by simpa using h))
  · cases h

theorem measured_of_tame {m : Option Measure} (h : m.all (Measure.tame room) = true)
    (values : List Value) : ∃ width : Option Int, (width.getD 0).natAbs ≤ room.cells ∧
      measured greatestCount .widthTooGreat m values = .ok (width, values) := by
  have hmost := room.most
  cases m with
  | none => exact ⟨none, Nat.zero_le _, rfl⟩
  | some m =>
    cases m with
    | ofValue => cases h
    | digits n =>
      have hn : n ≤ room.cells := by simpa [Measure.tame] using h
      refine ⟨some n, by simpa using hn, ?_⟩
      simp only [measured]
      rw [if_neg (by omega)]

/-- A tame directive takes one value, if that value fits. -/
theorem settles_field {d : Directive} {v : Value} (h : d.tame room v = true) (vs : List Value) :
    Settles (fun taken => taken.1.content.IsPlain ∧ taken.2 = vs) (d.field room (v :: vs)) := by
  have hm : d.width.all (Measure.tame room) = true ∧ d.precision = none := by
    simp only [Directive.tame, Bool.and_eq_true, Option.isNone_iff_eq_none] at h
    exact h.1
  obtain ⟨width, hroom, hwidth⟩ := measured_of_tame hm.1 (v :: vs)
  have hle : ¬ greatestCount < (width.getD 0).natAbs := by
    have hmost := room.most
    omega
  unfold Directive.field
  rw [hwidth, hm.2]
  cases hl : d.letter with
  | none => exact rfl
  | some letter =>
    refine (settles_content h hl).bind fun c hc => ?_
    simp only [hle, if_false, needSpace_eq_ok hroom]
    exact ⟨hc, rfl⟩

theorem settles_fill {ps : List Piece} {vs : List Value} (h : tame room ps vs = true) :
    Settles (fun fields => ∀ f ∈ fields, f.content.IsPlain) (fill room ps vs) := by
  induction ps generalizing vs with
  | nil =>
    cases vs with
    | nil => exact List.forall_mem_nil _
    | cons v vs => exact rfl
  | cons p ps ih =>
    cases p with
    | literal c =>
      simp only [tame] at h
      exact (ih h).bind fun _ hfields => List.forall_mem_cons.mpr ⟨trivial, hfields⟩
    | directive d =>
      cases vs with
      | nil => cases h
      | cons v vs =>
        simp only [tame, Bool.and_eq_true] at h
        obtain ⟨hd, hps⟩ := h
        refine (settles_field hd vs).bind fun (f, rest) ⟨hf, hrest⟩ => ?_
        obtain rfl : rest = vs := hrest
        exact (ih hps).bind fun _ hfields => List.forall_mem_cons.mpr ⟨hf, hfields⟩

theorem compose_of_tame {message : String} {values : List Value}
    (h : tame room (pieces message.toList) values = true)
    (hwritable : values.all Value.isWritable = true) :
    ∃ text, compose room message values = .ok (codePoints text) := by
  have hf := settles_fill h
  unfold compose
  split
  · exact ⟨_, rfl⟩
  · split
    · next fields hfields =>
      rw [hfields] at hf
      obtain ⟨cs, hcs⟩ := write_of_allPlain hf
      exact ⟨cs, by rw [hcs]⟩
    · exact ⟨_, rfl⟩
    · next e he =>
      rw [he] at hf
      cases hf

/-! ## Messages that cannot be written -/

/-- A number is too great for what it is needed for, or there is no room. A misfit is no failure. -/
def Trouble.IsExcess : Trouble → Prop
  | misfit => True
  | failed e => e.isExcess = true ∨ e = .noRoom

theorem excess_needNumber (v : Value) : FailsWith Trouble.IsExcess (needNumber v) := by
  unfold needNumber
  split
  · exact .ok
  · exact .error trivial

theorem excess_needWhole (v : Value) : FailsWith Trouble.IsExcess (needWhole v) := by
  unfold needWhole
  split
  · split
    · exact .ok
    · split
      · exact .error trivial
      · exact .error (.inl rfl)
  · exact excess_needNumber _

theorem excess_needInBase (letter : Char) (v : Value) :
    FailsWith Trouble.IsExcess (needInBase letter v) := by
  unfold needInBase
  split
  · exact excess_needNumber v
  · exact excess_needWhole v

theorem excess_needSpace (room : Room) (cells : Nat) :
    FailsWith Trouble.IsExcess (needSpace room cells) := by
  unfold needSpace needRoom findRoom
  split
  · exact .error (.inl rfl)
  · split
    · exact .error (.inr rfl)
    · exact .ok

theorem excess_textContent (precision : Option Nat) (cs : List Char) (v : Value) :
    FailsWith Trouble.IsExcess (textContent precision cs v) := by
  unfold textContent
  split
  · exact .ok
  · exact .error trivial

theorem excess_wholeContent (room : Room) (precision : Option Nat) (letter : Char) (v : Value) :
    FailsWith Trouble.IsExcess (wholeContent room precision letter v) := by
  refine (excess_needInBase letter v).bind fun n => ?_
  simp only
  split
  · exact .error (.inl rfl)
  · split
    · exact .error trivial
    · exact (excess_needSpace room _).bind fun _ => .ok

theorem excess_needDouble (v : Value) : FailsWith Trouble.IsExcess (needDouble v) := by
  unfold needDouble
  split
  · exact .ok
  · refine (excess_needNumber _).bind fun n => ?_
    split
    · exact .ok
    · exact .error (.inl rfl)

theorem excess_pointContent (room : Room) (precision : Option Nat) (letter : Char) (v : Value) :
    FailsWith Trouble.IsExcess (pointContent room precision letter v) := by
  refine (excess_needDouble v).bind fun x => ?_
  split
  · exact .ok
  · exact (excess_needSpace room _).bind fun _ => .ok

theorem excess_characterContent (v : Value) :
    FailsWith Trouble.IsExcess (characterContent v) := by
  unfold characterContent
  split
  · split
    · exact .ok
    · exact .error trivial
  · refine (excess_needNumber _).bind fun n => ?_
    split
    · exact .error (.inl rfl)
    · exact .ok

theorem excess_content (room : Room) (precision : Option Nat) (letter : Char) (v : Value) :
    FailsWith Trouble.IsExcess (content room precision letter v) := by
  unfold content
  split
  any_goals exact excess_textContent precision _ v
  · exact excess_characterContent v
  any_goals exact excess_wholeContent room precision _ v
  any_goals exact excess_pointContent room precision _ v
  exact .error trivial

theorem excess_nextValue (values : List Value) :
    FailsWith Trouble.IsExcess (nextValue values) := by
  cases values with
  | nil => exact .error trivial
  | cons v rest => exact .ok

theorem excess_measured (most : Nat) {tooGreat : Error} (h : tooGreat.isExcess = true)
    (m : Option Measure) (values : List Value) :
    FailsWith Trouble.IsExcess (measured most tooGreat m values) := by
  unfold measured
  split
  · exact .ok
  · split
    · exact .error trivial
    · exact .ok
  · refine (excess_nextValue values).bind fun (v, rest) => ?_
    refine (excess_needNumber v).bind fun n => ?_
    split
    · exact .error (.inl h)
    · exact .ok

theorem excess_field (room : Room) (d : Directive) (values : List Value) :
    FailsWith Trouble.IsExcess (d.field room values) := by
  refine (excess_measured _ rfl d.width values).bind fun (width, values) => ?_
  refine (excess_measured _ rfl d.precision values).bind fun (precision, values) => ?_
  simp only
  split
  · exact .error trivial
  · refine (excess_nextValue values).bind fun (v, rest) => ?_
    refine (excess_content room _ _ v).bind fun c => ?_
    exact (excess_needSpace room _).bind fun _ => .ok

theorem excess_fill (room : Room) : ∀ (ps : List Piece) (values : List Value),
    FailsWith Trouble.IsExcess (fill room ps values)
  | [], [] => .ok
  | [], _ :: _ => .error trivial
  | .literal _ :: ps, values => (excess_fill room ps values).map _
  | .directive d :: ps, values =>
    (excess_field room d values).bind fun (_, rest) =>
      (excess_fill room ps rest).bind fun _ => .ok

/-- A message fails for numbers that are too great, for want of room and for values that cannot be
written, and for nothing else. -/
theorem compose_error {room : Room} {message : String} {values : List Value} {e : Error}
    (h : compose room message values = .error e) :
    e.isExcess = true ∨ e = .noRoom ∨
      e = .tooManyDigits ∧ ∃ v ∈ values, v.isWritable = false := by
  unfold compose at h
  split at h
  · cases h
  · split at h
    · cases h
    · split at h
      · cases h
      · next hwritable =>
        cases h
        exact .inr (.inr ⟨rfl, by simpa using hwritable⟩)
    · next he =>
      cases h
      have hexcess : e.isExcess = true ∨ e = .noRoom := excess_fill room _ _ _ he
      exact hexcess.imp_right .inl

end Chip8.Text
