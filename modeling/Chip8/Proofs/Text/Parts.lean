import Chip8.Text.Blank
import Mathlib.Data.List.DropRight
import Mathlib.Data.List.Infix
import Mathlib.Data.List.TakeWhile

/-!
# Parts of a text

Cutting a text at its separators gives its parts: the stretches without a separator between two of
them, where the ends of the text count as separators (`mem_splitAll_iff`). Trimming a text takes
away blanks at its ends, and no more can be taken away (`trim_eq_iff`).
-/

namespace Chip8.Text

/-! ## Parts between separators -/

/-- `part` holds no separator, and in `cs` it stands between two, once there is one at either
end. -/
structure IsPart (sep : Char) (cs part : List Char) : Prop where
  whole : sep ∉ part
  bounded : sep :: part ++ [sep] <:+: sep :: cs ++ [sep]

variable {sep : Char} {cs part : List Char}

/-- Behind a separator the text can only go on with the empty part. -/
theorem prefix_separator_iff (h : sep ∉ part) (rest : List Char) :
    part ++ [sep] <+: sep :: rest ↔ part = [] := by
  cases part with
  | nil => simp
  | cons c part =>
    have hc : c ≠ sep := by
      rintro rfl
      exact h (List.mem_cons_self ..)
    simp [List.cons_prefix_cons, hc]

theorem splitAll_cons_of_ne {c : Char} (h : c ≠ sep) {first : List Char} {more : List (List Char)}
    (hcs : splitAll sep cs = first :: more) : splitAll sep (c :: cs) = (c :: first) :: more := by
  rw [splitAll, if_neg h, hcs]

/-- The first part begins the text, and every other one stands behind a separator. -/
theorem exists_splitAll_eq (sep : Char) (cs : List Char) :
    ∃ first more, splitAll sep cs = first :: more ∧
      (∀ part, part = first ↔ sep ∉ part ∧ part ++ [sep] <+: cs ++ [sep]) ∧
      ∀ part, part ∈ more ↔ sep ∉ part ∧ sep :: (part ++ [sep]) <:+: cs ++ [sep] := by
  -- A separator starts a new first part; any other character belongs to the first part behind it.
  induction cs with
  | nil =>
    refine ⟨[], [], rfl, fun part => ?_, fun part => ?_⟩
    · rw [List.nil_append]
      constructor
      · rintro rfl
        exact ⟨List.not_mem_nil, List.prefix_rfl⟩
      · rintro ⟨hpart, h⟩
        exact (prefix_separator_iff hpart []).mp h
    · have hlonger : ¬ sep :: (part ++ [sep]) <:+: [] ++ [sep] := fun h => by
        have hlength := h.length_le
        simp at hlength
      simp only [List.not_mem_nil, hlonger, and_false]
  | cons c cs ih =>
    obtain ⟨first, more, hcs, hfirst, hmore⟩ := ih
    by_cases hc : c = sep
    · subst hc
      have hsplit : splitAll c (c :: cs) = [] :: first :: more := by
        rw [splitAll, if_pos rfl, hcs]
      refine ⟨[], first :: more, hsplit, fun part => ?_, fun part => ?_⟩
      · constructor
        · rintro rfl
          exact ⟨List.not_mem_nil, by simp⟩
        · rintro ⟨hpart, h⟩
          exact (prefix_separator_iff hpart _).mp h
      · rw [List.cons_append, List.infix_cons_iff, List.cons_prefix_cons, List.mem_cons,
          hfirst, hmore]
        tauto
    · refine ⟨c :: first, more, splitAll_cons_of_ne hc hcs, fun part => ?_, fun part => ?_⟩
      · rw [List.cons_append]
        cases part with
        | nil => simp [List.cons_prefix_cons, Ne.symm hc]
        | cons d part =>
          rw [List.cons_append, List.cons_prefix_cons, List.cons.injEq, hfirst, List.mem_cons]
          constructor
          · rintro ⟨rfl, hpart, h⟩
            exact ⟨fun hm => hm.elim (Ne.symm hc) hpart, rfl, h⟩
          · rintro ⟨hpart, rfl, h⟩
            exact ⟨rfl, fun hm => hpart (.inr hm), h⟩
      · rw [List.cons_append, List.infix_cons_iff, List.cons_prefix_cons, hmore]
        simp [Ne.symm hc]

/-- The pieces of a text are its parts. -/
theorem mem_splitAll_iff : part ∈ splitAll sep cs ↔ IsPart sep cs part := by
  obtain ⟨first, more, hcs, hfirst, hmore⟩ := exists_splitAll_eq sep cs
  rw [hcs, List.mem_cons, hfirst, hmore]
  constructor
  · rintro (⟨hpart, h⟩ | ⟨hpart, h⟩)
    · exact ⟨hpart, List.infix_cons_iff.mpr (.inl (List.cons_prefix_cons.mpr ⟨rfl, h⟩))⟩
    · exact ⟨hpart, List.infix_cons_iff.mpr (.inr h)⟩
  · rintro ⟨hpart, h⟩
    rcases List.infix_cons_iff.mp h with h | h
    · exact .inl ⟨hpart, (List.cons_prefix_cons.mp h).2⟩
    · exact .inr ⟨hpart, h⟩

/-! ## Blanks at the ends -/

/-- `word` is `cs` without blanks at its ends, and has none itself. -/
def IsTrimmed (blank : Char → Bool) (cs word : List Char) : Prop :=
  ∃ left right, cs = left ++ word ++ right ∧ (∀ c ∈ left ++ right, blank c = true) ∧
    (∀ c ∈ word.head?, blank c = false) ∧ ∀ c ∈ word.getLast?, blank c = false

variable {blank : Char → Bool} {word : List Char}

theorem trim_eq (blank : Char → Bool) (cs : List Char) :
    trim blank cs = (cs.dropWhile blank).rdropWhile blank := rfl

theorem isTrimmed_trim (blank : Char → Bool) (cs : List Char) :
    IsTrimmed blank cs (trim blank cs) := by
  have hleft : cs.takeWhile blank ++ cs.dropWhile blank = cs := List.takeWhile_append_dropWhile
  have hright : trim blank cs ++ (cs.dropWhile blank).rtakeWhile blank = cs.dropWhile blank :=
    List.rdropWhile_append_rtakeWhile
  refine ⟨cs.takeWhile blank, (cs.dropWhile blank).rtakeWhile blank, ?_, ?_, ?_, ?_⟩
  · rw [List.append_assoc, hright, hleft]
  · intro c hc
    rcases List.mem_append.mp hc with hc | hc
    · exact List.mem_takeWhile_imp hc
    · exact List.mem_rtakeWhile_imp hc
  · intro c hc
    have hhead : (cs.dropWhile blank).head? = some c := by
      rw [← hright, List.head?_append, Option.mem_def.mp hc]
      rfl
    have hnot := List.head?_dropWhile_not blank cs
    rw [hhead] at hnot
    exact hnot
  · intro c hc
    have hne : trim blank cs ≠ [] := by
      intro h
      rw [h] at hc
      cases hc
    have hlast := List.rdropWhile_last_not blank (cs.dropWhile blank) hne
    rw [List.getLast?_eq_some_getLast hne] at hc
    cases hc
    exact eq_false_of_ne_true hlast

theorem trim_of_isTrimmed (h : IsTrimmed blank cs word) : trim blank cs = word := by
  obtain ⟨left, right, rfl, hblank, hhead, hlast⟩ := h
  have hleft : ∀ c ∈ left, blank c = true := fun c hc => hblank c (List.mem_append_left _ hc)
  have hright : ∀ c ∈ right, blank c = true := fun c hc => hblank c (List.mem_append_right _ hc)
  rw [trim_eq, List.append_assoc, List.dropWhile_append_of_pos hleft]
  cases word with
  | nil =>
    rw [List.nil_append, List.dropWhile_eq_nil_iff.mpr hright]
    rfl
  | cons c word =>
    have hc : ¬ blank c = true := by simp [hhead c rfl]
    have hreversed : ∀ d ∈ right.reverse, blank d = true := fun d hd =>
      hright d (List.mem_reverse.mp hd)
    rw [List.cons_append, List.dropWhile_cons_of_neg hc, ← List.cons_append, List.rdropWhile,
      List.reverse_append, List.dropWhile_append_of_pos hreversed]
    refine List.rdropWhile_eq_self_iff.mpr fun hne => ?_
    simp [hlast _ (List.getLast?_eq_some_getLast hne)]

theorem trim_eq_iff : trim blank cs = word ↔ IsTrimmed blank cs word :=
  ⟨fun h => h ▸ isTrimmed_trim blank cs, trim_of_isTrimmed⟩

end Chip8.Text
