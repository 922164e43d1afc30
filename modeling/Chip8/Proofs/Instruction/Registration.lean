import Chip8.Instruction.Table

/-!
# Registering instructions

An instruction is registered by counting its operand bits down, masked by the bits of the pattern.
This finds every word that the pattern fits, once and from the greatest down, so that it comes to
the same as looking at all words (`register_eq_registerBelow`). It stops above zero exactly where a
word is taken (`exists_registered`).

* `InstructionTable.registerAll_cases`: instructions are registered in turn as long as no two of
  them share a word. The first one that shares words with earlier ones fails at the greatest such
  word.
* `InstructionTable.build_iff_pairwise_apart`: hence a table is built from exactly the lists of
  which no two entries share a word, and it gives a word the entry that fits it.
-/

namespace Chip8

/-! ## Bits -/

theorem or_eq_add_of_and_eq_zero {a b : Nat} (h : a &&& b = 0) : a ||| b = a + b := by
  induction a using Nat.strongRecOn generalizing b with
  | ind a ih =>
    by_cases ha : a = 0
    · rw [ha, Nat.zero_or, Nat.zero_add]
    have hhalf : a / 2 ||| b / 2 = a / 2 + b / 2 := by
      refine ih (a / 2) (by omega) ?_
      rw [← Nat.and_div_two, h]
    have hor := Nat.or_div_two (a := a) (b := b)
    have hlast := Nat.or_mod_two_eq_one (a := a) (b := b)
    have hand := Nat.and_mod_two_eq_one (a := a) (b := b)
    rw [h] at hand
    omega

/-- Counting down and masking finds the next smaller number that has bits of the mask alone. -/
theorem le_pred_and_of_lt {mask a b : Nat} (ha : a &&& mask = a) (hb : b &&& mask = b)
    (h : b < a) : b ≤ (a - 1) &&& mask := by
  induction a using Nat.strongRecOn generalizing mask b with
  | ind a ih =>
    have hahalf : a / 2 &&& mask / 2 = a / 2 := by rw [← Nat.and_div_two, ha]
    have hbhalf : b / 2 &&& mask / 2 = b / 2 := by rw [← Nat.and_div_two, hb]
    have hdiv := Nat.and_div_two (a := a - 1) (b := mask)
    by_cases hodd : a % 2 = 1
    · -- only the last bit goes
      have hpred : (a - 1) / 2 = a / 2 := by omega
      rw [hpred, hahalf] at hdiv
      omega
    · have hpred : (a - 1) / 2 = a / 2 - 1 := by omega
      have hle : b / 2 ≤ a / 2 - 1 &&& mask / 2 :=
        ih (a / 2) (by omega) hahalf hbhalf (by omega)
      rw [hpred] at hdiv
      have hlast := Nat.and_mod_two_eq_one (a := a - 1) (b := mask)
      have hbit := Nat.and_mod_two_eq_one (a := b) (b := mask)
      rw [hb] at hbit
      omega

theorem lowWord_of_lt {word : Nat} (h : word < wordCount) : lowWord word = word := by
  have : word < 0x10000 := h
  unfold lowWord
  omega

/-! ## Words of a pattern -/

namespace Instruction

variable {i j : Instruction} {w a : Nat}

theorem fits_iff {i : Instruction} {word : Nat} : i.fits word = true ↔ word &&& i.mask = i.value :=
  decide_eq_true_iff

theorem free_lt (i : Instruction) : i.free < wordCount :=
  Nat.xor_lt_two_pow (n := 16) i.mask_lt (by decide)

theorem testBit_free (i : Instruction) (n : Nat) :
    i.free.testBit n = (decide (n < 16) && !i.mask.testBit n) := by
  have hs : (0xFFFF : Nat).testBit n = decide (n < 16) := Nat.testBit_two_pow_sub_one 16 n
  rw [free, Nat.testBit_xor, hs]
  by_cases hn : n < 16
  · simp [hn]
  · have hpow : 2 ^ 16 ≤ 2 ^ n := Nat.pow_le_pow_right Nat.two_pos (Nat.le_of_not_lt hn)
    simp [hn, Nat.testBit_lt_two_pow (Nat.lt_of_lt_of_le i.mask_lt hpow)]

theorem mask_and_free (i : Instruction) : i.mask &&& i.free = 0 := by
  refine Nat.eq_of_testBit_eq fun n => ?_
  rw [Nat.testBit_and, testBit_free, Nat.zero_testBit]
  cases i.mask.testBit n <;> simp

theorem value_and_free (i : Instruction) : i.value &&& i.free = 0 := by
  rw [← i.value_and, Nat.and_assoc, mask_and_free, Nat.and_zero]

theorem mask_or_free (i : Instruction) : i.mask ||| i.free = 0xFFFF := by
  have hand : i.mask &&& 0xFFFF = i.mask :=
    Nat.and_two_pow_sub_one_of_lt_two_pow (n := 16) i.mask_lt
  refine Nat.eq_of_testBit_eq fun n => ?_
  have hs : (0xFFFF : Nat).testBit n = decide (n < 16) := Nat.testBit_two_pow_sub_one 16 n
  have hm : (i.mask.testBit n && decide (n < 16)) = i.mask.testBit n := by
    rw [← hs, ← Nat.testBit_and, hand]
  rw [Nat.testBit_or, testBit_free, hs, ← hm]
  cases i.mask.testBit n <;> simp

/-- A pattern with operand bits is the sum of both. -/
theorem value_or_of_free (ha : a &&& i.free = a) : i.value ||| a = i.value + a := by
  refine or_eq_add_of_and_eq_zero ?_
  rw [← ha, Nat.and_comm a, ← Nat.and_assoc, value_and_free, Nat.zero_and]

theorem fits_value_or (ha : a &&& i.free = a) : i.fits (i.value ||| a) = true := by
  rw [fits_iff, Nat.and_or_distrib_right, i.value_and, ← ha, Nat.and_assoc, Nat.and_comm i.free,
    mask_and_free, Nat.and_zero, Nat.or_zero]

/-- A word that fits is the pattern with its operand bits. -/
theorem eq_value_or_of_fits (hw : w < wordCount) (h : i.fits w = true) :
    w = i.value ||| (w &&& i.free) := by
  have hword : w &&& 0xFFFF = w := Nat.and_two_pow_sub_one_of_lt_two_pow (n := 16) hw
  rw [← fits_iff.mp h, ← Nat.and_or_distrib_left, mask_or_free, hword]

theorem and_free_self (w : Nat) : w &&& i.free &&& i.free = w &&& i.free := by
  rw [Nat.and_assoc, Nat.and_self]

end Instruction

namespace InstructionTable

variable {t : InstructionTable} {i j : Instruction}

/-! ## Tables -/

theorem lookup_put (t : InstructionTable) (i : Instruction) (w : Nat) (word : Int) :
    (t.put w i).lookup word = if lowWord word = w then some i else t.lookup word := by
  have hlt : lowWord word < wordCount := lowWord_lt word
  show (t.entries.setIfInBounds w (some i))[lowWord word] = _
  rw [Vector.getElem_setIfInBounds hlt]
  by_cases hw : w = lowWord word
  · rw [if_pos hw, if_pos hw.symm]
  · rw [if_neg hw, if_neg (Ne.symm hw)]
    rfl

theorem lookup_empty (word : Int) : empty.lookup word = none :=
  Vector.getElem_replicate (lowWord_lt word)

/-! ## Looking at all words -/

/-- Registers an instruction for the words below a bound, looking at each of them. -/
def registerBelow (i : Instruction) :
    Nat → InstructionTable → Except Error Unit × InstructionTable
  | 0, t => (.ok (), t)
  | word + 1, t =>
    if i.fits word then
      match t.lookup word with
      | some other => (.error (.wordTaken word other.mnemonic), t)
      | none => registerBelow i word (t.put word i)
    else registerBelow i word t

/-- Words that the pattern does not fit can be left out. -/
theorem registerBelow_of_not_fits {low high : Nat} (hle : low ≤ high)
    (h : ∀ w, low ≤ w → w < high → ¬ i.fits w = true) :
    registerBelow i high t = registerBelow i low t := by
  induction high with
  | zero => rw [Nat.le_zero.mp hle]
  | succ high ih =>
    rcases Nat.le_succ_iff.mp hle with hlow | rfl
    · rw [registerBelow, if_neg (h high hlow (Nat.lt_succ_self high))]
      exact ih hlow fun w hw hlt => h w hw (Nat.lt_succ_of_lt hlt)
    · rfl

/-- Below a word that fits, the next one has the next operand bits. -/
theorem lt_of_fits_of_lt {a w : Nat} (ha : a &&& i.free = a) (hw : w < wordCount)
    (hfit : i.fits w = true) (hlt : w < i.value ||| a) :
    0 < a ∧ w ≤ i.value ||| i.operandBelow a := by
  have hself := i.and_free_self w
  have hword := Instruction.eq_value_or_of_fits hw hfit
  rw [Instruction.value_or_of_free hself] at hword
  rw [Instruction.value_or_of_free ha] at hlt
  have hbelow : w &&& i.free ≤ i.operandBelow a := le_pred_and_of_lt ha hself (by omega)
  rw [Instruction.operandBelow, Instruction.value_or_of_free (i.and_free_self (a - 1))]
  unfold Instruction.operandBelow at hbelow
  omega

theorem value_or_lt {a : Nat} (ha : a &&& i.free = a) : i.value ||| a < wordCount := by
  have hv : i.value < 0x10000 := by
    rw [← i.value_and]
    exact Nat.lt_of_le_of_lt Nat.and_le_right i.mask_lt
  have hf : a < 0x10000 := by
    rw [← ha]
    exact Nat.lt_of_le_of_lt Nat.and_le_right i.free_lt
  exact Nat.or_lt_two_pow (n := 16) hv hf

theorem registerFrom_eq_registerBelow {a : Nat} (ha : a &&& i.free = a) (t : InstructionTable) :
    registerFrom i a t = registerBelow i ((i.value ||| a) + 1) t := by
  induction a using Nat.strongRecOn generalizing t with
  | ind a ih =>
    have hlt := value_or_lt ha
    rw [registerFrom, registerBelow, if_pos (Instruction.fits_value_or ha)]
    cases hl : t.lookup (i.value ||| a : Nat) with
    | some other => rfl
    | none =>
      simp only
      by_cases hzero : a = 0
      · rw [dif_pos hzero]
        refine (registerBelow_of_not_fits (Nat.zero_le _) fun w _ hw hfit => ?_).symm
        have hpos := (lt_of_fits_of_lt ha (Nat.lt_trans hw hlt) hfit hw).1
        omega
      · have hbelow := i.operandBelow_lt (Nat.pos_of_ne_zero hzero)
        have hself : i.operandBelow a &&& i.free = i.operandBelow a := i.and_free_self (a - 1)
        rw [dif_neg hzero, ih _ hbelow hself]
        refine (registerBelow_of_not_fits ?_ fun w hlow hw hfit => ?_).symm
        · rw [Instruction.value_or_of_free ha, Instruction.value_or_of_free hself]
          omega
        · have hle := (lt_of_fits_of_lt ha (Nat.lt_trans hw hlt) hfit hw).2
          omega

/-- Counting the operand bits down finds the words that looking at all words does. -/
theorem register_eq_registerBelow (t : InstructionTable) (i : Instruction) :
    t.register i = registerBelow i wordCount t := by
  have hself : i.free &&& i.free = i.free := Nat.and_self i.free
  rw [register, registerFrom_eq_registerBelow hself]
  refine (registerBelow_of_not_fits (value_or_lt hself) fun w hlow hw hfit => ?_).symm
  have hword := Instruction.eq_value_or_of_fits hw hfit
  rw [Instruction.value_or_of_free (i.and_free_self w)] at hword
  rw [Instruction.value_or_of_free hself] at hlow
  have hle : w &&& i.free ≤ i.free := Nat.and_le_right
  omega

/-! ## One instruction -/

/-- Registering stops behind a word that is taken, or at the end. -/
theorem exists_registeredBelow (i : Instruction) {bound : Nat} (hb : bound ≤ wordCount)
    (t : InstructionTable) :
    ∃ stop ≤ bound, (∀ w, stop ≤ w → w < bound → i.fits w = true → t.lookup w = none) ∧
      (∀ word, (registerBelow i bound t).2.lookup word =
        if stop ≤ lowWord word ∧ lowWord word < bound ∧ i.fits (lowWord word) = true then some i
        else t.lookup word) ∧
      (stop = 0 ∧ (registerBelow i bound t).1 = .ok () ∨
        ∃ w other, stop = w + 1 ∧ i.fits w = true ∧ t.lookup w = some other ∧
          (registerBelow i bound t).1 = .error (.wordTaken w other.mnemonic)) := by
  induction bound generalizing t with
  | zero => exact ⟨0, Nat.le_refl 0, by omega, by simp [registerBelow], .inl ⟨rfl, rfl⟩⟩
  | succ top ih =>
    have htop : top < wordCount := hb
    have hsplit : ∀ word, lowWord word < top + 1 ↔ lowWord word < top ∨ lowWord word = top := by
      intro word
      omega
    unfold registerBelow
    by_cases hfit : i.fits top = true
    · rw [if_pos hfit]
      cases hl : t.lookup top with
      | some other =>
        refine ⟨top + 1, Nat.le_refl _, by omega, fun word => ?_,
          .inr ⟨top, other, rfl, hfit, hl, rfl⟩⟩
        rw [if_neg (by omega)]
      | none =>
        obtain ⟨stop, hstop, hfree, hlook, hend⟩ := ih (Nat.le_of_lt htop) (t.put top i)
        have hput : ∀ w < top, (t.put top i).lookup w = t.lookup w := fun w hw => by
          rw [lookup_put, lowWord_of_lt (Nat.lt_trans hw htop), if_neg (Nat.ne_of_lt hw)]
        refine ⟨stop, Nat.le_succ_of_le hstop, fun w hw hlt hfw => ?_, fun word => ?_, ?_⟩
        · rcases Nat.lt_succ_iff_lt_or_eq.mp hlt with hlt | rfl
          · rw [← hput w hlt]
            exact hfree w hw hlt hfw
          · exact hl
        · rw [hlook, lookup_put]
          by_cases hword : lowWord word = top
          · simp [hword, hfit, hstop]
          · simp [hsplit, hword]
        · rcases hend with hend | ⟨w, other, rfl, hfw, hlw, hend⟩
          · exact .inl hend
          · rw [hput w hstop] at hlw
            exact .inr ⟨w, other, rfl, hfw, hlw, hend⟩
    · rw [if_neg hfit]
      obtain ⟨stop, hstop, hfree, hlook, hend⟩ := ih (Nat.le_of_lt htop) t
      refine ⟨stop, Nat.le_succ_of_le hstop, fun w hw hlt hfw => ?_, fun word => ?_, hend⟩
      · rcases Nat.lt_succ_iff_lt_or_eq.mp hlt with hlt | rfl
        · exact hfree w hw hlt hfw
        · exact absurd hfw hfit
      · rw [hlook]
        by_cases hword : lowWord word = top
        · simp [hword, hfit]
        · simp [hsplit, hword]

theorem exists_registered (t : InstructionTable) (i : Instruction) :
    ∃ stop, (∀ w, stop ≤ w → w < wordCount → i.fits w = true → t.lookup w = none) ∧
      (∀ word, (t.register i).2.lookup word =
        if stop ≤ lowWord word ∧ i.fits (lowWord word) = true then some i else t.lookup word) ∧
      (stop = 0 ∧ (t.register i).1 = .ok () ∨
        ∃ w other, stop = w + 1 ∧ w < wordCount ∧ i.fits w = true ∧ t.lookup w = some other ∧
          (t.register i).1 = .error (.wordTaken w other.mnemonic)) := by
  obtain ⟨stop, hle, hfree, hlook, hend⟩ := exists_registeredBelow i (Nat.le_refl wordCount) t
  rw [← register_eq_registerBelow] at hlook hend
  refine ⟨stop, hfree, fun word => ?_, ?_⟩
  · have hlt : lowWord word < wordCount := lowWord_lt word
    rw [hlook]
    simp only [hlt, true_and]
  · rcases hend with hend | ⟨w, other, rfl, hfw, hlw, hend⟩
    · exact .inl hend
    · exact .inr ⟨w, other, rfl, hle, hfw, hlw, hend⟩

/-! ## Lists of instructions -/

/-- The table gives each word the entry of the list that fits it. -/
def Lists (t : InstructionTable) (is : List Instruction) : Prop :=
  ∀ (word : Int) (j : Instruction),
    t.lookup word = some j ↔ j ∈ is ∧ j.fits (lowWord word) = true

end InstructionTable

namespace Instruction

/-- No word fits both patterns. -/
def Apart (i j : Instruction) : Prop :=
  ∀ w < wordCount, ¬ (i.fits w = true ∧ j.fits w = true)

/-- The greatest word that the instruction shares with earlier ones, one of which is `other`. -/
structure LargestShared (earlier : List Instruction) (i : Instruction) (w : Nat)
    (other : Instruction) : Prop where
  lt : w < wordCount
  fits : i.fits w = true
  mem : other ∈ earlier
  shared : other.fits w = true
  largest : ∀ v, w < v → v < wordCount → i.fits v = true → ∀ j ∈ earlier, ¬ j.fits v = true

end Instruction

namespace InstructionTable

open Instruction (Apart LargestShared)

variable {t : InstructionTable} {i : Instruction} {is done : List Instruction}

theorem lists_empty : empty.Lists [] := fun word j => by simp [lookup_empty]

theorem Lists.lookup_eq_none (ht : t.Lists done) {w : Nat} (hw : w < wordCount) :
    t.lookup w = none ↔ ∀ j ∈ done, ¬ j.fits w = true := by
  rw [Option.eq_none_iff_forall_ne_some]
  have hlist := ht w
  rw [lowWord_of_lt hw] at hlist
  exact ⟨fun h j hj hfit => h j ((hlist j).mpr ⟨hj, hfit⟩),
    fun h j hj => h j ((hlist j).mp hj).1 ((hlist j).mp hj).2⟩

/-- An instruction is registered behind others if it shares no word with them, and else fails at
the greatest word that it shares. -/
theorem register_cases (ht : t.Lists done) (i : Instruction) :
    (∀ j ∈ done, j.Apart i) ∧ (t.register i).1 = .ok () ∧ (t.register i).2.Lists (done ++ [i]) ∨
      ∃ w other, LargestShared done i w other ∧
        (t.register i).1 = .error (.wordTaken w other.mnemonic) ∧
        ∀ (word : Int) (j : Instruction), (t.register i).2.lookup word = some j ↔
          j ∈ done ∧ j.fits (lowWord word) = true ∨
            j = i ∧ w < lowWord word ∧ i.fits (lowWord word) = true := by
  obtain ⟨stop, hfree, hlook, hend⟩ := t.exists_registered i
  have hnone : ∀ w, stop ≤ w → w < wordCount → i.fits w = true → ∀ j ∈ done, ¬ j.fits w = true :=
    fun w hstop hw hfit => (ht.lookup_eq_none hw).mp (hfree w hstop hw hfit)
  -- what the table has now comes from the list, or from the words behind the stop
  have hnow : ∀ (word : Int) (j : Instruction), (t.register i).2.lookup word = some j ↔
      j ∈ done ∧ j.fits (lowWord word) = true ∨
        j = i ∧ stop ≤ lowWord word ∧ i.fits (lowWord word) = true := by
    intro word j
    rw [hlook]
    by_cases hnew : stop ≤ lowWord word ∧ i.fits (lowWord word) = true
    · have hnot := hnone _ hnew.1 (lowWord_lt word) hnew.2 j
      rw [if_pos hnew, Option.some.injEq, eq_comm]
      exact ⟨fun h => .inr ⟨h, hnew⟩, fun h => h.elim (fun h => absurd h.2 (hnot h.1)) And.left⟩
    · rw [if_neg hnew, ht word j]
      exact ⟨.inl, fun h => h.elim id fun h => absurd h.2 hnew⟩
  rcases hend with ⟨rfl, hok⟩ | ⟨w, other, rfl, hw, hfit, hl, herr⟩
  · refine .inl ⟨fun j hj w hw hboth => ?_, hok, fun word j => ?_⟩
    · exact hnone w (Nat.zero_le w) hw hboth.2 j hj hboth.1
    · rw [hnow, List.mem_append, List.mem_singleton]
      constructor
      · rintro (⟨hj, hfit⟩ | ⟨rfl, -, hfit⟩)
        · exact ⟨.inl hj, hfit⟩
        · exact ⟨.inr rfl, hfit⟩
      · rintro ⟨hj | rfl, hfit⟩
        · exact .inl ⟨hj, hfit⟩
        · exact .inr ⟨rfl, Nat.zero_le _, hfit⟩
  · obtain ⟨hmem, hother⟩ := (ht w other).mp hl
    rw [lowWord_of_lt hw] at hother
    exact .inr ⟨w, other, ⟨hw, hfit, hmem, hother, fun v hlt hv hfv => hnone v hlt hv hfv⟩, herr,
      hnow⟩

/-- Instructions are registered in turn, up to the first that shares a word with an earlier one. -/
theorem registerAll_cases (is : List Instruction) {done : List Instruction} {t : InstructionTable}
    (ht : t.Lists done) (hd : done.Pairwise Apart) :
    (done ++ is).Pairwise Apart ∧ (registerAll is t).1 = .ok () ∧
        (registerAll is t).2.Lists (done ++ is) ∨
      ∃ earlier failing later, is = earlier ++ failing :: later ∧
        (done ++ earlier).Pairwise Apart ∧
        (∃ u, registerAll earlier t = (.ok (), u) ∧ registerAll is t = u.register failing) ∧
        ∃ w other, LargestShared (done ++ earlier) failing w other ∧
          (registerAll is t).1 = .error (.wordTaken w other.mnemonic) ∧
          ∀ (word : Int) (j : Instruction), (registerAll is t).2.lookup word = some j ↔
            j ∈ done ++ earlier ∧ j.fits (lowWord word) = true ∨
              j = failing ∧ w < lowWord word ∧ failing.fits (lowWord word) = true := by
  induction is generalizing done t with
  | nil =>
    rw [List.append_nil]
    exact .inl ⟨hd, rfl, ht⟩
  | cons i is ih =>
    rcases hr : t.register i with ⟨result, u⟩
    rcases register_cases ht i with ⟨hapart, hok, hu⟩ | ⟨w, other, hshared, herr, hlook⟩
    · rw [hr] at hok hu
      simp only at hok hu
      subst hok
      have hall : registerAll (i :: is) t = registerAll is u := by rw [registerAll, hr]
      have hd' : (done ++ [i]).Pairwise Apart :=
        List.pairwise_append.mpr
          ⟨hd, List.pairwise_singleton _ _, fun j hj k hk => by
            rw [List.mem_singleton.mp hk]
            exact hapart j hj⟩
      rw [hall]
      rcases ih hu hd' with hgood | ⟨earlier, failing, later, rfl, hpair, ⟨v, hv, hfail⟩, hbad⟩
      · rw [List.append_assoc] at hgood
        exact .inl hgood
      · rw [List.append_assoc] at hpair hbad
        refine .inr ⟨i :: earlier, failing, later, rfl, hpair, ⟨v, ?_, hfail⟩, hbad⟩
        rw [registerAll, hr]
        exact hv
    · rw [hr] at herr hlook
      simp only at herr hlook
      subst herr
      have hall : registerAll (i :: is) t = t.register i := by rw [registerAll, hr]
      rw [hall, hr]
      refine .inr ⟨[], i, is, rfl, ?_, ⟨t, rfl, hr.symm⟩, w, other, ?_⟩
      · rw [List.append_nil]
        exact hd
      · rw [List.append_nil]
        exact ⟨hshared, rfl, hlook⟩

theorem build_eq_ok_iff {t : InstructionTable} :
    build is = .ok t ↔ (registerAll is empty).1 = .ok () ∧ (registerAll is empty).2 = t := by
  unfold build
  rcases registerAll is empty with ⟨result, u⟩
  cases result <;> simp

theorem build_eq_error_iff {e : Error} :
    build is = .error e ↔ (registerAll is empty).1 = .error e := by
  unfold build
  rcases registerAll is empty with ⟨result, u⟩
  cases result <;> simp

/-- A table is built from exactly the lists of which no two entries share a word, and then gives a
word the entry that fits it. Otherwise the first entry that shares a word with earlier ones is
refused at the greatest such word, when it has been registered for its greater words. -/
theorem build_iff_pairwise_apart (is : List Instruction) :
    ((∃ t, build is = .ok t) ↔ is.Pairwise Apart) ∧
      (∀ t, build is = .ok t → ∀ w < wordCount, ∀ i,
        t.lookup w = some i ↔ i ∈ is ∧ i.fits w = true) ∧
      ∀ e, build is = .error e →
        ∃ earlier failing later, is = earlier ++ failing :: later ∧ earlier.Pairwise Apart ∧
          (∃ t, registerAll earlier empty = (.ok (), t) ∧
            registerAll is empty = t.register failing) ∧
          ∃ w other, LargestShared earlier failing w other ∧
            e = .wordTaken w other.mnemonic ∧
            e.message =
              "opcode " ++ Text.addressText w ++ " already registered as " ++ other.mnemonic ∧
            ∀ v < wordCount, ∀ i, (registerAll is empty).2.lookup v = some i ↔
              i ∈ earlier ∧ i.fits v = true ∨ i = failing ∧ w < v ∧ failing.fits v = true := by
  have hstart := registerAll_cases is lists_empty List.Pairwise.nil
  simp only [List.nil_append] at hstart
  rcases hstart with
    ⟨hpair, hok, hlists⟩ |
    ⟨earlier, failing, later, hsplit, hpair, hstop, w, other, hshared, herr, hlook⟩
  · have hbuild : build is = .ok (registerAll is empty).2 := build_eq_ok_iff.mpr ⟨hok, rfl⟩
    refine ⟨iff_of_true ⟨_, hbuild⟩ hpair, fun t ht w hw i => ?_, fun e he => ?_⟩
    · obtain rfl : (registerAll is empty).2 = t := (build_eq_ok_iff.mp ht).2
      rw [hlists, lowWord_of_lt hw]
    · rw [hbuild] at he
      cases he
  · have hbuild : build is = .error (.wordTaken w other.mnemonic) := build_eq_error_iff.mpr herr
    refine ⟨iff_of_false ?_ ?_, fun t ht => ?_, fun e he => ?_⟩
    · rintro ⟨t, ht⟩
      rw [hbuild] at ht
      cases ht
    · intro hall
      rw [hsplit, List.pairwise_append] at hall
      exact hall.2.2 other hshared.mem failing List.mem_cons_self w hshared.lt
        ⟨hshared.shared, hshared.fits⟩
    · rw [hbuild] at ht
      cases ht
    · rw [hbuild] at he
      cases he
      refine ⟨earlier, failing, later, hsplit, hpair, hstop, w, other, hshared, rfl, rfl,
        fun v hv i => ?_⟩
      rw [hlook, lowWord_of_lt hv]

end InstructionTable

end Chip8
