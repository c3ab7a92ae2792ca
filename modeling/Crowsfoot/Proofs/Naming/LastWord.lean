import Crowsfoot.Proofs.Naming.Models

/-!
# The last word of a name

Only the last word of an identifier is inflected, whatever stands before it. A last word
(`IsLastWord`) is made of small letters and digits, or of such behind a capital, or of capitals; it
is as long as it can be. `splitLastWord_cases`: every identifier has one, or none of its kind at its
end.

* `IsLastWord.split`, `IsLastWord.underscored`: it is found behind its lead, and snake case leaves it
  alone.
* `toNumber_of_isLastWord`: the inflected name is the lead with the inflected lower case of the
  word, which takes over the capitals of the word.
* `IsLastWord.hasEnding_inflect`: the last word of such a name ends with the inflected one. It may
  be longer: of `IDs` a lone capital is left, which goes with the one before it.
-/

namespace Crowsfoot.Naming

open Crowsfoot.Text

/-! ## Letters -/

theorem isAlpha_of_isLower {c : Char} (h : c.isLower = true) : c.isAlpha = true := by
  rw [isAlpha_eq, h, Bool.or_true]

theorem isAlpha_of_isUpper {c : Char} (h : c.isUpper = true) : c.isAlpha = true := by
  rw [isAlpha_eq, h, Bool.true_or]

theorem isSmall_of_isLower {c : Char} (h : c.isLower = true) : isSmall c = true := by
  unfold isSmall
  rw [h, Bool.true_or]

/-- What a small letter or a digit is not. -/
theorem isUpper_eq_false_of_isSmall {c : Char} (h : isSmall c = true) : c.isUpper = false :=
  (snakeCharFacts (by rw [isSnakeChar, h, Bool.true_or])).1

theorem beq_underscore_eq_false_of_isSmall {c : Char} (h : isSmall c = true) :
    (c == '_') = false := by
  rw [beq_eq_false_iff_ne]
  rintro rfl
  exact absurd h (by decide)

/-- What a capital tells. -/
theorem upperFacts {c : Char} (h : c.isUpper = true) :
    isSmall c = false ∧ isUpperText [c] = true ∧ c.toLower.isLower = true
      ∧ c.toLower.toUpper = c := by
  have hall : c.isUpper = true → isSmall c = false ∧ isUpperText [c] = true
      ∧ c.toLower.isLower = true ∧ c.toLower.toUpper = c :=
    forall_isAscii (P := fun c => c.isUpper = true → isSmall c = false ∧ isUpperText [c] = true
      ∧ c.toLower.isLower = true ∧ c.toLower.toUpper = c)
      (by decide) (isAscii_of_isAlpha (isAlpha_of_isUpper h))
  exact hall h

/-- What a small letter tells. -/
theorem lowerFacts {c : Char} (h : c.isLower = true) :
    c.isUpper = false ∧ isLowerChar c = true ∧ c.toLower = c ∧ c.toUpper.isUpper = true
      ∧ c.toUpper.toLower = c := by
  have hall : c.isLower = true → c.isUpper = false ∧ isLowerChar c = true ∧ c.toLower = c
      ∧ c.toUpper.isUpper = true ∧ c.toUpper.toLower = c :=
    forall_isAscii (P := fun c => c.isLower = true → c.isUpper = false ∧ isLowerChar c = true
      ∧ c.toLower = c ∧ c.toUpper.isUpper = true ∧ c.toUpper.toLower = c)
      (by decide) (isAscii_of_isAlpha (isAlpha_of_isLower h))
  exact hall h

/-! ## Characters of words -/

theorem alphanumFacts {c : Char} (h : c.isAlphanum = true) :
    isAscii c = true ∧ isSmall c.toLower = true ∧ c ≠ '\n' := by
  have hascii : isAscii c = true := isAscii_of_isNameChar (by rw [isNameChar, h, Bool.true_or])
  have hall : c.isAlphanum = true → isSmall c.toLower = true ∧ c ≠ '\n' :=
    forall_isAscii (P := fun c => c.isAlphanum = true → isSmall c.toLower = true ∧ c ≠ '\n')
      (by decide) hascii
  exact ⟨hascii, hall h⟩

theorem isAlphanum_eq (c : Char) : c.isAlphanum = (isSmall c || c.isUpper) := by
  unfold isSmall Char.isAlphanum Char.isAlpha
  cases c.isUpper <;> cases c.isLower <;> cases c.isDigit <;> rfl

theorem isAlphanum_of_isSmall {c : Char} (h : isSmall c = true) : c.isAlphanum = true := by
  rw [isAlphanum_eq, h, Bool.true_or]

theorem isAlphanum_of_isUpper {c : Char} (h : c.isUpper = true) : c.isAlphanum = true := by
  rw [isAlphanum_eq, h, Bool.or_true]

/-- A fact about small letters and digits is decided on ASCII. -/
theorem forall_isSmall {P : Char → Prop}
    (h : ∀ n < 128, isSmall (Char.ofNat n) = true → P (Char.ofNat n)) {c : Char}
    (hc : isSmall c = true) : P c :=
  forall_isAscii (P := fun c => isSmall c = true → P c) h
    (alphanumFacts (isAlphanum_of_isSmall hc)).1 hc

theorem toLower_of_isSmall {c : Char} (h : isSmall c = true) : c.toLower = c :=
  forall_isSmall (P := fun c => c.toLower = c) (by decide) h

theorem toLower_toUpper_of_isSmall {c : Char} (h : isSmall c = true) : c.toUpper.toLower = c :=
  forall_isSmall (P := fun c => c.toUpper.toLower = c) (by decide) h

theorem isAlphanum_toUpper_of_isSmall {c : Char} (h : isSmall c = true) :
    c.toUpper.isAlphanum = true :=
  forall_isSmall (P := fun c => c.toUpper.isAlphanum = true) (by decide) h

theorem isUpperChar_of_isSmall {c : Char} (h : isSmall c = true) : isUpperChar c = false :=
  forall_isSmall (P := fun c => isUpperChar c = false) (by decide) h

/-- A digit has no case. -/
theorem toUpper_of_isSmall {c : Char} (h : isSmall c = true) :
    isLowerChar c = false → c.toUpper = c :=
  forall_isSmall (P := fun c => isLowerChar c = false → c.toUpper = c) (by decide) h

theorem isLower_of_isSmall {c : Char} (h : isSmall c = true) :
    c.isAlpha = true → c.isLower = true :=
  forall_isSmall (P := fun c => c.isAlpha = true → c.isLower = true) (by decide) h

section Words

variable {word form : List Char}

theorem lower_of_isAlphanum (h : ∀ c ∈ word, c.isAlphanum = true) :
    lower word = word.map Char.toLower :=
  lower_of_isAscii fun c hc => (alphanumFacts (h c hc)).1

theorem isSmall_lower (h : ∀ c ∈ word, c.isAlphanum = true) :
    ∀ c ∈ lower word, isSmall c = true := by
  rw [lower_of_isAlphanum h]
  intro c hc
  obtain ⟨d, hd, rfl⟩ := List.mem_map.mp hc
  exact (alphanumFacts (h d hd)).2.1

theorem lower_of_isSmall (h : ∀ c ∈ word, isSmall c = true) : lower word = word := by
  rw [lower_of_isAlphanum fun c hc => isAlphanum_of_isSmall (h c hc)]
  exact (List.map_congr_left fun c hc => toLower_of_isSmall (h c hc)).trans (List.map_id word)

theorem upper_of_isAlphanum (h : ∀ c ∈ word, c.isAlphanum = true) :
    upper word = word.map Char.toUpper := by
  unfold upper
  rw [List.map_eq_flatMap]
  exact List.flatMap_congr fun c hc => upperChar_of_isAscii (alphanumFacts (h c hc)).1

theorem capitalized_cons {c : Char} {rest : List Char} (h : c.isAlphanum = true) :
    capitalized (c :: rest) = c.toUpper :: rest := by
  unfold capitalized
  dsimp only
  rw [upperChar_of_isAscii (alphanumFacts h).1]
  rfl

/-! ## Capitals -/

/-- Small letters and digits are what they are after a capital is put on them and taken off. -/
theorem lower_capitalized (h : ∀ c ∈ form, isSmall c = true) :
    lower (capitalized form) = form := by
  cases form with
  | nil => rfl
  | cons c rest =>
    obtain ⟨hc, hrest⟩ := List.forall_mem_cons.mp h
    have hothers : ∀ d ∈ rest, d.isAlphanum = true := fun d hd => isAlphanum_of_isSmall (hrest d hd)
    have hall : ∀ d ∈ c.toUpper :: rest, d.isAlphanum = true :=
      List.forall_mem_cons.mpr ⟨isAlphanum_toUpper_of_isSmall hc, hothers⟩
    rw [capitalized_cons (isAlphanum_of_isSmall hc), lower_of_isAlphanum hall, List.map_cons,
      toLower_toUpper_of_isSmall hc, ← lower_of_isAlphanum hothers, lower_of_isSmall hrest]

/-- Small letters and digits are what they were after capitals are put on and taken off. -/
theorem lower_matchCase (h : ∀ c ∈ form, isSmall c = true) (word : List Char) :
    lower (matchCase word form) = form := by
  have halphanum : ∀ c ∈ form, c.isAlphanum = true := fun c hc => isAlphanum_of_isSmall (h c hc)
  unfold matchCase
  split
  · have hupper : ∀ c ∈ form.map Char.toUpper, c.isAlphanum = true := by
      intro c hc
      obtain ⟨d, hd, rfl⟩ := List.mem_map.mp hc
      exact isAlphanum_toUpper_of_isSmall (h d hd)
    rw [upper_of_isAlphanum halphanum, lower_of_isAlphanum hupper, List.map_map]
    exact (List.map_congr_left fun c hc => toLower_toUpper_of_isSmall (h c hc)).trans
      (List.map_id form)
  · split
    · exact lower_capitalized h
    · exact lower_of_isSmall h

/-- A word without capitals passes none on. -/
theorem matchCase_of_isSmall (h : ∀ c ∈ word, isSmall c = true) (form : List Char) :
    matchCase word form = form := by
  have hnone : ∀ cs : List Char, (∀ c ∈ cs, isSmall c = true) → isUpperText cs = false := by
    intro cs hcs
    unfold isUpperText
    rw [Bool.and_eq_false_iff, List.any_eq_false]
    exact Or.inl fun c hc => by rw [isUpperChar_of_isSmall (hcs c hc)]; exact Bool.false_ne_true
  unfold matchCase
  rw [hnone word h, Bool.false_and, if_neg Bool.false_ne_true,
    hnone _ fun c hc => h c (List.mem_of_mem_take hc), if_neg Bool.false_ne_true]

theorem isUpperText_of_small {c : Char} {cs : List Char} (h : c.isLower = true) (hc : c ∈ cs) :
    isUpperText cs = false := by
  unfold isUpperText
  rw [Bool.and_eq_false_iff, List.all_eq_false]
  exact Or.inr ⟨c, hc, by rw [(lowerFacts h).2.1]; simp⟩

theorem isUpperText_of_isUpper (h : ∀ c ∈ word, c.isUpper = true) (hne : word ≠ []) :
    isUpperText word = true := by
  have heach : ∀ c ∈ word,
      isUpperChar c = true ∧ (!isLowerChar c && !inRanges titleRanges c) = true := by
    intro c hc
    have hone := (upperFacts (h c hc)).2.1
    unfold isUpperText at hone
    simpa using hone
  obtain ⟨c, hc⟩ := List.exists_mem_of_ne_nil word hne
  exact Bool.and_eq_true_iff.mpr ⟨List.any_eq_true.mpr ⟨c, hc, (heach c hc).1⟩,
    List.all_eq_true.mpr fun d hd => (heach d hd).2⟩

/-- Capitals pass on capitals, and a single one the first. -/
theorem matchCase_of_isUpper (h : ∀ c ∈ word, c.isUpper = true) (hne : word ≠ [])
    (form : List Char) :
    matchCase word form = if 1 < word.length then upper form else capitalized form := by
  obtain ⟨c, rest, rfl⟩ := List.exists_cons_of_ne_nil hne
  have hfirst := (upperFacts (h c List.mem_cons_self)).2.1
  unfold matchCase
  rw [isUpperText_of_isUpper h hne, Bool.true_and, List.take_succ_cons, List.take_zero,
    if_pos hfirst]
  simp only [decide_eq_true_eq]

/-- A capital with a small letter behind it passes the capital on, and one with digits passes
on capitals. -/
theorem matchCase_cons {c : Char} {small : List Char} (hc : c.isUpper = true) (hne : small ≠ [])
    (form : List Char) :
    matchCase (c :: small) form
      = if isUpperText (c :: small) then upper form else capitalized form := by
  have hlong : 1 < (c :: small).length := Nat.succ_lt_succ (List.length_pos_iff.mpr hne)
  unfold matchCase
  rw [decide_eq_true hlong, Bool.and_true, List.take_succ_cons, List.take_zero,
    if_pos (upperFacts hc).2.1]

/-! ## The last character -/

/-- A word does not end its line. -/
theorem dropFinalNewline_append (lead : List Char) (hne : word ≠ [])
    (h : ∀ c ∈ word, c.isAlphanum = true) : dropFinalNewline (lead ++ word) = lead ++ word := by
  obtain ⟨init, c, rfl⟩ := (List.eq_nil_or_concat' word).resolve_left hne
  unfold dropFinalNewline
  rw [← List.append_assoc, List.getLast?_concat, if_neg]
  intro hline
  have hc := h c (List.mem_append_right _ (List.mem_singleton_self c))
  exact (alphanumFacts hc).2.2 (Option.some.inj hline)

theorem lower_concat {c : Char} (h : ∀ d ∈ word ++ [c], d.isAlphanum = true) :
    lower (word ++ [c]) = lower word ++ [c.toLower] := by
  rw [lower_of_isAlphanum h, lower_of_isAlphanum (List.forall_mem_append.mp h).1, List.map_append,
    List.map_singleton]

end Words

/-! ## The last word -/

/-- The last word of a name that begins with `lead`, as long as it can be. -/
inductive IsLastWord (lead : List Char) : List Char → Prop where
  | small {word : List Char} (nonempty : word ≠ []) (chars : ∀ c ∈ word, isSmall c = true)
    (apart : EndsOutside Char.isAlphanum lead) : IsLastWord lead word
  | capitalized {c : Char} {small : List Char} (capital : c.isUpper = true)
    (nonempty : small ≠ []) (chars : ∀ d ∈ small, isSmall d = true) : IsLastWord lead (c :: small)
  | capitals {word : List Char} (nonempty : word ≠ []) (chars : ∀ c ∈ word, c.isUpper = true)
    (apart : EndsOutside Char.isUpper lead) : IsLastWord lead word

section LastWord

variable {cs lead word : List Char}

theorem IsLastWord.ne_nil (h : IsLastWord lead word) : word ≠ [] := by
  cases h with
  | small nonempty _ _ | capitals nonempty _ _ => exact nonempty
  | capitalized _ _ _ => exact List.cons_ne_nil _ _

theorem IsLastWord.isAlphanum (h : IsLastWord lead word) : ∀ c ∈ word, c.isAlphanum = true := by
  cases h with
  | small _ chars _ => exact fun c hc => isAlphanum_of_isSmall (chars c hc)
  | capitals _ chars _ => exact fun c hc => isAlphanum_of_isUpper (chars c hc)
  | capitalized capital _ chars =>
    exact List.forall_mem_cons.mpr
      ⟨isAlphanum_of_isUpper capital, fun d hd => isAlphanum_of_isSmall (chars d hd)⟩

theorem dropFinalNewline_of_isLastWord (h : IsLastWord lead word) :
    dropFinalNewline (lead ++ word) = lead ++ word :=
  dropFinalNewline_append lead h.ne_nil h.isAlphanum

theorem IsLastWord.beq_underscore (h : IsLastWord lead word) : ∀ c ∈ word, (c == '_') = false := by
  intro c hc
  rw [beq_eq_false_iff_ne]
  rintro rfl
  exact absurd (h.isAlphanum '_' hc) (by decide)

/-- The longest run at the end of a text. -/
theorem exists_last_run (p : Char → Bool) (cs : List Char) :
    ∃ lead run, cs = lead ++ run ∧ (∀ c ∈ run, p c = true) ∧ EndsOutside p lead := by
  refine ⟨(cs.reverse.dropWhile p).reverse, (cs.reverse.takeWhile p).reverse, ?_, ?_, ?_⟩
  · rw [← List.reverse_append, List.takeWhile_append_dropWhile, List.reverse_reverse]
  · exact fun c hc => List.all_eq_true.mp List.all_takeWhile c (List.mem_reverse.mp hc)
  · rw [← startsOutside_reverse, List.reverse_reverse]
    exact startsOutside_dropWhile _

/-- **The last word is found.** -/
theorem IsLastWord.splitLastWord (h : IsLastWord lead word)
    (hline : dropFinalNewline cs = lead ++ word) : splitLastWord cs = (lead, word) := by
  have hne : word.reverse.isEmpty = false := by
    rw [List.isEmpty_reverse, List.isEmpty_eq_false_iff]
    exact h.ne_nil
  unfold Naming.splitLastWord
  rw [hline, List.reverse_append]
  dsimp only
  cases h with
  | small nonempty chars apart =>
    have hrun : ∀ c ∈ word.reverse, isSmall c = true := fun c hc => chars c (List.mem_reverse.mp hc)
    have hstop : StartsOutside isSmall lead.reverse := by
      rw [startsOutside_reverse]
      exact fun c hc => (Bool.or_eq_false_iff.mp ((isAlphanum_eq c).symm.trans (apart c hc))).1
    rw [takeWhile_run hrun hstop, dropWhile_run hrun hstop, hne, if_neg Bool.false_ne_true]
    rcases List.eq_nil_or_concat' lead with rfl | ⟨before, c, rfl⟩
    · rw [List.reverse_nil, List.reverse_reverse]
    · have hc := (endsOutside_append_singleton before).mp apart
      rw [isAlphanum_eq, Bool.or_eq_false_iff] at hc
      rw [List.reverse_append, List.reverse_singleton, List.singleton_append]
      dsimp only
      rw [hc.2, if_neg Bool.false_ne_true, List.reverse_cons, List.reverse_reverse,
        List.reverse_reverse]
  | @capitalized c small capital nonempty chars =>
    have hrun : ∀ c ∈ small.reverse, isSmall c = true :=
      fun c hc => chars c (List.mem_reverse.mp hc)
    have hstop : StartsOutside isSmall (c :: lead.reverse) :=
      startsOutside_cons.mpr (upperFacts capital).1
    have hsome : small.reverse.isEmpty = false := by
      rw [List.isEmpty_reverse, List.isEmpty_eq_false_iff]
      exact nonempty
    rw [List.reverse_cons, List.append_assoc, List.singleton_append, takeWhile_run hrun hstop,
      dropWhile_run hrun hstop, hsome, if_neg Bool.false_ne_true]
    dsimp only
    rw [if_pos capital, List.reverse_reverse, List.reverse_reverse]
  | capitals nonempty chars apart =>
    have hrun : ∀ c ∈ word.reverse, c.isUpper = true := fun c hc => chars c (List.mem_reverse.mp hc)
    have hstop : StartsOutside Char.isUpper lead.reverse := startsOutside_reverse.mpr apart
    have hnone : StartsOutside isSmall (word.reverse ++ lead.reverse) := by
      obtain ⟨c, rest, hcons⟩ := List.exists_cons_of_ne_nil (List.isEmpty_eq_false_iff.mp hne)
      rw [hcons, List.cons_append]
      exact startsOutside_cons.mpr (upperFacts (hrun c (hcons ▸ List.mem_cons_self))).1
    rw [takeWhile_eq_nil_of_startsOutside hnone, List.isEmpty_nil, if_pos rfl,
      takeWhile_run hrun hstop, dropWhile_run hrun hstop, hne, if_neg Bool.false_ne_true,
      List.reverse_reverse, List.reverse_reverse]

theorem IsLastWord.split (h : IsLastWord lead word) :
    Naming.splitLastWord (lead ++ word) = (lead, word) :=
  h.splitLastWord (dropFinalNewline_of_isLastWord h)

/-- **An identifier ends in a word**, or in a character of none. -/
theorem splitLastWord_cases (cs : List Char) :
    EndsOutside Char.isAlphanum (dropFinalNewline cs) ∧ splitLastWord cs = ([], cs)
      ∨ ∃ lead word, dropFinalNewline cs = lead ++ word ∧ IsLastWord lead word := by
  obtain ⟨before, small, hbody, hsmall, hbefore⟩ := exists_last_run isSmall (dropFinalNewline cs)
  by_cases hsome : small = []
  · rw [hsome, List.append_nil] at hbody
    obtain ⟨lead, capitals, hparts, hupper, hlead⟩ := exists_last_run Char.isUpper before
    by_cases hcapitals : capitals = []
    · rw [hcapitals, List.append_nil] at hparts
      subst hparts
      left
      have hnone : ∀ {p : Char → Bool}, EndsOutside p before → before.reverse.takeWhile p = [] :=
        fun h => takeWhile_eq_nil_of_startsOutside (startsOutside_reverse.mpr h)
      constructor
      · rw [hbody]
        intro c hc
        rw [isAlphanum_eq, hbefore c hc, hlead c hc, Bool.or_false]
      · unfold splitLastWord
        rw [hbody]
        dsimp only
        rw [hnone hbefore, hnone hlead, List.isEmpty_nil, if_pos rfl, if_pos rfl]
    · exact Or.inr ⟨lead, capitals, hbody.trans hparts, .capitals hcapitals hupper hlead⟩
  · right
    rcases List.eq_nil_or_concat' before with rfl | ⟨lead, c, rfl⟩
    · exact ⟨[], small, hbody, .small hsome hsmall endsOutside_nil⟩
    · cases hc : c.isUpper with
      | true =>
        refine ⟨lead, c :: small, ?_, .capitalized hc hsome hsmall⟩
        rw [hbody, List.append_assoc, List.singleton_append]
      | false =>
        refine ⟨lead ++ [c], small, hbody, .small hsome hsmall ?_⟩
        rw [endsOutside_append_singleton] at hbefore ⊢
        rw [isAlphanum_eq, hbefore, hc, Bool.or_false]

/-- A text that ends outside of words has no last word. -/
theorem splitLastWord_of_endsOutside (h : EndsOutside Char.isAlphanum (dropFinalNewline cs)) :
    splitLastWord cs = ([], cs) := by
  rcases splitLastWord_cases cs with ⟨-, hsplit⟩ | ⟨lead, word, hparts, hword⟩
  · exact hsplit
  · obtain ⟨init, c, rfl⟩ := (List.eq_nil_or_concat' word).resolve_left hword.ne_nil
    have hc := hword.isAlphanum c (List.mem_append_right _ (List.mem_singleton_self c))
    rw [hparts, ← List.append_assoc, endsOutside_append_singleton, hc] at h
    exact absurd h (by simp)

theorem splitHumps_of_isUpper (h : ∀ c ∈ cs, c.isUpper = true) : splitHumps cs = cs := by
  induction cs with
  | nil => rfl
  | cons c cs ih =>
    obtain ⟨hc, hrest⟩ := List.forall_mem_cons.mp h
    rw [splitHumps, (upperFacts hc).1, Bool.false_and, if_neg Bool.false_ne_true, ih hrest]

theorem splitAcronyms_of_isUpper (h : ∀ c ∈ cs, c.isUpper = true) : splitAcronyms cs = cs := by
  induction cs with
  | nil => rfl
  | cons c cs ih =>
    obtain ⟨-, hrest⟩ := List.forall_mem_cons.mp h
    have hbegins : beginsWord cs = false := by
      match cs, hrest with
      | [], _ => rfl
      | [_], _ => rfl
      | _ :: d :: _, hrest =>
        have hd := (upperFacts (hrest d (by simp))).1
        rw [isSmall, Bool.or_eq_false_iff] at hd
        simp [beginsWord, hd.1]
    rw [splitAcronyms, hbegins, Bool.and_false, if_neg Bool.false_ne_true, ih hrest]

/-- No step changes a last word. -/
theorem IsLastWord.steps (h : IsLastWord lead word) :
    splitHumps word = word ∧ splitAcronyms word = word := by
  cases h with
  | small _ chars _ =>
    have hflat : ∀ c ∈ word, c.isUpper = false :=
      fun c hc => isUpper_eq_false_of_isSmall (chars c hc)
    exact ⟨splitHumps_eq_self hflat, splitAcronyms_eq_self hflat⟩
  | @capitalized c small capital _ chars =>
    have hflat : ∀ d ∈ small, d.isUpper = false :=
      fun d hd => isUpper_eq_false_of_isSmall (chars d hd)
    have hbegins : beginsWord small = false :=
      beginsWord_of_startsOutside (startsOutside_of_all hflat)
    constructor
    · rw [splitHumps, (upperFacts capital).1, Bool.false_and, if_neg Bool.false_ne_true,
        splitHumps_eq_self hflat]
    · rw [splitAcronyms, hbegins, Bool.and_false, if_neg Bool.false_ne_true,
        splitAcronyms_eq_self hflat]
  | capitals _ chars _ => exact ⟨splitHumps_of_isUpper chars, splitAcronyms_of_isUpper chars⟩

/-- A word has no underscores, and gets none in snake case. -/
theorem IsLastWord.underscored (h : IsLastWord lead word) : underscored word = word := by
  obtain ⟨hhumps, hacronyms⟩ := h.steps
  unfold Naming.underscored
  rw [hhumps, hacronyms, underscoreRuns_eq_self h.beq_underscore]

end LastWord

/-! ## Inflection -/

section Inflection

variable {number : Number} {lead word : List Char}

/-- A word takes over its own capitals. -/
theorem IsLastWord.matchCase_lower (h : IsLastWord lead word) :
    matchCase word (lower word) = word := by
  have halphanum := h.isAlphanum
  have hlow : ∀ c ∈ (lower word), c.isAlphanum = true :=
    fun c hc => isAlphanum_of_isSmall (isSmall_lower halphanum c hc)
  cases h with
  | small _ chars _ => rw [matchCase_of_isSmall chars, lower_of_isSmall chars]
  | @capitalized c small capital nonempty chars =>
    have hback := (upperFacts capital).2.2.2
    rw [matchCase_cons capital nonempty]
    split
    · rename_i hupper
      have hdigits : ∀ d ∈ small, d.toUpper = d := by
        intro d hd
        have hd' := List.all_eq_true.mp (Bool.and_eq_true_iff.mp hupper).2 d
          (List.mem_cons_of_mem c hd)
        rw [Bool.and_eq_true, Bool.not_eq_true'] at hd'
        exact toUpper_of_isSmall (chars d hd) hd'.1
      rw [upper_of_isAlphanum hlow, lower_of_isAlphanum halphanum, List.map_cons, List.map_cons,
        hback, ← lower_of_isAlphanum (List.forall_mem_cons.mp halphanum).2, lower_of_isSmall chars]
      exact congrArg _ ((List.map_congr_left hdigits).trans (List.map_id small))
    · rw [lower_of_isAlphanum halphanum, List.map_cons,
        ← lower_of_isAlphanum (List.forall_mem_cons.mp halphanum).2, lower_of_isSmall chars,
        capitalized_cons (isAlphanum_of_isSmall (isSmall_of_isLower (upperFacts capital).2.2.1)),
        hback]
  | capitals nonempty chars _ =>
    have hback : ∀ c ∈ word, c.toLower.toUpper = c := fun c hc => (upperFacts (chars c hc)).2.2.2
    rw [matchCase_of_isUpper chars nonempty]
    split
    · rw [upper_of_isAlphanum hlow, lower_of_isAlphanum halphanum, List.map_map]
      exact (List.map_congr_left hback).trans (List.map_id word)
    · rename_i hlength
      obtain ⟨c, rest, rfl⟩ := List.exists_cons_of_ne_nil nonempty
      obtain rfl : rest = [] := by
        rw [List.length_cons] at hlength
        exact List.eq_nil_of_length_eq_zero (by omega)
      have hlower := (upperFacts (chars c List.mem_cons_self)).2.2.1
      rw [lower_of_isAlphanum halphanum, List.map_singleton,
        capitalized_cons (isAlphanum_of_isSmall (isSmall_of_isLower hlower)),
        hback c List.mem_cons_self]

/-- **Inflecting a word is inflecting it in lower case**, up to its capitals. -/
theorem IsLastWord.inflect (number : Number) (h : IsLastWord lead word) :
    inflect number word = matchCase word (Naming.inflect number (lower word)) := by
  have hback := h.matchCase_lower
  have hsmall := isSmall_lower h.isAlphanum
  have hlow : lower (lower word) = lower word := lower_of_isSmall hsmall
  have hirregular :
      irregular? number word = (irregular? number (lower word)).map (matchCase word) := by
    unfold irregular?
    dsimp only
    rw [hlow, List.map_findSome?]
    congr 1
    funext pair
    simp only [Function.comp_apply, matchCase_of_isSmall hsmall]
    split
    · rfl
    · split
      · rw [Option.map_some, hback]
      · rfl
  unfold Naming.inflect
  dsimp only
  rw [hlow, hirregular]
  split
  · exact hback.symm
  · cases irregular? number (lower word) with
    | some form => rfl
    | none =>
      cases applyRules number.rules (dropFinalNewline (lower word)) with
      | some form =>
        rw [Option.map_none]
        dsimp only
        rw [matchCase_of_isSmall hsmall]
      | none => exact hback.symm

theorem toNumber_eq {name : String} (hsplit : splitLastWord name.toList = (lead, word))
    (hne : word ≠ []) : toNumber number name = String.ofList (lead ++ inflect number word) := by
  have hsome : name.isEmpty = false := by
    rw [← Bool.not_eq_true, String.isEmpty_iff]
    rintro rfl
    exact hne (congrArg Prod.snd hsplit).symm
  unfold toNumber
  rw [hsome, if_neg Bool.false_ne_true, hsplit]

/-- **An inflected name** has the inflected last word behind the same lead. -/
theorem toNumber_of_isLastWord {name : String} (number : Number) (h : IsLastWord lead word)
    (hname : dropFinalNewline name.toList = lead ++ word) :
    toNumber number name
      = String.ofList (lead ++ matchCase word (inflect number (lower word))) := by
  rw [toNumber_eq (h.splitLastWord hname) h.ne_nil, h.inflect number]

theorem dropFinalNewline_of_isSmall (h : ∀ c ∈ word, isSmall c = true) :
    dropFinalNewline word = word := by
  by_cases hne : word = []
  · rw [hne]
    rfl
  · exact dropFinalNewline_append [] hne fun c hc => isAlphanum_of_isSmall (h c hc)

/-- Lists and rules have small letters only. -/
theorem small_sound (number : Number) :
    (∀ pair ∈ irregular, ∀ c ∈ (number.orient pair).2.toList, c.isLower = true)
      ∧ ∀ rule ∈ number.rules, ∀ c ∈ rule.replacement.toList, c.isLower = true := by
  cases number <;> decide

/-- What inflection makes of small letters and digits: such again, nothing but letters of nothing
but letters, and a letter first where one was. -/
theorem inflect_sound (number : Number) (h : ∀ c ∈ word, isSmall c = true) :
    (∀ c ∈ inflect number word, isSmall c = true)
      ∧ ((∀ c ∈ word, c.isAlpha = true) → ∀ c ∈ inflect number word, c.isAlpha = true)
      ∧ ((∀ c ∈ word.head?, c.isAlpha = true) →
        ∀ c ∈ (inflect number word).head?, c.isAlpha = true) := by
  have hlow := lower_of_isSmall h
  have hline : dropFinalNewline (lower word) = lower word := by
    rw [hlow]
    exact dropFinalNewline_of_isSmall h
  have hforms : Inflects number word (inflect number word) := inflects_inflect hline
  generalize inflect number word = form at hforms
  cases hforms with
  | kept => exact ⟨h, id, id⟩
  | irregular hpair _ =>
    have hletters := (small_sound number).1 _ hpair
    rw [matchCase_of_isSmall h]
    exact ⟨fun c hc => isSmall_of_isLower (hletters c hc),
      fun _ c hc => isAlpha_of_isLower (hletters c hc),
      fun _ c hc => isAlpha_of_isLower (hletters c (List.mem_of_mem_head? hc))⟩
  | @rule rule stem hrule _ hsource =>
    have hletters := (small_sound number).2 _ hrule
    rw [hlow] at hsource
    subst hsource
    rw [matchCase_of_isSmall h]
    refine ⟨fun c hc => ?_, fun halpha c hc => ?_, fun hhead c hc => ?_⟩
    · rcases List.mem_append.mp hc with hc | hc
      · exact h c (List.mem_append_left _ hc)
      · exact isSmall_of_isLower (hletters c hc)
    · rcases List.mem_append.mp hc with hc | hc
      · exact halpha c (List.mem_append_left _ hc)
      · exact isAlpha_of_isLower (hletters c hc)
    · cases stem with
      | nil => exact isAlpha_of_isLower (hletters c (List.mem_of_mem_head? hc))
      | cons d stem => exact hhead c hc

end Inflection

/-! ## Endings of last words -/

/-- The last word of a text has this ending in lower case. -/
def HasEnding (cs ending : List Char) : Prop :=
  ∃ lead word, cs = lead ++ word ∧ IsLastWord lead word ∧ ending <:+ lower word

section Endings

variable {lead word : List Char}

theorem IsLastWord.hasEnding (h : IsLastWord lead word) : HasEnding (lead ++ word) (lower word) :=
  ⟨lead, word, rfl, h, List.suffix_refl _⟩

/-- A capital goes with the capitals before it, or begins a word of small letters and digits. -/
theorem hasEnding_capitalized (lead : List Char) {c : Char} {rest : List Char}
    (hc : c.isLower = true) (hrest : ∀ d ∈ rest, isSmall d = true) :
    HasEnding (lead ++ capitalized (c :: rest)) (c :: rest) := by
  obtain ⟨-, -, -, hupper, hback⟩ := lowerFacts hc
  rw [capitalized_cons (isAlphanum_of_isSmall (isSmall_of_isLower hc))]
  by_cases hsome : rest = []
  · obtain ⟨before, capitals, rfl, hcapitals, hbefore⟩ := exists_last_run Char.isUpper lead
    have hall : ∀ d ∈ capitals ++ [c.toUpper], d.isUpper = true :=
      List.forall_mem_append.mpr ⟨hcapitals, by simpa using hupper⟩
    refine ⟨before, capitals ++ [c.toUpper], ?_, .capitals (by simp) hall hbefore, ?_⟩
    · rw [hsome, List.append_assoc]
    · rw [lower_of_isAlphanum fun d hd => isAlphanum_of_isUpper (hall d hd), List.map_append,
        List.map_singleton, hback, hsome]
      exact List.suffix_append _ _
  · have hword : IsLastWord lead (c.toUpper :: rest) := .capitalized hupper hsome hrest
    have hending := hword.hasEnding
    rwa [lower_of_isAlphanum hword.isAlphanum, List.map_cons, hback,
      ← lower_of_isAlphanum fun d hd => isAlphanum_of_isSmall (hrest d hd),
      lower_of_isSmall hrest] at hending

/-- **The last word of an inflected name ends with the inflected word**, if the word that it was
made of ends in a letter. -/
theorem IsLastWord.hasEnding_inflect (number : Number) (h : IsLastWord lead word)
    (hlast : ∀ c ∈ word.getLast?, c.isAlpha = true)
    (hne : Naming.inflect number (lower word) ≠ []) :
    HasEnding (lead ++ matchCase word (Naming.inflect number (lower word)))
      (Naming.inflect number (lower word)) := by
  obtain ⟨hsmall, hletters, hhead⟩ := inflect_sound number (isSmall_lower h.isAlphanum)
  generalize Naming.inflect number (lower word) = form at hne hsmall hletters hhead
  have hwhole (hform : IsLastWord lead (matchCase word form)) :
      HasEnding (lead ++ matchCase word form) form := by
    have hending := hform.hasEnding
    rwa [lower_matchCase hsmall] at hending
  have hcapital (hfirst : ∀ c ∈ word.head?, c.isUpper = true) :
      HasEnding (lead ++ Text.capitalized form) form := by
    obtain ⟨d, rest, rfl⟩ := List.exists_cons_of_ne_nil hne
    obtain ⟨hd, hrest⟩ := List.forall_mem_cons.mp hsmall
    have halpha : d.isAlpha = true := by
      refine hhead (fun c hc => ?_) d rfl
      rw [lower_of_isAlphanum h.isAlphanum, List.head?_map] at hc
      obtain ⟨e, he, rfl⟩ := Option.map_eq_some_iff.mp hc
      exact (letterFacts (isAlpha_of_isUpper (hfirst e he))).1
    exact hasEnding_capitalized lead (isLower_of_isSmall hd halpha) hrest
  cases h with
  | small _ chars apart =>
    refine hwhole ?_
    rw [matchCase_of_isSmall chars]
    exact .small hne hsmall apart
  | @capitalized c small capital nonempty chars =>
    obtain ⟨d, hd⟩ := Option.ne_none_iff_exists'.mp (mt List.getLast?_eq_none_iff.mp nonempty)
    have hmem := List.mem_of_getLast? hd
    have hlower : d.isLower = true := by
      refine isLower_of_isSmall (chars d hmem) (hlast d ?_)
      rw [← List.singleton_append, List.getLast?_append, hd]
      rfl
    rw [matchCase_cons capital nonempty,
      isUpperText_of_small hlower (List.mem_cons_of_mem c hmem), if_neg Bool.false_ne_true]
    exact hcapital fun e he => Option.mem_some_iff.mp he ▸ capital
  | capitals nonempty chars apart =>
    have hmatch := matchCase_of_isUpper chars nonempty form
    split at hmatch
    · refine hwhole ?_
      have halpha := hletters (OfLetters.lower fun c hc => isAlpha_of_isUpper (chars c hc))
      rw [hmatch, upper_of_isAlphanum fun c hc => isAlphanum_of_isSmall (hsmall c hc)]
      refine .capitals (by simpa using hne) ?_ apart
      intro c hc
      obtain ⟨d, hd, rfl⟩ := List.mem_map.mp hc
      exact (lowerFacts (isLower_of_isSmall (hsmall d hd) (halpha d hd))).2.2.2.1
    · rw [hmatch]
      exact hcapital fun c hc => chars c (List.mem_of_mem_head? hc)

end Endings

end Crowsfoot.Naming
