import Crowsfoot.Naming.Inflection

/-!
# What inflection makes of a word

`Inflects` lists the forms that a word can take: its own, an irregular one, or what a suffix rule
makes of it. `inflects_inflect` says that there are no others, and what holds of inflected words is
proved from these three cases.

One such thing is said here, of names of any script: a class of characters that has the ASCII
letters and goes with both cases (`GoesWithCase`) has the characters of an inflected name if it has
those of the name (`GoesWithCase.toNumber`).
-/

namespace Crowsfoot.Naming

open Crowsfoot.Text

variable {number : Number} {word : List Char}

/-! ## What the lists hold -/

/-- Nothing but ASCII letters. -/
def OfLetters (cs : List Char) : Prop :=
  ∀ c ∈ cs, c.isAlpha = true

instance (cs : List Char) : Decidable (OfLetters cs) :=
  inferInstanceAs (Decidable (∀ c ∈ cs, c.isAlpha = true))

theorem irregular_sound {pair : String × String} (h : pair ∈ irregular) (number : Number) :
    OfLetters (number.orient pair).1.toList ∧ OfLetters (number.orient pair).2.toList
      ∧ 0 < (number.orient pair).2.toList.length := by
  have hall : ∀ pair ∈ irregular, (OfLetters pair.1.toList ∧ 0 < pair.1.toList.length)
      ∧ OfLetters pair.2.toList ∧ 0 < pair.2.toList.length := by
    decide
  obtain ⟨⟨hone, hfirst⟩, hmany, hsecond⟩ := hall pair h
  cases number with
  | singular => exact ⟨hmany, hone, hfirst⟩
  | plural => exact ⟨hone, hmany, hsecond⟩

/-- Whether a rule leaves something of every word of two letters. -/
def SuffixRule.leavesSome (rule : SuffixRule) : Bool :=
  !rule.replacement.isEmpty || decide (rule.ending.toList.length < 2)
    || match rule.stem with
      | .endsIn tails => tails.all fun tail => !tail.isEmpty
      | _ => false

theorem rules_sound (number : Number) : ∀ rule ∈ number.rules,
    rule.leavesSome = true ∧ OfLetters rule.ending.toList
      ∧ OfLetters rule.replacement.toList := by
  cases number <;> decide

theorem isEmpty_of_toList_eq_nil {s : String} (h : s.toList = []) : s.isEmpty = true := by
  rw [← String.ofList_toList (s := s), h]
  rfl

theorem SuffixRule.length_pos {rule : SuffixRule} (hrule : rule.leavesSome = true)
    {stem : List Char} (haccepts : rule.stem.accepts stem = true)
    (hlength : 2 ≤ (stem ++ rule.ending.toList).length) :
    0 < (stem ++ rule.replacement.toList).length := by
  rw [List.length_append] at hlength ⊢
  simp only [SuffixRule.leavesSome, Bool.or_eq_true, Bool.not_eq_true', decide_eq_true_eq] at hrule
  rcases hrule with (hrule | hrule) | hrule
  · have hsome : rule.replacement.toList ≠ [] := by
      intro hnil
      rw [isEmpty_of_toList_eq_nil hnil] at hrule
      exact absurd hrule (by simp)
    have := List.length_pos_iff.mpr hsome
    omega
  · omega
  · -- a stem that ends in something is not empty
    cases hs : rule.stem with
    | any | consonant => simp [hs] at hrule
    | endsIn tails =>
      rw [hs] at haccepts hrule
      obtain ⟨tail, htail, hsuffix⟩ := List.any_eq_true.mp haccepts
      have hle := (List.isSuffixOf_iff_suffix.mp hsuffix).length_le
      have hsome : tail.toList ≠ [] := by
        intro hnil
        have hne := List.all_eq_true.mp hrule tail htail
        rw [isEmpty_of_toList_eq_nil hnil] at hne
        exact absurd hne (by simp)
      have := List.length_pos_iff.mpr hsome
      omega

/-! ## The forms of a word -/

/-- What a rule makes of a word: the word without an ending, and something else instead. -/
theorem SuffixRule.apply?_eq_some {rule : SuffixRule} {form : List Char}
    (h : rule.apply? word = some form) :
    ∃ stem, rule.stem.accepts stem = true ∧ word = stem ++ rule.ending.toList
      ∧ form = stem ++ rule.replacement.toList := by
  unfold SuffixRule.apply? at h
  split at h
  · rename_i hends
    obtain ⟨stem, rfl⟩ := List.isSuffixOf_iff_suffix.mp hends
    rw [List.length_append, Nat.add_sub_cancel, List.take_left] at h
    dsimp only at h
    split at h
    · rename_i haccepts
      exact ⟨stem, haccepts, rfl, (Option.some.inj h).symm⟩
    · cases h
  · cases h

/-- What inflection can make of a word. -/
inductive Inflects (number : Number) (word : List Char) : List Char → Prop where
  | kept : Inflects number word word
  | irregular {pair : String × String} (known : pair ∈ irregular)
      (source : lower word = (number.orient pair).1.toList) :
      Inflects number word (matchCase word (number.orient pair).2.toList)
  | rule {rule : SuffixRule} {stem : List Char} (known : rule ∈ number.rules)
      (accepted : rule.stem.accepts stem = true)
      (source : lower word = stem ++ rule.ending.toList) :
      Inflects number word (matchCase word (stem ++ rule.replacement.toList))

theorem Inflects.of_irregular? {form : List Char} (h : irregular? number word = some form) :
    Inflects number word form := by
  unfold irregular? at h
  obtain ⟨pair, hpair, hform⟩ := List.exists_of_findSome?_eq_some h
  dsimp only at hform
  split at hform
  · rename_i hsource
    rw [← Option.some.inj hform]
    refine .irregular hpair ?_
    rw [← hsource, String.toList_ofList]
  · split at hform
    · rw [← Option.some.inj hform]
      exact .kept
    · cases hform

theorem Inflects.of_applyRules {form : List Char}
    (h : applyRules number.rules (lower word) = some form) :
    Inflects number word (matchCase word form) := by
  unfold applyRules at h
  obtain ⟨rule, hrule, hform⟩ := List.exists_of_findSome?_eq_some h
  obtain ⟨stem, haccepts, hsource, rfl⟩ := SuffixRule.apply?_eq_some hform
  exact .rule hrule haccepts hsource

/-- **Inflection makes one of these forms** of a word that does not end its line. -/
theorem inflects_inflect (hline : dropFinalNewline (lower word) = lower word) :
    Inflects number word (inflect number word) := by
  unfold inflect
  dsimp only
  split
  · exact .kept
  · split
    · rename_i form hform
      exact .of_irregular? hform
    · rw [hline, List.drop_length]
      split
      · rename_i form hform
        rw [List.append_nil]
        exact .of_applyRules hform
      · exact .kept

/-! ## The last word of a name -/

theorem splitLastWord_append {cs : List Char} (h : dropFinalNewline cs = cs) :
    (splitLastWord cs).1 ++ (splitLastWord cs).2 = cs := by
  have hparts : ∀ p : Char → Bool,
      (cs.reverse.dropWhile p).reverse ++ (cs.reverse.takeWhile p).reverse = cs := by
    intro p
    rw [← List.reverse_append, List.takeWhile_append_dropWhile, List.reverse_reverse]
  unfold splitLastWord
  rw [h]
  dsimp only
  split
  · split
    · exact List.nil_append cs
    · exact hparts Char.isUpper
  · have hsmall := hparts isSmall
    split
    · rename_i c rest heq
      split
      · rw [heq, List.reverse_cons, ← List.append_cons] at hsmall
        exact hsmall
      · exact hsmall
    · rename_i heq
      rw [heq] at hsmall
      exact hsmall

/-! ## Classes of characters -/

/-- A class of characters that has the ASCII letters and, with a character, both cases of it. -/
structure GoesWithCase (P : Char → Prop) : Prop where
  letter : ∀ c : Char, c.isAlpha = true → P c
  lower : ∀ {cs : List Char}, (∀ c ∈ cs, P c) → ∀ c ∈ lower cs, P c
  upper : ∀ {c : Char}, P c → ∀ d ∈ upperChar c, P d
  newline : ¬P '\n'

section GoesWithCase

variable {P : Char → Prop} (hP : GoesWithCase P)
include hP

theorem GoesWithCase.dropFinalNewline {cs : List Char} (h : ∀ c ∈ cs, P c) :
    dropFinalNewline cs = cs := by
  unfold Text.dropFinalNewline
  rw [if_neg]
  exact fun hlast => hP.newline (h '\n' (List.mem_of_getLast? hlast))

theorem GoesWithCase.capitalized {cs : List Char} (h : ∀ c ∈ cs, P c) :
    ∀ c ∈ capitalized cs, P c := by
  cases cs with
  | nil => exact h
  | cons d cs =>
    obtain ⟨hd, hcs⟩ := List.forall_mem_cons.mp h
    exact List.forall_mem_append.mpr ⟨hP.upper hd, hcs⟩

theorem GoesWithCase.matchCase {cs : List Char} (h : ∀ c ∈ cs, P c) (word : List Char) :
    ∀ c ∈ matchCase word cs, P c := by
  unfold Naming.matchCase
  split
  · intro c hc
    obtain ⟨d, hd, hc⟩ := List.mem_flatMap.mp hc
    exact hP.upper (h d hd) c hc
  · split
    · exact hP.capitalized h
    · exact h

/-- Irregular words are of letters, and rules put letters on. -/
theorem GoesWithCase.inflects {form : List Char} (hform : Inflects number word form)
    (h : ∀ c ∈ word, P c) : ∀ c ∈ form, P c := by
  cases hform with
  | kept => exact h
  | irregular hpair _ =>
    have hletters := (irregular_sound hpair number).2.1
    exact hP.matchCase (fun c hc => hP.letter c (hletters c hc)) word
  | rule hrule _ hsource =>
    have hletters := (rules_sound number _ hrule).2.2
    refine hP.matchCase (fun c hc => ?_) word
    rcases List.mem_append.mp hc with hc | hc
    · exact hP.lower h c (hsource ▸ List.mem_append_left _ hc)
    · exact hP.letter c (hletters c hc)

/-- The parts of a name. -/
theorem GoesWithCase.splitLastWord {cs : List Char} (h : ∀ c ∈ cs, P c) :
    (∀ c ∈ (splitLastWord cs).1, P c) ∧ ∀ c ∈ (splitLastWord cs).2, P c := by
  rw [← List.forall_mem_append, splitLastWord_append (hP.dropFinalNewline h)]
  exact h

/-- **Inflection stays in the class.** -/
theorem GoesWithCase.toNumber {name : String} (h : ∀ c ∈ name.toList, P c) (number : Number) :
    ∀ c ∈ (toNumber number name).toList, P c := by
  unfold Naming.toNumber
  split
  · exact h
  · obtain ⟨hlead, hword⟩ := hP.splitLastWord h
    have hforms : Inflects number _ _ := inflects_inflect (hP.dropFinalNewline (hP.lower hword))
    dsimp only
    rw [String.toList_ofList, List.forall_mem_append]
    exact ⟨hlead, hP.inflects hforms hword⟩

end GoesWithCase

end Crowsfoot.Naming
