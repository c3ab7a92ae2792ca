import Crowsfoot.Proofs.Naming.Pascal

/-!
# Plurals of singulars of plurals

`inflect_plural_singular`: the singular of the plural of a word need not be the word, but its plural
is the plural of the word again. It holds of singular words of small letters that are not misread
(`IsMisread`): the plural of `statu` is taken for the word `status`, whose plural is another.

The rules are tried in order and look at endings, so an ending tells which of them can be the first
to apply to the words that have it (`candidates`, `mem_candidates`). Of every rule there are finitely
many endings to look at (`Stem.samples`), so what one list of rules makes of the results of the other
is decided on endings:

* Most rules for singulars lead back: the plural of what they make of a plural is that plural
  (`SuffixRule.leadsBack`).
* Three do not, since they leave open which word the plural was made of (`hissRule`, `keptRule`,
  `plainRule`). The misread words are those that the first two mistake.

The plurals of other words than those with a particular ending are the words with an `s`, so no
ending of theirs is known. There the rules for singulars are gone through one by one
(`singular_of_plural`).
-/

namespace Crowsfoot.Naming

open Crowsfoot.Text

/-! ## Rules and endings -/

section Rules

variable {rule : SuffixRule} {word form ending : List Char}

theorem Stem.accepts_append {s : Stem} {cs : List Char} (h : s.accepts cs = true)
    (lead : List Char) : s.accepts (lead ++ cs) = true := by
  cases s with
  | any => rfl
  | endsIn tails =>
    obtain ⟨tail, htail, hends⟩ := List.any_eq_true.mp h
    refine List.any_eq_true.mpr ⟨tail, htail, List.isSuffixOf_iff_suffix.mpr ?_⟩
    exact (List.isSuffixOf_iff_suffix.mp hends).trans (List.suffix_append lead cs)
  | consonant =>
    unfold Stem.accepts at h ⊢
    dsimp only at h ⊢
    rcases Bool.or_eq_true_iff.mp h with h | h
    · cases hlast : cs.getLast? with
      | none => simp [hlast] at h
      | some c =>
        rw [hlast] at h
        rw [List.getLast?_append, hlast, Option.some_or]
        exact Bool.or_eq_true_iff.mpr (Or.inl h)
    · refine Bool.or_eq_true_iff.mpr (Or.inr (List.isSuffixOf_iff_suffix.mpr ?_))
      exact (List.isSuffixOf_iff_suffix.mp h).trans (List.suffix_append lead cs)

theorem SuffixRule.apply?_of_accepts {stem : List Char} (h : rule.stem.accepts stem = true) :
    rule.apply? (stem ++ rule.ending.toList) = some (stem ++ rule.replacement.toList) := by
  have hends : endsWith rule.ending.toList (stem ++ rule.ending.toList) = true :=
    List.isSuffixOf_iff_suffix.mpr (List.suffix_append _ _)
  unfold SuffixRule.apply?
  rw [if_pos hends, List.length_append, Nat.add_sub_cancel, List.take_left]
  exact if_pos h

/-- **Rules look at endings only.** -/
theorem SuffixRule.apply?_append (h : rule.apply? word = some form) (lead : List Char) :
    rule.apply? (lead ++ word) = some (lead ++ form) := by
  obtain ⟨stem, haccepts, rfl, rfl⟩ := SuffixRule.apply?_eq_some h
  rw [← List.append_assoc, ← List.append_assoc]
  exact SuffixRule.apply?_of_accepts (Stem.accepts_append haccepts lead)

/-- The texts of which a rule needs one at the end of a word. -/
def SuffixRule.tails (rule : SuffixRule) : List (List Char) :=
  match rule.stem with
  | .endsIn tails => tails.map fun tail => tail.toList ++ rule.ending.toList
  | _ => [rule.ending.toList]

theorem SuffixRule.exists_tail (h : rule.apply? word = some form) :
    ∃ tail ∈ rule.tails, tail <:+ word := by
  obtain ⟨stem, haccepts, rfl, -⟩ := SuffixRule.apply?_eq_some h
  unfold SuffixRule.tails
  cases hs : rule.stem with
  | any | consonant => exact ⟨_, List.mem_singleton_self _, List.suffix_append _ _⟩
  | endsIn tails =>
    rw [hs] at haccepts
    obtain ⟨tail, htail, hends⟩ := List.any_eq_true.mp haccepts
    obtain ⟨lead, rfl⟩ := List.isSuffixOf_iff_suffix.mp hends
    refine ⟨_, List.mem_map_of_mem htail, ?_⟩
    rw [List.append_assoc]
    exact List.suffix_append _ _

/-- Whether two texts are at odds: no word ends in both. -/
def atOdds (a b : List Char) : Bool :=
  !endsWith a b && !endsWith b a

theorem not_suffix_of_atOdds {a b : List Char} (h : atOdds a b = true) (ha : a <:+ word) :
    ¬b <:+ word := by
  intro hb
  unfold atOdds at h
  rw [Bool.and_eq_true, Bool.not_eq_true', Bool.not_eq_true'] at h
  rcases List.suffix_or_suffix_of_suffix ha hb with hab | hba
  · exact absurd (List.isSuffixOf_iff_suffix.mpr hab) (Bool.eq_false_iff.mp h.1)
  · exact absurd (List.isSuffixOf_iff_suffix.mpr hba) (Bool.eq_false_iff.mp h.2)

/-- Whether a rule applies to no word with this ending. -/
def SuffixRule.refuses (rule : SuffixRule) (ending : List Char) : Bool :=
  rule.tails.all (atOdds ending)

theorem SuffixRule.apply?_of_refuses (h : rule.refuses ending = true) (lead : List Char) :
    rule.apply? (lead ++ ending) = none := by
  by_contra hsome
  obtain ⟨form, hform⟩ := Option.ne_none_iff_exists'.mp hsome
  obtain ⟨tail, htail, hends⟩ := SuffixRule.exists_tail hform
  exact not_suffix_of_atOdds (List.all_eq_true.mp h tail htail) (List.suffix_append lead ending)
    hends

/-- The rules one of which is the first to apply to a word with this ending. -/
def candidates : List SuffixRule → List Char → List SuffixRule
  | [], _ => []
  | rule :: rules, ending =>
    if rule.refuses ending then candidates rules ending
    else
      match rule.apply? ending with
      | some _ => [rule]
      | none => rule :: candidates rules ending

/-- **An ending tells which rules come into question.** -/
theorem mem_candidates {rules : List SuffixRule} {lead : List Char}
    (h : applyRules rules (lead ++ ending) = some form) :
    ∃ rule ∈ candidates rules ending, rule.apply? (lead ++ ending) = some form := by
  induction rules with
  | nil => exact nomatch h
  | cons rule rules ih =>
    unfold applyRules at h ih
    rw [List.findSome?_cons] at h
    unfold candidates
    by_cases hrefuses : rule.refuses ending = true
    · rw [SuffixRule.apply?_of_refuses hrefuses lead] at h
      rw [if_pos hrefuses]
      exact ih h
    rw [if_neg hrefuses]
    cases hsure : rule.apply? ending with
    | some made =>
      have happlies := SuffixRule.apply?_append hsure lead
      rw [happlies] at h
      exact ⟨rule, List.mem_singleton_self rule, happlies.trans h⟩
    | none =>
      cases happly : rule.apply? (lead ++ ending) with
      | some made =>
        rw [happly] at h
        exact ⟨rule, List.mem_cons_self, happly.trans h⟩
      | none =>
        rw [happly] at h
        obtain ⟨other, hother, heq⟩ := ih h
        exact ⟨other, List.mem_cons_of_mem rule hother, heq⟩

theorem mem_of_mem_candidates {rules : List SuffixRule} (h : rule ∈ candidates rules ending) :
    rule ∈ rules := by
  induction rules with
  | nil => exact nomatch h
  | cons first rules ih =>
    unfold candidates at h
    split at h
    · exact List.mem_cons_of_mem first (ih h)
    · split at h
      · exact List.mem_singleton.mp h ▸ List.mem_cons_self
      · rcases List.mem_cons.mp h with rfl | h
        · exact List.mem_cons_self
        · exact List.mem_cons_of_mem first (ih h)

/-- If all rules that come into question make the same of an ending, that is made of the word. -/
theorem eq_of_candidates {rules : List SuffixRule} {lead made : List Char}
    (h : applyRules rules (lead ++ ending) = some form)
    (hall : ∀ rule ∈ candidates rules ending, rule.apply? ending = some made) :
    form = lead ++ made := by
  obtain ⟨rule, hcandidate, happly⟩ := mem_candidates h
  rw [SuffixRule.apply?_append (hall rule hcandidate) lead] at happly
  exact (Option.some.inj happly).symm

end Rules

/-! ## Samples -/

/-- Small letters that are no vowels. -/
def consonants : List Char :=
  "bcdfghjklmnpqrstvwxz".toList

/-- Stems one of which ends every accepted stem of small letters. -/
def Stem.samples : Stem → List (List Char)
  | .any => [[]]
  | .endsIn tails => tails.map String.toList
  | .consonant => ['q', 'u'] :: consonants.map fun c => [c]

theorem mem_consonants {c : Char} (hlower : c.isLower = true)
    (hvowel : (!(['a', 'e', 'i', 'o', 'u', 'y'].contains c)) = true) : c ∈ consonants := by
  have hall : c.isLower = true → (!(['a', 'e', 'i', 'o', 'u', 'y'].contains c)) = true →
      c ∈ consonants :=
    forall_isAscii (P := fun c => c.isLower = true →
      (!(['a', 'e', 'i', 'o', 'u', 'y'].contains c)) = true → c ∈ consonants)
      (by decide +kernel) (isAscii_of_isAlpha (isAlpha_of_isLower hlower))
  exact hall hlower hvowel

theorem Stem.exists_sample {s : Stem} {stem : List Char} (h : s.accepts stem = true)
    (hsmall : ∀ c ∈ stem, c.isLower = true) : ∃ sample ∈ s.samples, sample <:+ stem := by
  cases s with
  | any => exact ⟨[], List.mem_singleton_self _, List.nil_suffix⟩
  | endsIn tails =>
    obtain ⟨tail, htail, hends⟩ := List.any_eq_true.mp h
    exact ⟨tail.toList, List.mem_map_of_mem htail, List.isSuffixOf_iff_suffix.mp hends⟩
  | consonant =>
    rcases Bool.or_eq_true_iff.mp h with h | h
    · rcases List.eq_nil_or_concat' stem with rfl | ⟨lead, c, rfl⟩
      · exact nomatch h
      · rw [List.getLast?_concat] at h
        have hlower := hsmall c (List.mem_append_right _ (List.mem_singleton_self c))
        exact ⟨[c], List.mem_cons_of_mem _ (List.mem_map_of_mem (mem_consonants hlower h)),
          List.suffix_append lead [c]⟩
    · exact ⟨['q', 'u'], List.mem_cons_self, List.isSuffixOf_iff_suffix.mp h⟩

/-- What a rule makes of a word of small letters, it makes of one of its samples. -/
theorem SuffixRule.exists_sample {rule : SuffixRule} {word form : List Char}
    (h : rule.apply? word = some form) (hsmall : ∀ c ∈ word, c.isLower = true) :
    ∃ lead, ∃ sample ∈ rule.stem.samples, word = lead ++ (sample ++ rule.ending.toList)
      ∧ form = lead ++ (sample ++ rule.replacement.toList) := by
  obtain ⟨stem, haccepts, rfl, rfl⟩ := SuffixRule.apply?_eq_some h
  obtain ⟨sample, hsample, lead, rfl⟩ :=
    Stem.exists_sample haccepts (List.forall_mem_append.mp hsmall).1
  exact ⟨lead, sample, hsample, List.append_assoc _ _ _, List.append_assoc _ _ _⟩

/-! ## Words of small letters -/

section Words

variable {number : Number} {word form : List Char}

/-- The words that no rule is asked for, since a list has them. -/
def listedWords : List String :=
  uncountable ++ irregular.flatMap fun pair => [pair.1, pair.2]

/-- A word that is not listed follows the rules. -/
theorem inflect_of_not_listed (h : IsSmallWord word) (hnot : String.ofList word ∉ listedWords)
    (hform : applyRules number.rules word = some form) : inflect number word = form := by
  have huncountable : uncountable.contains (String.ofList word) = false := by
    rw [← Bool.not_eq_true, List.contains_iff_mem]
    exact fun hmem => hnot (List.mem_append_left _ hmem)
  have hirregular : irregular? number word = none := by
    unfold irregular?
    dsimp only
    rw [h.lower, List.findSome?_eq_none_iff]
    intro pair hpair
    have hother : ∀ listed ∈ [pair.1, pair.2], String.ofList word ≠ listed := by
      rintro listed hlisted rfl
      exact hnot (List.mem_append_right _ (List.mem_flatMap.mpr ⟨pair, hpair, hlisted⟩))
    have hone := hother pair.1 (by simp)
    have hmany := hother pair.2 (by simp)
    cases number <;> simp [Number.orient, hone, hmany]
  have hline : dropFinalNewline word = word :=
    goesWithCase_letters.dropFinalNewline h.letters
  unfold inflect
  dsimp only
  rw [h.lower, huncountable, if_neg Bool.false_ne_true, hirregular]
  dsimp only
  rw [hline, hform, List.drop_length]
  dsimp only
  rw [List.append_nil, matchCase_of_isSmall h.isSmall]

end Words

/-! ## The way back -/

/-- The singular of words in `es` after a hiss. -/
def hissRule : SuffixRule :=
  ⟨.endsIn ["x", "ch", "ss", "sh", "z"], "es", ""⟩

/-- Words that are their own singular although they end in `s`. -/
def keptRule : SuffixRule :=
  ⟨.endsIn ["ss", "us", "is"], "", ""⟩

/-- The singular of all other words in `s`. -/
def plainRule : SuffixRule :=
  ⟨.any, "s", ""⟩

/-- The plural rules for words with particular endings. -/
def endingRules : List SuffixRule :=
  pluralRules.take 10

/-- Every word has a plural by the rules: that of its ending, itself, or with an `s`. -/
theorem exists_plural (word : List Char) :
    ∃ plural, applyRules pluralRules word = some plural
      ∧ ((∃ rule ∈ endingRules, rule.apply? word = some plural) ∨ plural = word
        ∨ ¬['s'] <:+ word ∧ plural = word ++ ['s']) := by
  have hsplit : pluralRules = endingRules ++ [⟨.any, "s", "s"⟩, ⟨.any, "", "s"⟩] := rfl
  unfold applyRules
  rw [hsplit, List.findSome?_append]
  cases hfirst : endingRules.findSome? fun rule => rule.apply? word with
  | some plural =>
    obtain ⟨rule, hrule, happly⟩ := List.exists_of_findSome?_eq_some hfirst
    exact ⟨plural, rfl, Or.inl ⟨rule, hrule, happly⟩⟩
  | none =>
    rw [Option.none_or, List.findSome?_cons]
    by_cases hends : ['s'] <:+ word
    · obtain ⟨stem, rfl⟩ := hends
      have happly : SuffixRule.apply? ⟨.any, "s", "s"⟩ (stem ++ ['s']) = some (stem ++ ['s']) :=
        SuffixRule.apply?_of_accepts rfl
      exact ⟨_, by rw [happly], Or.inr (Or.inl rfl)⟩
    · have hnone : SuffixRule.apply? ⟨.any, "s", "s"⟩ word = none := by
        by_contra hsome
        obtain ⟨form, hform⟩ := Option.ne_none_iff_exists'.mp hsome
        obtain ⟨stem, -, rfl, -⟩ := SuffixRule.apply?_eq_some hform
        exact hends (List.suffix_append stem _)
      have happly : SuffixRule.apply? ⟨.any, "", "s"⟩ (word ++ []) = some (word ++ ['s']) :=
        SuffixRule.apply?_of_accepts rfl
      rw [List.append_nil] at happly
      rw [hnone, List.findSome?_cons, happly]
      exact ⟨_, rfl, Or.inr (Or.inr ⟨hends, rfl⟩)⟩

/-- Every word in `s` has a singular by the rules. -/
theorem exists_singular {plural : List Char} (h : ['s'] <:+ plural) :
    ∃ form, applyRules singularRules plural = some form := by
  obtain ⟨stem, rfl⟩ := h
  refine Option.isSome_iff_exists.mp (List.findSome?_isSome_iff.mpr ⟨plainRule, by decide, ?_⟩)
  rw [show plainRule.apply? (stem ++ ['s']) = _ from SuffixRule.apply?_of_accepts rfl]
  rfl

/-- Whether the plural of what a rule makes of a word is the word. -/
def SuffixRule.leadsBack (rule : SuffixRule) : Bool :=
  rule.stem.samples.all fun sample =>
    (candidates pluralRules (sample ++ rule.replacement.toList)).all fun back =>
      back.apply? (sample ++ rule.replacement.toList) == some (sample ++ rule.ending.toList)

/-- The singular rules that do not lead back. -/
theorem leadsBack_or {rule : SuffixRule} (h : rule ∈ singularRules) :
    rule.leadsBack = true ∨ rule ∈ [hissRule, keptRule, plainRule] := by
  have hall : ∀ rule ∈ singularRules,
      rule.leadsBack = true ∨ rule ∈ [hissRule, keptRule, plainRule] := by
    decide +kernel
  exact hall rule h

/-- The singular rules that come into question for a plural that is not just a word with an `s`:
they lead back, or take off what was put on. -/
theorem candidates_plural : ∀ rule ∈ endingRules, ∀ sample ∈ rule.stem.samples,
    ∀ back ∈ candidates singularRules (sample ++ rule.replacement.toList),
      back.leadsBack = true
        ∨ back.apply? (sample ++ rule.replacement.toList)
          = some (sample ++ rule.ending.toList) := by
  decide +kernel

/-- Endings whose plural is taken for that of another word. -/
def misreadEndings : List String :=
  ["quize", "matrixe", "vertexe", "indexe", "statu", "bu", "campu", "viru", "analysi", "diagnosi",
    "parenthesi", "prognosi", "synopsi"]

/-- A word whose plural is taken for that of another word: `oxes` for that of `ox`, say, which has
another plural. -/
def IsMisread (word : List Char) : Prop :=
  String.ofList word ∈ ["oxe", "fishe"] ∨ ∃ e ∈ misreadEndings, e.toList <:+ word

instance (word : List Char) : Decidable (IsMisread word) :=
  inferInstanceAs (Decidable (_ ∨ ∃ e ∈ misreadEndings, e.toList <:+ word))

section Back

variable {rule : SuffixRule} {word plural : List Char}

/-- A rule that leads back does so. -/
theorem SuffixRule.plural_of_leadsBack (hback : rule.leadsBack = true) {form : List Char}
    (h : rule.apply? plural = some form) (hsmall : ∀ c ∈ plural, c.isLower = true) :
    applyRules pluralRules form = some plural := by
  obtain ⟨lead, sample, hsample, rfl, rfl⟩ := SuffixRule.exists_sample h hsmall
  obtain ⟨made, hmade, -⟩ := exists_plural (lead ++ (sample ++ rule.replacement.toList))
  obtain ⟨back, hcandidate, hform⟩ := mem_candidates hmade
  have hall := List.all_eq_true.mp (List.all_eq_true.mp hback sample hsample) back hcandidate
  have happlies := SuffixRule.apply?_append (beq_iff_eq.mp hall) lead
  rw [hmade, ← hform, happlies]

/-- What the singular rule for a hiss takes off of a word with an `s` is put on again. -/
theorem plural_of_hissRule {form : List Char} (hplain : ¬IsMisread word)
    (hsmall : ∀ c ∈ word, c.isLower = true)
    (h : hissRule.apply? (word ++ ['s']) = some form) :
    String.ofList form ∉ listedWords ∧ applyRules pluralRules form = some (word ++ ['s']) := by
  obtain ⟨stem, haccepts, hword, hform⟩ := SuffixRule.apply?_eq_some h
  obtain rfl : form = stem := hform.trans (List.append_nil stem)
  obtain rfl : word = form ++ ['e'] := by
    have hlast : word ++ ['s'] = (form ++ ['e']) ++ ['s'] := by
      rw [hword, List.append_assoc]
      rfl
    exact List.append_cancel_right hlast
  have hword : (form ++ ['e']) ++ ['s'] = form ++ "es".toList := List.append_assoc _ _ _
  constructor
  · intro hlisted
    have hall : ∀ listed ∈ listedWords, hissRule.stem.accepts listed.toList = true →
        listed ++ "e" ∈ ["oxe", "fishe"] := by
      decide +kernel
    have hmem := hall _ hlisted (by rwa [String.toList_ofList])
    refine hplain (Or.inl ?_)
    rwa [String.ofList_append]
  · obtain ⟨sample, hsample, lead, rfl⟩ :=
      Stem.exists_sample haccepts (List.forall_mem_append.mp hsmall).1
    obtain ⟨made, hmade, -⟩ := exists_plural (lead ++ sample)
    obtain ⟨back, hcandidate, happly⟩ := mem_candidates hmade
    have hall : ∀ sample ∈ hissRule.stem.samples, ∀ back ∈ candidates pluralRules sample,
        back.apply? sample = some (sample ++ "es".toList)
          ∨ ∀ tail ∈ back.tails, String.ofList (tail ++ ['e']) ∈ misreadEndings := by
      decide +kernel
    rcases hall sample hsample back hcandidate with hes | hmisread
    · rw [hmade, ← happly, SuffixRule.apply?_append hes lead, hword, List.append_assoc]
    · obtain ⟨tail, htail, before, heq⟩ := SuffixRule.exists_tail happly
      refine absurd (Or.inr ⟨_, hmisread tail htail, ?_⟩) hplain
      rw [String.toList_ofList, ← heq, List.append_assoc]
      exact List.suffix_append before _

theorem dropLast_suffix {tail cs : List Char} {c : Char} (h : tail <:+ cs ++ [c]) :
    tail.dropLast <:+ cs := by
  obtain ⟨before, heq⟩ := h
  by_cases hnil : tail = []
  · rw [hnil]
    exact List.nil_suffix
  · have hdrop := congrArg List.dropLast heq
    rw [List.dropLast_append_of_ne_nil hnil, List.dropLast_concat] at hdrop
    exact ⟨before, hdrop⟩

/-- A word with an `s` that is its own singular is its own plural. -/
theorem plural_of_keptRule {form : List Char} (hplain : ¬IsMisread word)
    (hends : ¬['s'] <:+ word) (hsmall : ∀ c ∈ word ++ ['s'], c.isLower = true)
    (h : keptRule.apply? (word ++ ['s']) = some form) :
    form = word ++ ['s'] ∧ applyRules pluralRules form = some (word ++ ['s']) := by
  obtain ⟨stem, haccepts, hword, hform⟩ := SuffixRule.apply?_eq_some h
  obtain rfl : form = word ++ ['s'] := hform.trans hword.symm
  obtain rfl : word ++ ['s'] = stem := hword.trans (List.append_nil stem)
  refine ⟨rfl, ?_⟩
  obtain ⟨sample, hsample, hsuffix⟩ := Stem.exists_sample haccepts hsmall
  obtain ⟨lead, heq⟩ := hsuffix
  obtain ⟨made, hmade, -⟩ := exists_plural (lead ++ sample)
  obtain ⟨back, hcandidate, happly⟩ := mem_candidates hmade
  have hall : ∀ sample ∈ keptRule.stem.samples, sample = ['s', 's']
      ∨ ∀ back ∈ candidates pluralRules sample, back.apply? sample = some sample
        ∨ ∀ tail ∈ back.tails,
          atOdds sample tail = true ∨ String.ofList tail.dropLast ∈ misreadEndings := by
    decide +kernel
  rcases hall sample hsample with rfl | hall
  · refine absurd ⟨lead, ?_⟩ hends
    have hlast : (lead ++ ['s']) ++ ['s'] = word ++ ['s'] := by
      rw [← heq, List.append_assoc]
      rfl
    exact List.append_cancel_right hlast
  · rcases hall back hcandidate with hkept | hmisread
    · rw [← heq, hmade, ← happly, SuffixRule.apply?_append hkept lead]
    · obtain ⟨tail, htail, hsuffix⟩ := SuffixRule.exists_tail happly
      rcases hmisread tail htail with hodds | hmisread
      · exact absurd hsuffix (not_suffix_of_atOdds hodds (List.suffix_append lead sample))
      · refine absurd (Or.inr ⟨_, hmisread, ?_⟩) hplain
        rw [String.toList_ofList]
        exact dropLast_suffix (heq ▸ hsuffix)

/-- No listed word is what a rule makes that leads back. -/
theorem not_listed_of_leadsBack (hrule : rule ∈ singularRules) (hback : rule.leadsBack = true)
    {form : List Char} (h : rule.apply? plural = some form) : String.ofList form ∉ listedWords := by
  have hall : ∀ listed ∈ listedWords, ∀ rule ∈ singularRules, rule.leadsBack = true →
      SuffixRule.apply? ⟨rule.stem, rule.replacement, rule.ending⟩ listed.toList = none := by
    decide +kernel
  intro hlisted
  obtain ⟨stem, haccepts, -, rfl⟩ := SuffixRule.apply?_eq_some h
  have hnone := hall _ hlisted rule hrule hback
  have hsome : SuffixRule.apply? ⟨rule.stem, rule.replacement, rule.ending⟩
      (stem ++ rule.replacement.toList) = some (stem ++ rule.ending.toList) :=
    SuffixRule.apply?_of_accepts haccepts
  rw [String.toList_ofList, hsome] at hnone
  exact nomatch hnone

/-- A plural that is another word than the singular ends in an `s`, after something. -/
theorem exists_concat_of_plural (h : IsSmallWord word)
    (hplural : applyRules pluralRules word = some plural) (hother : plural ≠ word) :
    ∃ lead, lead ≠ [] ∧ plural = lead ++ ['s'] := by
  have hrules : ∀ rule ∈ endingRules, ∃ lead ∈ [rule.replacement.toList.dropLast],
      lead ≠ [] ∧ rule.replacement.toList = lead ++ ['s'] := by
    decide +kernel
  obtain ⟨made, hmade, hcases⟩ := exists_plural word
  obtain rfl : made = plural := Option.some.inj (hmade.symm.trans hplural)
  rcases hcases with ⟨rule, hrule, happly⟩ | heq | ⟨-, rfl⟩
  · obtain ⟨stem, -, -, rfl⟩ := SuffixRule.apply?_eq_some happly
    obtain ⟨lead, -, hne, heq⟩ := hrules rule hrule
    refine ⟨stem ++ lead, List.append_ne_nil_of_right_ne_nil stem hne, ?_⟩
    rw [heq, List.append_assoc]
  · exact absurd heq hother
  · exact ⟨word, h.nonempty, rfl⟩

/-- **What the rules take for the singular of a plural**: the word itself, or one with that
plural. -/
theorem singular_of_plural (h : IsSmallWord word) (hplain : ¬IsMisread word)
    (hplural : applyRules pluralRules word = some plural)
    (hsmall : ∀ c ∈ plural, c.isLower = true) (hother : plural ≠ word) :
    ∃ form, applyRules singularRules plural = some form ∧ (form = word
      ∨ applyRules pluralRules form = some plural
        ∧ (form = plural ∨ String.ofList form ∉ listedWords)) := by
  obtain ⟨stem, -, hstem⟩ := exists_concat_of_plural h hplural hother
  obtain ⟨form, hform⟩ := exists_singular ⟨stem, hstem.symm⟩
  refine ⟨form, hform, ?_⟩
  have hback : ∀ rule ∈ singularRules, rule.leadsBack = true → rule.apply? plural = some form →
      applyRules pluralRules form = some plural ∧ String.ofList form ∉ listedWords :=
    fun rule hrule hleads happly => ⟨SuffixRule.plural_of_leadsBack hleads happly hsmall,
      not_listed_of_leadsBack hrule hleads happly⟩
  obtain ⟨made, hmade, hcases⟩ := exists_plural word
  obtain rfl : made = plural := Option.some.inj (hmade.symm.trans hplural)
  rcases hcases with ⟨rule, hrule, happly⟩ | heq | ⟨hends, rfl⟩
  · obtain ⟨lead, sample, hsample, rfl, rfl⟩ := SuffixRule.exists_sample happly h.small
    obtain ⟨back, hcandidate, happly⟩ := mem_candidates hform
    rcases candidates_plural rule hrule sample hsample back hcandidate with hleads | hundone
    · obtain ⟨hagain, hnot⟩ := hback back (mem_of_mem_candidates hcandidate) hleads happly
      exact Or.inr ⟨hagain, Or.inr hnot⟩
    · rw [SuffixRule.apply?_append hundone lead] at happly
      exact Or.inl (Option.some.inj happly).symm
  · exact absurd heq hother
  · obtain ⟨rule, hrule, happly⟩ := List.exists_of_findSome?_eq_some hform
    rcases leadsBack_or hrule with hleads | hdoubtful
    · obtain ⟨hagain, hnot⟩ := hback rule hrule hleads happly
      exact Or.inr ⟨hagain, Or.inr hnot⟩
    · simp only [List.mem_cons, List.not_mem_nil, or_false] at hdoubtful
      rcases hdoubtful with rfl | rfl | rfl
      · obtain ⟨hnot, hagain⟩ := plural_of_hissRule hplain h.small happly
        exact Or.inr ⟨hagain, Or.inr hnot⟩
      · obtain ⟨hkept, hagain⟩ := plural_of_keptRule hplain hends hsmall happly
        exact Or.inr ⟨hagain, Or.inl hkept⟩
      · rw [show plainRule.apply? (word ++ ['s']) = _ from SuffixRule.apply?_of_accepts rfl] at happly
        exact Or.inl ((Option.some.inj happly).symm.trans (List.append_nil word))

/-- **The plural of a singular of a plural is that plural**, for a singular word of small letters
that is not misread. -/
theorem inflect_plural_singular (h : IsSmallWord word)
    (hsingular : inflect .singular word = word) (hplain : ¬IsMisread word) :
    inflect .plural (inflect .singular (inflect .plural word)) = inflect .plural word := by
  by_cases hlisted : String.ofList word ∈ listedWords
  · have hall : ∀ listed ∈ listedWords, inflect .singular listed.toList = listed.toList →
        inflect .plural (inflect .singular (inflect .plural listed.toList))
          = inflect .plural listed.toList := by
      decide +kernel
    have hword := hall _ hlisted
    rw [String.toList_ofList] at hword
    exact hword hsingular
  obtain ⟨plural, hplural, -⟩ := exists_plural word
  have hmany : inflect .plural word = plural := inflect_of_not_listed h hlisted hplural
  have hsmall := small_inflect .plural h
  rw [hmany] at hsmall ⊢
  by_cases hother : plural = word
  · rw [hother, hsingular, hmany, hother]
  obtain ⟨lead, hne, hlead⟩ := exists_concat_of_plural h hplural hother
  have hword : IsSmallWord plural := ⟨hlead ▸ List.append_ne_nil_of_left_ne_nil hne _, hsmall⟩
  by_cases hmanyListed : String.ofList plural ∈ listedWords
  · have hall : ∀ listed ∈ listedWords, endsWith ['s'] listed.toList = true →
        inflect .plural (inflect .singular listed.toList) = listed.toList := by
      decide +kernel
    have hends := hall _ hmanyListed
    rw [String.toList_ofList] at hends
    exact hends (List.isSuffixOf_iff_suffix.mpr (hlead ▸ List.suffix_append lead _))
  obtain ⟨form, hform, hcases⟩ := singular_of_plural h hplain hplural hsmall hother
  have hone : inflect .singular plural = form := inflect_of_not_listed hword hmanyListed hform
  rw [hone]
  rcases hcases with rfl | ⟨hagain, hcases⟩
  · exact hmany
  · have hnot : String.ofList form ∉ listedWords := by
      rcases hcases with rfl | hnot
      · exact hmanyListed
      · exact hnot
    have hsome : form ≠ [] := by
      rintro rfl
      rw [show applyRules pluralRules [] = some ['s'] by decide +kernel] at hagain
      have hlast : [] ++ ['s'] = lead ++ ['s'] := (Option.some.inj hagain).trans hlead
      exact hne (List.append_cancel_right hlast).symm
    exact inflect_of_not_listed ⟨hsome, hone ▸ small_inflect .singular hword⟩ hnot hagain

end Back

end Crowsfoot.Naming
