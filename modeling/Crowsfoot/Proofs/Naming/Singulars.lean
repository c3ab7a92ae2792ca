import Crowsfoot.Proofs.Naming.Endings
import Crowsfoot.Proofs.Naming.LastWord
import Crowsfoot.Proofs.Text.LetterCase

/-!
# Singulars of singulars

`singularize_singularize_eq_iff`: the singular of an identifier is its own singular, unless the
identifier is a plural twice over (`IsTwicePlural`): of `mens` the rule for all words in `s` leaves
`men`, and of `usersS`, whose last word is the `S`, it leaves `users`.

What a rule makes of a word either lacks just an `s`, or has an ending that is settled (`Settled`):
no rule changes words with it (`singular_cases`). So only the first kind can have another singular.
Such a word does not end in `s` any more, and no rule changes it if no list has it
(`singular_of_not_suffix_s`).

Nothing is said of words in `aliases` (`EndsInAliases`). Their singular is `alias`, which is not
among the endings that are kept although they are in `s`.
-/

namespace Crowsfoot.Naming

open Crowsfoot.Text

/-! ## Words -/

/-- The plural of a word that has its own, in letters of any case. -/
def IsIrregularPlural (word : List Char) : Prop :=
  ∃ pair ∈ irregular, lower word = pair.2.toList

instance (word : List Char) : Decidable (IsIrregularPlural word) :=
  inferInstanceAs (Decidable (∃ pair ∈ irregular, lower word = pair.2.toList))

/-- An ending of words that are their own singular: none of them is an irregular plural, and the
rule that applies changes nothing. -/
def Settled (ending : List Char) : Prop :=
  (∀ pair ∈ irregular, ¬ending <:+ pair.2.toList)
    ∧ ∀ rule ∈ candidates singularRules ending, rule.apply? ending = some ending

instance (ending : List Char) : Decidable (Settled ending) :=
  inferInstanceAs (Decidable (_ ∧ _))

/-- The rule that takes back what a rule makes. -/
def SuffixRule.reversed (rule : SuffixRule) : SuffixRule :=
  ⟨rule.stem, rule.replacement, rule.ending⟩

section Words

variable {number : Number} {word form ending : List Char}

theorem SuffixRule.apply?_reversed {rule : SuffixRule} (h : rule.apply? word = some form) :
    rule.reversed.apply? form = some word := by
  obtain ⟨stem, haccepts, rfl, rfl⟩ := SuffixRule.apply?_eq_some h
  exact SuffixRule.apply?_of_accepts haccepts

/-- **A word is inflected** not at all, as a list says, or by the first rule that applies. -/
theorem inflect_cases (number : Number) (hsmall : ∀ c ∈ word, isSmall c = true) :
    inflect number word = word
        ∧ (applyRules number.rules word = none ∨ String.ofList word ∈ listedWords)
      ∨ (∃ pair ∈ irregular, word = (number.orient pair).1.toList
        ∧ inflect number word = (number.orient pair).2.toList)
      ∨ applyRules number.rules word = some (inflect number word) := by
  have hline := dropFinalNewline_of_isSmall hsmall
  unfold inflect irregular?
  dsimp only
  rw [lower_of_isSmall hsmall, hline, List.drop_length]
  split
  · rename_i hlisted
    rw [List.contains_iff_mem] at hlisted
    exact Or.inl ⟨rfl, Or.inr (List.mem_append_left _ hlisted)⟩
  split
  · rename_i form hform
    obtain ⟨pair, hpair, hlisted⟩ := List.exists_of_findSome?_eq_some hform
    split at hlisted
    · rename_i hsource
      refine Or.inr (Or.inl ⟨pair, hpair, ?_, ?_⟩)
      · rw [← hsource, String.toList_ofList]
      · rw [← Option.some.inj hlisted, matchCase_of_isSmall hsmall]
    · split at hlisted
      · rename_i htarget
        refine Or.inl ⟨(Option.some.inj hlisted).symm, Or.inr (List.mem_append_right _ ?_)⟩
        rw [htarget]
        exact List.mem_flatMap.mpr ⟨pair, hpair, by cases number <;> simp [Number.orient]⟩
      · cases hlisted
  · split
    · rename_i form hform
      rw [hform, List.append_nil, matchCase_of_isSmall hsmall]
      exact Or.inr (Or.inr rfl)
    · rename_i hnone
      exact Or.inl ⟨rfl, Or.inl hnone⟩

/-- **A word with a settled ending is its own singular.** -/
theorem singular_of_settled (h : Settled ending) (hsmall : ∀ c ∈ word, isSmall c = true)
    (hends : ending <:+ word) : inflect .singular word = word := by
  rcases inflect_cases .singular hsmall with ⟨hkept, -⟩ | ⟨pair, hpair, hsource, -⟩ | hrule
  · exact hkept
  · rw [hsource] at hends
    exact absurd hends (h.1 pair hpair)
  · obtain ⟨lead, rfl⟩ := hends
    exact eq_of_candidates hrule h.2

/-- All rules look for an `s` at the end. -/
theorem suffix_s_of_singularRule {rule : SuffixRule} (hrule : rule ∈ singularRules)
    (h : rule.apply? word = some form) : ['s'] <:+ word := by
  have hall : ∀ rule ∈ singularRules, ∀ tail ∈ rule.tails, ['s'] <:+ tail := by decide
  obtain ⟨tail, htail, hends⟩ := SuffixRule.exists_tail h
  exact (hall rule hrule tail htail).trans hends

/-- A word that does not end in `s` is its own singular, unless it is an irregular plural. -/
theorem singular_of_not_suffix_s (hsmall : ∀ c ∈ word, isSmall c = true) (hends : ¬['s'] <:+ word)
    (hregular : ¬IsIrregularPlural word) : inflect .singular word = word := by
  rcases inflect_cases .singular hsmall with ⟨hkept, -⟩ | ⟨pair, hpair, hsource, -⟩ | hrule
  · exact hkept
  · rw [← lower_of_isSmall hsmall] at hsource
    exact absurd ⟨pair, hpair, hsource⟩ hregular
  · obtain ⟨rule, hrule, happly⟩ := List.exists_of_findSome?_eq_some hrule
    exact absurd (suffix_s_of_singularRule hrule happly) hends

/-- What is listed: irregular plurals end in letters that come back from an `s`, have another
singular, which is settled, and come back from an `s` themselves. -/
theorem irregular_singular : ∀ pair ∈ irregular,
    (∀ c ∈ pair.2.toList.getLast?.toList,
        c.isLower = true ∧ c ≠ 'k' ∧ inflect .singular [c, 's'] = [c])
      ∧ inflect .singular pair.2.toList ≠ pair.2.toList
      ∧ inflect .singular (pair.2.toList ++ ['s']) = pair.2.toList
      ∧ pair.1.toList ≠ [] ∧ Settled pair.1.toList := by
  decide +kernel

/-- What the rules make: a word without its `s`, or one with a settled ending. -/
theorem singularRules_sound : ∀ rule ∈ singularRules,
    rule.ending = rule.replacement ++ "s"
      ∨ ∀ tail ∈ rule.reversed.tails, tail ≠ [] ∧ Settled tail
        ∨ tail = "alias".toList ∧ rule.replacement = "" ∧ rule.ending = "es" := by
  decide +kernel

/-- **The singular of a word** is the word, or has a settled ending, or lacks just an `s`. -/
theorem singular_cases (hsmall : ∀ c ∈ word, isSmall c = true)
    (haliases : ¬"aliases".toList <:+ word) :
    inflect .singular word = word
      ∨ (∃ ending, ending ≠ [] ∧ Settled ending ∧ ending <:+ inflect .singular word)
      ∨ word = inflect .singular word ++ ['s'] ∧ ¬['s'] <:+ inflect .singular word := by
  rcases inflect_cases .singular hsmall with ⟨hkept, -⟩ | ⟨pair, hpair, -, hform⟩ | hrule
  · exact Or.inl hkept
  · obtain ⟨-, -, -, hne, hsettled⟩ := irregular_singular pair hpair
    exact Or.inr (Or.inl ⟨_, hne, hsettled, hform ▸ List.suffix_refl _⟩)
  obtain ⟨rule, hmem, happly⟩ := List.exists_of_findSome?_eq_some hrule
  obtain ⟨stem, -, hword, hform⟩ := SuffixRule.apply?_eq_some happly
  rcases singularRules_sound rule hmem with hs | htails
  · have hlacks : word = inflect .singular word ++ ['s'] := by
      rw [hform, List.append_assoc]
      exact hword.trans (by rw [hs, String.toList_append]; rfl)
    refine Or.inr (Or.inr ⟨hlacks, ?_⟩)
    rintro ⟨before, hbefore⟩
    have hends : ['s', 's'] <:+ word := ⟨before, by rw [hlacks, ← hbefore, List.append_assoc]; rfl⟩
    have hkept := singular_of_settled (by decide : Settled ['s', 's']) hsmall hends
    exact absurd (congrArg List.length hlacks) (by rw [hkept]; simp)
  · obtain ⟨tail, htail, hends⟩ := SuffixRule.exists_tail (SuffixRule.apply?_reversed happly)
    rcases htails tail htail with ⟨hne, hsettled⟩ | ⟨rfl, hreplacement, hending⟩
    · exact Or.inr (Or.inl ⟨tail, hne, hsettled, hends⟩)
    · obtain ⟨before, heq⟩ := hends
      refine absurd ⟨before, ?_⟩ haliases
      rw [hform, hreplacement, show "".toList = [] from rfl, List.append_nil] at heq
      rw [hword, hending, ← heq, List.append_assoc]
      rfl

/-! ### Longer words -/

/-- The words in `s` that only a list keeps. -/
def listedInS : List String :=
  ["news", "series", "species"]

/-- Listed words in `s` are their own plural, and irregular plurals have no digit and no `k`. -/
theorem listedWords_singular :
    (∀ listed ∈ listedWords, ['s'] <:+ listed.toList → listed ∈ listedInS)
      ∧ ∀ pair ∈ irregular, ∀ c ∈ pair.2.toList, c.isDigit = false ∧ c ≠ 'k' := by
  decide +kernel

/-- A word in `s` that is its own singular has a settled ending, unless only a list keeps it. -/
theorem exists_settled_of_suffix_s (hsmall : ∀ c ∈ word, isSmall c = true) (hs : ['s'] <:+ word)
    (hsingular : inflect .singular word = word) (hlisted : String.ofList word ∉ listedInS) :
    ∃ ending, Settled ending ∧ ending <:+ word := by
  have hnot : ∀ listed ∈ listedWords, word ≠ listed.toList := by
    rintro listed hmem rfl
    rw [String.ofList_toList] at hlisted
    exact hlisted (listedWords_singular.1 listed hmem hs)
  rcases inflect_cases .singular hsmall with ⟨-, hnone | hmem⟩ | ⟨pair, hpair, hsource, -⟩ | hrule
  · obtain ⟨form, hform⟩ := exists_singular hs
    exact absurd (hnone.symm.trans hform) (by simp)
  · exact absurd String.toList_ofList.symm (hnot _ hmem)
  · have hmem : (Number.singular.orient pair).1 ∈ listedWords :=
      List.mem_append_right _ (List.mem_flatMap.mpr ⟨pair, hpair, by simp [Number.orient]⟩)
    exact absurd hsource (hnot _ hmem)
  · rw [hsingular] at hrule
    obtain ⟨rule, hmem, happly⟩ := List.exists_of_findSome?_eq_some hrule
    obtain ⟨stem, -, hword, hform⟩ := SuffixRule.apply?_eq_some happly
    have hsame := congrArg List.length (List.append_cancel_left (hword.symm.trans hform))
    rcases singularRules_sound rule hmem with hends | htails
    · rw [hends, String.toList_append, List.length_append] at hsame
      exact absurd hsame (by simp)
    · obtain ⟨tail, htail, hends⟩ := SuffixRule.exists_tail (SuffixRule.apply?_reversed happly)
      rcases htails tail htail with ⟨-, hsettled⟩ | ⟨-, hreplacement, hending⟩
      · exact ⟨tail, hsettled, hends⟩
      · rw [hreplacement, hending] at hsame
        exact absurd hsame (by decide)

/-- **A word that is its own singular** stays so behind other characters, if it is not only a list
that keeps it and the whole is no irregular plural. -/
theorem singular_append {run : List Char} (hsmall : ∀ c ∈ run ++ word, isSmall c = true)
    (hsingular : inflect .singular word = word) (hlisted : String.ofList word ∉ listedInS)
    (hmark : ∃ c ∈ run ++ word, c.isDigit = true ∨ c = 'k')
    (hends : ['s'] <:+ run ++ word → ['s'] <:+ word) :
    inflect .singular (run ++ word) = run ++ word := by
  by_cases hs : ['s'] <:+ word
  · obtain ⟨ending, hsettled, hending⟩ :=
      exists_settled_of_suffix_s (List.forall_mem_append.mp hsmall).2 hs hsingular hlisted
    exact singular_of_settled hsettled hsmall (hending.trans (List.suffix_append run word))
  · refine singular_of_not_suffix_s hsmall (mt hends hs) ?_
    rintro ⟨pair, hpair, hplural⟩
    rw [lower_of_isSmall hsmall] at hplural
    obtain ⟨c, hc, hmark⟩ := hmark
    obtain ⟨hdigit, hk⟩ := listedWords_singular.2 pair hpair c (hplural ▸ hc)
    rcases hmark with hmark | hmark
    · rw [hmark] at hdigit
      cases hdigit
    · exact hk hmark

end Words

/-! ## Names without a word at their end -/

section NoWord

variable {cs : List Char}

theorem dropFinalNewline_cases (cs : List Char) :
    dropFinalNewline cs = cs ∧ cs.getLast? ≠ some '\n' ∨ cs = dropFinalNewline cs ++ ['\n'] := by
  unfold dropFinalNewline
  split
  · rename_i hlast
    obtain ⟨lead, hlead⟩ := List.getLast?_eq_some_iff.mp hlast
    rw [hlead, List.dropLast_concat]
    exact Or.inr rfl
  · rename_i hlast
    exact Or.inl ⟨rfl, hlast⟩

/-- Such a name has no word at its end in lower case, unless it is a `k`. -/
theorem eq_k_of_endsOutside (h : EndsOutside Char.isAlphanum (dropFinalNewline cs)) {c : Char}
    (hc : c ∈ (dropFinalNewline (lower cs)).getLast?) (halphanum : c.isAlphanum = true) :
    c = 'k' := by
  have hlast : ∀ {low : List Char}, dropFinalNewline (lower cs) = low →
      (∀ d ∈ low.getLast?,
        d.isAlphanum = false ∧ (d = '\n' → (dropFinalNewline cs).getLast? = some '\n')
          ∨ d = 'k' ∧ (dropFinalNewline cs).getLast? = some kelvinSign) → c = 'k' := by
    rintro low rfl hall
    rcases hall c hc with ⟨hother, -⟩ | ⟨rfl, -⟩
    · rw [halphanum] at hother
      exact absurd hother (by simp)
    · rfl
  rcases dropFinalNewline_cases cs with ⟨hsame, hline⟩ | hnewline
  · obtain ⟨low, follows, hlow, hall⟩ := exists_lower_endsOutside h []
    rw [List.append_nil, hsame, lowerAfter, List.append_nil] at hlow
    refine hlast ?_ hall
    rw [hlow]
    unfold dropFinalNewline
    rw [if_neg]
    intro hend
    rcases hall '\n' hend with ⟨-, hnewline⟩ | ⟨hk, -⟩
    · rw [hsame] at hnewline
      exact hline (hnewline rfl)
    · exact absurd hk (by decide)
  · obtain ⟨low, follows, hlow, hall⟩ := exists_lower_endsOutside h ['\n']
    rw [← hnewline] at hlow
    refine hlast ?_ hall
    have hend : lowerAfter follows ['\n'] = ['\n'] := rfl
    rw [hlow, hend]
    unfold dropFinalNewline
    rw [List.getLast?_concat, if_pos rfl, List.dropLast_concat]

/-- An irregular plural is a word. -/
theorem not_isIrregularPlural_of_endsOutside
    (h : EndsOutside Char.isAlphanum (dropFinalNewline cs)) : ¬IsIrregularPlural cs := by
  rintro ⟨pair, hpair, hplural⟩
  have hletters : OfLetters pair.2.toList := (irregular_sound hpair .plural).2.1
  have hsome : pair.2.toList ≠ [] := List.ne_nil_of_length_pos (irregular_sound hpair .plural).2.2
  obtain ⟨c, hc⟩ := Option.ne_none_iff_exists'.mp (mt List.getLast?_eq_none_iff.mp hsome)
  obtain ⟨hlower, hother, -⟩ := (irregular_singular pair hpair).1 c (Option.mem_toList.mpr hc)
  have halphanum := isAlphanum_of_isSmall (isSmall_of_isLower hlower)
  refine hother (eq_k_of_endsOutside h (c := c) ?_ halphanum)
  rw [hplural, goesWithCase_letters.dropFinalNewline hletters]
  exact hc

/-- **A name without a word at its end is its own singular.** -/
theorem singular_of_endsOutside (h : EndsOutside Char.isAlphanum (dropFinalNewline cs)) :
    inflect .singular cs = cs := by
  have hirregular : ∀ form, irregular? .singular cs = some form → form = cs := by
    intro form hform
    unfold irregular? at hform
    obtain ⟨pair, hpair, hlisted⟩ := List.exists_of_findSome?_eq_some hform
    dsimp only [Number.orient] at hlisted
    split at hlisted
    · rename_i hsource
      refine absurd ⟨pair, hpair, ?_⟩ (not_isIrregularPlural_of_endsOutside h)
      rw [← hsource, String.toList_ofList]
    · split at hlisted
      · exact (Option.some.inj hlisted).symm
      · cases hlisted
  unfold inflect
  dsimp only
  split
  · rfl
  split
  · rename_i form hform
    exact hirregular form hform
  · split
    · rename_i form hform
      obtain ⟨rule, hrule, happly⟩ := List.exists_of_findSome?_eq_some hform
      obtain ⟨stem, hstem⟩ := suffix_s_of_singularRule hrule happly
      have hk := eq_k_of_endsOutside h (c := 's') (by rw [← hstem, List.getLast?_concat]; rfl) rfl
      exact absurd hk (by decide)
    · rfl

theorem singularize_of_endsOutside {name : String}
    (h : EndsOutside Char.isAlphanum (dropFinalNewline name.toList)) : singularize name = name := by
  unfold singularize toNumber
  split
  · rfl
  · rw [splitLastWord_of_endsOutside h]
    show String.ofList ([] ++ inflect .singular name.toList) = name
    rw [singular_of_endsOutside h, List.nil_append, String.ofList_toList]

end NoWord

/-! ## Names -/

/-- A name with a last word in `aliases`. -/
def EndsInAliases (name : String) : Prop :=
  "aliases".toList <:+ lower (splitLastWord name.toList).2

instance (name : String) : Decidable (EndsInAliases name) :=
  inferInstanceAs (Decidable (_ <:+ _))

/-- A text without the `s` that it ends in. -/
def withoutS? (cs : List Char) : Option (List Char) :=
  match (dropFinalNewline cs).getLast? with
  | some c => if c = 's' ∨ c = 'S' then some (dropFinalNewline cs).dropLast else none
  | none => none

/-- A name that is a plural twice over: behind a name with another singular there is an `s`, as a
word of its own or behind an irregular plural. -/
def IsTwicePlural (name : String) : Prop :=
  ∃ one ∈ withoutS? name.toList,
    (splitLastWord name.toList).2.length = 1 ∧ singularize (String.ofList one) ≠ String.ofList one
      ∨ IsIrregularPlural (splitLastWord one).2

instance (name : String) : Decidable (IsTwicePlural name) :=
  inferInstanceAs (Decidable (∃ one ∈ withoutS? name.toList, _ ∧ _ ∨ IsIrregularPlural _))

section Names

variable {cs lead word one ending : List Char} {c : Char} {name : String}

theorem toLower_of_s (h : c = 's' ∨ c = 'S') : c.toLower = 's' := by
  rcases h with rfl | rfl <;> rfl

theorem toLower_eq_s_iff (h : c.isAlphanum = true) : c.toLower = 's' ↔ c = 's' ∨ c = 'S' :=
  forall_isAscii (P := fun c => c.toLower = 's' ↔ c = 's' ∨ c = 'S') (by decide)
    (alphanumFacts h).1

theorem withoutS?_eq_some : withoutS? cs = some one ↔
    ∃ c, dropFinalNewline cs = one ++ [c] ∧ (c = 's' ∨ c = 'S') := by
  unfold withoutS?
  constructor
  · intro h
    split at h
    · rename_i c hc
      obtain ⟨before, hbefore⟩ := List.getLast?_eq_some_iff.mp hc
      rw [hbefore, List.dropLast_concat] at h
      split at h
      · rename_i hs
        exact ⟨c, Option.some.inj h ▸ hbefore, hs⟩
      · cases h
    · cases h
  · rintro ⟨c, heq, hs⟩
    rw [heq, List.getLast?_concat, List.dropLast_concat]
    exact if_pos hs

/-- The capitals of a word stay with the other characters when one is added. -/
theorem matchCase_concat (word form : List Char) (hc : c.isAlphanum = true) :
    ∃ d, matchCase word (form ++ [c]) = matchCase word form ++ [d] := by
  unfold matchCase
  split
  · refine ⟨c.toUpper, ?_⟩
    unfold upper
    rw [List.flatMap_append, List.flatMap_singleton, upperChar_of_isAscii (alphanumFacts hc).1]
  · split
    · cases form with
      | nil => exact ⟨c.toUpper, capitalized_cons hc⟩
      | cons d form => exact ⟨c, (List.append_assoc (upperChar d) form [c]).symm⟩
    · exact ⟨c, rfl⟩

/-- The last word without its last character keeps its capitals. -/
theorem IsLastWord.matchCase_init (h : IsLastWord lead (word ++ [c])) :
    matchCase (word ++ [c]) (lower word) = word := by
  have hc := h.isAlphanum c (List.mem_append_right _ (List.mem_singleton_self c))
  have hlow : c.toLower.isAlphanum = true := isAlphanum_of_isSmall (alphanumFacts hc).2.1
  obtain ⟨d, hd⟩ := matchCase_concat (word ++ [c]) (lower word) hlow
  rw [← lower_concat h.isAlphanum, h.matchCase_lower] at hd
  exact (List.append_inj' hd rfl).1.symm

/-- The last word without its last character is the last word, unless nothing or a capital is left
of it. -/
theorem IsLastWord.init (h : IsLastWord lead (word ++ [c])) :
    word = [] ∨ IsLastWord lead word ∨ ∃ d, d.isUpper = true ∧ word = [d] := by
  by_cases hne : word = []
  · exact Or.inl hne
  right
  generalize hwhole : word ++ [c] = whole at h
  cases h with
  | small _ chars apart =>
    subst hwhole
    exact Or.inl (.small hne (List.forall_mem_append.mp chars).1 apart)
  | capitals _ chars apart =>
    subst hwhole
    exact Or.inl (.capitals hne (List.forall_mem_append.mp chars).1 apart)
  | @capitalized d small capital _ chars =>
    obtain ⟨e, rest, rfl⟩ := List.exists_cons_of_ne_nil hne
    obtain ⟨rfl, rfl⟩ := List.cons.inj hwhole
    by_cases hrest : rest = []
    · exact Or.inr ⟨e, capital, by rw [hrest]⟩
    · exact Or.inl (.capitalized capital hrest (List.forall_mem_append.mp chars).1)

theorem singularize_of_isLastWord (h : IsLastWord lead word) :
    singularize (String.ofList (lead ++ word))
      = String.ofList (lead ++ matchCase word (inflect .singular (lower word))) := by
  refine toNumber_of_isLastWord .singular h ?_
  rw [String.toList_ofList, dropFinalNewline_of_isLastWord h]

/-- If its last word is its own singular, a name is. -/
theorem singularize_of_singular (h : IsLastWord lead word)
    (hsingular : inflect .singular (lower word) = lower word) :
    singularize (String.ofList (lead ++ word)) = String.ofList (lead ++ word) := by
  rw [singularize_of_isLastWord h, hsingular, h.matchCase_lower]

/-- **A name with a settled ending is its own singular.** -/
theorem singularize_of_hasEnding (h : Settled ending) (hcs : HasEnding cs ending) :
    singularize (String.ofList cs) = String.ofList cs := by
  obtain ⟨lead, word, rfl, hword, hends⟩ := hcs
  exact singularize_of_singular hword
    (singular_of_settled h (isSmall_lower hword.isAlphanum) hends)

/-- A word in `s` is a word without it and an `s`, in letters of any case. -/
theorem IsLastWord.exists_concat (h : IsLastWord lead word) (hs : ['s'] <:+ lower word) :
    ∃ init c, word = init ++ [c] ∧ (c = 's' ∨ c = 'S') := by
  obtain ⟨init, c, rfl⟩ := (List.eq_nil_or_concat' word).resolve_left h.ne_nil
  obtain ⟨before, hbefore⟩ := hs
  rw [lower_concat h.isAlphanum] at hbefore
  have hc := h.isAlphanum c (List.mem_append_right _ (List.mem_singleton_self c))
  exact ⟨init, c, rfl, (toLower_eq_s_iff hc).mp
    (List.cons.inj (List.append_inj' hbefore rfl).2).1.symm⟩

/-- An irregular plural has another singular. -/
theorem singularize_ne_of_isIrregularPlural (h : IsIrregularPlural (splitLastWord cs).2) :
    singularize (String.ofList cs) ≠ String.ofList cs := by
  rcases splitLastWord_cases cs with ⟨hends, hsplit⟩ | ⟨lead, word, hcs, hword⟩
  · rw [hsplit] at h
    exact absurd h (not_isIrregularPlural_of_endsOutside hends)
  rw [hword.splitLastWord hcs] at h
  obtain ⟨pair, hpair, hplural⟩ := h
  have hother := (irregular_singular pair hpair).2.1
  rw [← hplural] at hother
  have hsmall := (inflect_sound .singular (isSmall_lower hword.isAlphanum)).1
  have hone : singularize (String.ofList cs)
      = String.ofList (lead ++ matchCase word (inflect .singular (lower word))) :=
    toNumber_of_isLastWord .singular hword (by rw [String.toList_ofList, hcs])
  rw [hone]
  intro heq
  have heq := String.ofList_injective heq
  rcases dropFinalNewline_cases cs with ⟨hsame, -⟩ | hnewline
  · rw [← hsame, hcs] at heq
    have hmatch := congrArg lower (List.append_cancel_left heq)
    rw [lower_matchCase hsmall] at hmatch
    exact hother hmatch
  · rw [hnewline, hcs, List.append_assoc] at heq
    have hmatch := congrArg lower (List.append_cancel_left heq)
    rw [lower_matchCase hsmall] at hmatch
    have hfixed : IsFixed '\n' := ⟨by decide, by decide, by decide⟩
    have hmem := mem_lower hfixed (List.mem_append_right word (List.mem_singleton_self '\n'))
    exact absurd (hsmall _ (hmatch ▸ hmem)) (by decide)

/-- **A name that does not end in `s` is its own singular**, unless it ends in an irregular
plural. -/
theorem singularize_of_not_suffix_s (lead : List Char) (hne : word ≠ [])
    (halphanum : ∀ c ∈ word, c.isAlphanum = true) (hs : ¬['s'] <:+ lower word)
    (hregular : ¬IsIrregularPlural (splitLastWord (lead ++ word)).2) :
    singularize (String.ofList (lead ++ word)) = String.ofList (lead ++ word) := by
  obtain ⟨init, c, rfl⟩ := (List.eq_nil_or_concat' word).resolve_left hne
  have hline := dropFinalNewline_append lead hne halphanum
  rcases splitLastWord_cases (lead ++ (init ++ [c])) with ⟨hends, -⟩ | ⟨before, last, hlast, hword⟩
  · have hc := halphanum c (List.mem_append_right _ (List.mem_singleton_self c))
    rw [hline, ← List.append_assoc, endsOutside_append_singleton, hc] at hends
    exact absurd hends (by simp)
  rw [hword.splitLastWord hlast] at hregular
  rw [hline] at hlast
  rw [hlast]
  have hsmall := isSmall_lower hword.isAlphanum
  refine singularize_of_singular hword (singular_of_not_suffix_s hsmall ?_ ?_)
  · intro hends
    obtain ⟨rest, d, rfl, hd⟩ := hword.exists_concat hends
    rw [← List.append_assoc, ← List.append_assoc] at hlast
    obtain ⟨-, hcd⟩ := List.append_inj' hlast rfl
    obtain rfl : c = d := (List.cons.inj hcd).1
    rw [lower_concat halphanum, toLower_of_s hd] at hs
    exact hs (List.suffix_append _ _)
  · unfold IsIrregularPlural
    rwa [lower_of_isSmall hsmall]

/-- The singular of a word with an `s` behind an irregular plural, or with nothing but an `s`. -/
theorem singular_of_init (hword : IsLastWord lead (word ++ [c])) (hc : c = 's' ∨ c = 'S')
    (h : word = [] ∨ IsIrregularPlural (splitLastWord (lead ++ word)).2) :
    inflect .singular (lower (word ++ [c])) = lower word := by
  rw [lower_concat hword.isAlphanum, toLower_of_s hc]
  rcases hword.init with rfl | hinit | ⟨d, hd, rfl⟩
  · decide
  · rcases h with rfl | hplural
    · decide
    rw [hinit.split] at hplural
    obtain ⟨pair, hpair, hsource⟩ := hplural
    rw [hsource]
    exact (irregular_singular pair hpair).2.2.1
  · -- the capital goes with those before it, and what is before the `s` is no `s`
    obtain ⟨-, -, hlower, hback⟩ := upperFacts hd
    have hending : HasEnding (lead ++ capitalized [d.toLower]) [d.toLower] :=
      hasEnding_capitalized lead hlower (by simp)
    rw [capitalized_cons (isAlphanum_of_isSmall (isSmall_of_isLower hlower)), hback] at hending
    obtain ⟨before, capitals, hcapitals, hlast, tail, htail⟩ := hending
    obtain ⟨pair, hpair, hplural⟩ := h.resolve_left (List.cons_ne_nil d [])
    rw [hcapitals, hlast.split, ← htail] at hplural
    obtain ⟨-, -, hback⟩ := (irregular_singular pair hpair).1 d.toLower
      (by rw [← hplural, List.getLast?_concat]; exact List.mem_singleton_self _)
    rw [lower_of_isAlphanum (by simpa using isAlphanum_of_isUpper hd)]
    exact hback

/-- **A plural twice over** has a singular with another singular. -/
theorem singularize_of_isTwicePlural (h : IsTwicePlural name) :
    ∃ one, singularize name = one ∧ singularize one ≠ one := by
  obtain ⟨one, hone, htwice⟩ := h
  obtain ⟨c, hname, hc⟩ := withoutS?_eq_some.mp hone
  refine ⟨String.ofList one, ?_, ?_⟩
  · rcases splitLastWord_cases name.toList with ⟨hends, -⟩ | ⟨lead, word, hparts, hword⟩
    · rw [hname, endsOutside_append_singleton] at hends
      rcases hc with rfl | rfl <;> exact absurd hends (by decide)
    obtain ⟨init, d, rfl⟩ := (List.eq_nil_or_concat' word).resolve_left hword.ne_nil
    have hboth : one ++ [c] = lead ++ init ++ [d] := by
      rw [← hname, hparts, List.append_assoc]
    obtain ⟨rfl, hd⟩ := List.append_inj' hboth rfl
    obtain rfl : c = d := (List.cons.inj hd).1
    have hinit : init = [] ∨ IsIrregularPlural (splitLastWord (lead ++ init)).2 := by
      refine htwice.imp (fun h => ?_) id
      rw [hword.splitLastWord hparts, List.length_append, List.length_singleton] at h
      exact List.eq_nil_of_length_eq_zero (by omega)
    have hsingular : singularize name = _ := toNumber_of_isLastWord .singular hword hparts
    rw [hsingular, singular_of_init hword hc hinit, hword.matchCase_init]
  · rcases htwice with ⟨-, hother⟩ | hplural
    · exact hother
    · exact singularize_ne_of_isIrregularPlural hplural

/-- Only words that end in a letter have another singular. -/
theorem IsLastWord.isAlpha_of_ne (h : IsLastWord lead word)
    (hother : Naming.inflect .singular (lower word) ≠ lower word) :
    ∀ c ∈ word.getLast?, c.isAlpha = true := by
  obtain ⟨init, c, rfl⟩ := (List.eq_nil_or_concat' word).resolve_left h.ne_nil
  have halphanum := h.isAlphanum c (List.mem_append_right _ (List.mem_singleton_self c))
  have hletter : c.toLower.isAlpha = true → c.isAlpha = true :=
    forall_isAscii (P := fun c => c.toLower.isAlpha = true → c.isAlpha = true) (by decide)
      (alphanumFacts halphanum).1
  rw [List.getLast?_concat]
  intro d hd
  rw [← Option.mem_some_iff.mp hd]
  apply hletter
  rcases inflect_cases .singular (isSmall_lower h.isAlphanum) with ⟨hkept, -⟩
      | ⟨pair, hpair, hsource, -⟩ | hrule
  · exact absurd hkept hother
  · rw [lower_concat h.isAlphanum] at hsource
    have hletters : OfLetters pair.2.toList := (irregular_sound hpair .plural).2.1
    refine hletters c.toLower ?_
    show c.toLower ∈ (Number.singular.orient pair).1.toList
    rw [← hsource]
    exact List.mem_append_right _ (List.mem_singleton_self _)
  · obtain ⟨rule, hmem, happly⟩ := List.exists_of_findSome?_eq_some hrule
    obtain ⟨before, hbefore⟩ := suffix_s_of_singularRule hmem happly
    rw [lower_concat h.isAlphanum] at hbefore
    rw [← (List.cons.inj (List.append_inj' hbefore rfl).2).1]
    rfl

/-- **The singular of a name is its own singular**, unless the name is a plural twice over. -/
theorem singularize_singularize_eq_iff (haliases : ¬EndsInAliases name) :
    singularize (singularize name) = singularize name ↔ ¬IsTwicePlural name := by
  constructor
  · intro hsame htwice
    obtain ⟨one, hone, hother⟩ := singularize_of_isTwicePlural htwice
    rw [hone] at hsame
    exact hother hsame
  intro honce
  rcases splitLastWord_cases name.toList with ⟨hends, -⟩ | ⟨lead, word, hname, hword⟩
  · have hsingular := singularize_of_endsOutside hends
    rw [hsingular, hsingular]
  have hsplit := hword.splitLastWord hname
  have hsmall := isSmall_lower hword.isAlphanum
  have hsingular : singularize name = _ := toNumber_of_isLastWord .singular hword hname
  by_cases hsame : inflect .singular (lower word) = lower word
  · rw [hsingular, hsame, hword.matchCase_lower]
    exact singularize_of_singular hword hsame
  have haliases : ¬"aliases".toList <:+ lower word := by
    intro hends
    exact haliases (by rwa [EndsInAliases, hsplit])
  rcases singular_cases hsmall haliases with hkept | ⟨ending, hne, hsettled, hends⟩ | ⟨hs, hnos⟩
  · exact absurd hkept hsame
  · have hsome : inflect .singular (lower word) ≠ [] := by
      intro hnil
      rw [hnil] at hends
      exact hne (List.suffix_nil.mp hends)
    obtain ⟨before, last, hparts, hlast, hform⟩ :=
      hword.hasEnding_inflect .singular (hword.isAlpha_of_ne hsame) hsome
    rw [hsingular]
    exact singularize_of_hasEnding hsettled ⟨before, last, hparts, hlast, hends.trans hform⟩
  · obtain ⟨init, c, rfl, hc⟩ := hword.exists_concat ⟨_, hs.symm⟩
    have hlower : lower (init ++ [c]) = lower init ++ ['s'] := by
      rw [lower_concat hword.isAlphanum, toLower_of_s hc]
    have hform : lower init = inflect .singular (lower (init ++ [c])) :=
      (List.append_inj' (hlower.symm.trans hs) rfl).1
    rw [← hform] at hnos
    rw [← hform, hword.matchCase_init] at hsingular
    have hone : withoutS? name.toList = some (lead ++ init) :=
      withoutS?_eq_some.mpr ⟨c, by rw [hname, List.append_assoc], hc⟩
    have honce : ¬_ := fun h => honce ⟨lead ++ init, hone, h⟩
    rw [not_or, not_and_not_right, hsplit] at honce
    rw [hsingular]
    by_cases hinit : init = []
    · exact honce.1 (by rw [hinit]; rfl)
    · exact singularize_of_not_suffix_s lead hinit (List.forall_mem_append.mp hword.isAlphanum).1
        hnos honce.2

end Names

end Crowsfoot.Naming
