import Crowsfoot.Proofs.Naming.TableNames

/-!
# Words that share their plural

`ax` and `axe` are both singular words, and the plural of both is `axes`, so no singular undoes
every plural. `singularize_pluralize_iff`: the singular of the plural of a word is the word again
exactly if the rules do not read its plural as that of another word (`IsShared`).

The rules for singulars go by the ending of the plural.

* A word that got an `s` comes back if the first rule to apply takes just that off
  (`singular_of_plural_s`). The other rules look for endings that plurals have for other reasons,
  and for words in `us` and `is`, which they take to be singular.
* A word with the plural of its ending comes back since the rule for that plural undoes it, unless
  an earlier one applies (`singular_of_plural_ending`).

The rule that is there for `tie` and `pie` also catches the plurals of words in `ty` and `py`
(`IsCaught`). Nothing is said of these.
-/

namespace Crowsfoot.Naming

open Crowsfoot.Text

/-! ## Shared plurals -/

/-- Endings whose plural is read as that of another ending: `xes` as that of `x`, say. Words in `us`
and `is` are read as singular words. -/
def sharedEndings : List String :=
  ["matrice", "vertice", "indice", "aliase", "statuse", "buse", "campuse", "viruse", "analyse",
    "diagnose", "parenthese", "prognose", "synopse", "xe", "che", "sse", "she", "ze", "wolve",
    "halve", "calve", "elve", "leave", "loave", "thieve", "knive", "wive", "live", "tomatoe",
    "potatoe", "heroe", "echoe", "u", "i", "quizz", "movy", "cooky"]

/-- Words whose plurals are listed as words without a plural. -/
def listedPlurals : List String :=
  ["new", "sery", "specy"]

/-- Endings in `ie` whose plural is read as their own. -/
def keptEndings : List String :=
  ["movie", "cookie", "tie", "pie"]

/-- A word whose plural is read as that of another word. Words in `ies` that are not kept are read
as plurals of words in `y`. -/
def IsShared (word : List Char) : Prop :=
  String.ofList word ∈ listedPlurals ∨ (∃ e ∈ sharedEndings, e.toList <:+ word)
    ∨ (∃ e ∈ Stem.consonant.samples, e ++ ['i', 'e'] <:+ word)
      ∧ ¬∃ e ∈ keptEndings, e.toList <:+ word

instance (word : List Char) : Decidable (IsShared word) :=
  inferInstanceAs (Decidable (_ ∨ (∃ e ∈ sharedEndings, e.toList <:+ word)
    ∨ (∃ e ∈ Stem.consonant.samples, e ++ ['i', 'e'] <:+ word)
      ∧ ¬∃ e ∈ keptEndings, e.toList <:+ word))

/-- A word in `ty` or `py`. -/
def IsCaught (word : List Char) : Prop :=
  ['t', 'y'] <:+ word ∨ ['p', 'y'] <:+ word

instance (word : List Char) : Decidable (IsCaught word) :=
  inferInstanceAs (Decidable (_ ∨ _))

section Rules

variable {rule : SuffixRule} {word plural form : List Char}

/-! ## Words that do not come back -/

theorem SuffixRule.length_apply? (h : rule.apply? word = some form) :
    form.length + rule.ending.toList.length = word.length + rule.replacement.toList.length := by
  obtain ⟨stem, -, rfl, rfl⟩ := SuffixRule.apply?_eq_some h
  rw [List.length_append, List.length_append]
  omega

/-- What the rules make of the shared endings. -/
theorem sharedEndings_sound : ∀ e ∈ sharedEndings, atOdds e.toList ['s'] = true
    ∧ ∃ many ∈ applyRules pluralRules e.toList,
      (∀ rule ∈ candidates pluralRules e.toList, rule.apply? e.toList = some many)
        ∧ ∀ rule ∈ candidates singularRules many, (∃ one ∈ rule.apply? many, one ≠ e.toList)
          ∨ e.toList.length + rule.ending.toList.length
            ≠ many.length + rule.replacement.toList.length := by
  decide +kernel

/-- A word with one of the shared endings does not come back. -/
theorem singular_ne_of_sharedEnding {e : String} (he : e ∈ sharedEndings)
    (hends : e.toList <:+ word) (hplural : applyRules pluralRules word = some plural)
    (hform : applyRules singularRules plural = some form) : form ≠ word := by
  obtain ⟨lead, rfl⟩ := hends
  obtain ⟨-, many, -, hmany, hone⟩ := sharedEndings_sound e he
  obtain rfl := eq_of_candidates hplural hmany
  obtain ⟨rule, hcandidate, happly⟩ := mem_candidates hform
  rintro rfl
  rcases hone rule hcandidate with ⟨one, hmade, hother⟩ | hlength
  · rw [SuffixRule.apply?_append hmade lead] at happly
    exact hother (List.append_cancel_left (Option.some.inj happly))
  · have hforms := SuffixRule.length_apply? happly
    rw [List.length_append, List.length_append] at hforms
    omega

/-- What the rules make of words in `ie` after a consonant. -/
theorem ieEndings_sound : ∀ e ∈ Stem.consonant.samples, atOdds (e ++ ['i', 'e']) ['s'] = true
    ∧ (∀ rule ∈ candidates pluralRules (e ++ ['i', 'e']),
        rule.apply? (e ++ ['i', 'e']) = some (e ++ ['i', 'e', 's']))
      ∧ ∀ rule ∈ candidates singularRules (e ++ ['i', 'e', 's']),
        rule.apply? (e ++ ['i', 'e', 's']) = some (e ++ ['y'])
          ∨ ∀ tail ∈ rule.tails, String.ofList tail.dropLast ∈ keptEndings := by
  decide

/-- A word in `ie` after a consonant comes back as one in `y`, unless its ending is kept. -/
theorem singular_ne_of_ie {e : List Char} (he : e ∈ Stem.consonant.samples)
    (hends : e ++ ['i', 'e'] <:+ word) (hkept : ¬∃ e ∈ keptEndings, e.toList <:+ word)
    (hplural : applyRules pluralRules word = some plural)
    (hform : applyRules singularRules plural = some form) : form ≠ word := by
  obtain ⟨lead, rfl⟩ := hends
  obtain ⟨-, hmany, hone⟩ := ieEndings_sound e he
  obtain rfl := eq_of_candidates hplural hmany
  obtain ⟨rule, hcandidate, happly⟩ := mem_candidates hform
  rcases hone rule hcandidate with hy | hkeeps
  · rw [SuffixRule.apply?_append hy lead] at happly
    obtain rfl := Option.some.inj happly
    intro heq
    have hlength := congrArg List.length (List.append_cancel_left heq)
    simp at hlength
  · obtain ⟨tail, htail, hsuffix⟩ := SuffixRule.exists_tail happly
    refine absurd ⟨_, hkeeps tail htail, ?_⟩ hkept
    rw [String.toList_ofList]
    apply dropLast_suffix (c := 's')
    simpa using hsuffix

/-! ## Words that come back -/

/-- **A word with the plural of its ending comes back**, unless it is shared. -/
theorem singular_of_plural_ending (hshared : ¬IsShared word) (hcaught : ¬IsCaught word)
    (hsmall : ∀ c ∈ word, c.isLower = true) (hrule : rule ∈ endingRules)
    (happly : rule.apply? word = some plural)
    (hform : applyRules singularRules plural = some form) : form = word := by
  have hall : ∀ rule ∈ endingRules, ∀ sample ∈ rule.stem.samples,
      ∀ back ∈ candidates singularRules (sample ++ rule.replacement.toList),
        back.apply? (sample ++ rule.replacement.toList) = some (sample ++ rule.ending.toList)
          ∨ IsCaught (sample ++ rule.ending.toList)
          ∨ ∀ tail ∈ back.tails, atOdds (sample ++ rule.replacement.toList) tail = true
            ∨ ∃ e ∈ SuffixRule.apply? ⟨.any, rule.replacement, rule.ending⟩ tail,
              String.ofList e ∈ sharedEndings := by
    decide +kernel
  obtain ⟨lead, sample, hsample, rfl, rfl⟩ := SuffixRule.exists_sample happly hsmall
  obtain ⟨back, hcandidate, hback⟩ := mem_candidates hform
  rcases hall rule hrule sample hsample back hcandidate with hundone | hty | htails
  · rw [SuffixRule.apply?_append hundone lead] at hback
    exact (Option.some.inj hback).symm
  · have hends := List.suffix_append lead (sample ++ rule.ending.toList)
    exact absurd (hty.imp (·.trans hends) (·.trans hends)) hcaught
  · obtain ⟨tail, htail, hsuffix⟩ := SuffixRule.exists_tail hback
    rcases htails tail htail with hodds | ⟨e, he, hlisted⟩
    · exact absurd hsuffix (not_suffix_of_atOdds hodds (List.suffix_append lead _))
    · -- the rule that is taken instead has the plural of a longer ending
      obtain ⟨stem, -, rfl, rfl⟩ := SuffixRule.apply?_eq_some he
      obtain ⟨before, heq⟩ := hsuffix
      rw [← List.append_assoc, ← List.append_assoc] at heq
      refine absurd (Or.inr (Or.inl ⟨_, hlisted, before, ?_⟩)) hshared
      rw [String.toList_ofList, ← List.append_assoc, List.append_cancel_right heq,
        List.append_assoc]

/-- **A word that got an `s` comes back**, unless it is shared. -/
theorem singular_of_plural_s (hshared : ¬IsShared word) (hends : ¬['s'] <:+ word)
    (hsmall : ∀ c ∈ word ++ ['s'], c.isLower = true)
    (hform : applyRules singularRules (word ++ ['s']) = some form) : form = word := by
  by_cases hkept : ∃ e ∈ keptEndings, e.toList <:+ word
  · have hall : ∀ e ∈ keptEndings, ∀ rule ∈ candidates singularRules (e.toList ++ ['s']),
        rule.apply? (e.toList ++ ['s']) = some e.toList := by
      decide
    obtain ⟨e, he, lead, rfl⟩ := hkept
    rw [List.append_assoc] at hform
    exact eq_of_candidates hform (hall e he)
  have hall : ∀ rule ∈ singularRules, rule.ending = rule.replacement ++ "s"
      ∨ ∀ sample ∈ rule.stem.samples, sample ++ rule.ending.toList = ['s', 's']
        ∨ (∃ e ∈ sharedEndings, e.toList <:+ (sample ++ rule.ending.toList).dropLast)
        ∨ sample ∈ Stem.consonant.samples
          ∧ (sample ++ rule.ending.toList).dropLast = sample ++ ['i', 'e'] := by
    decide
  obtain ⟨rule, hrule, happly⟩ := List.exists_of_findSome?_eq_some hform
  rcases hall rule hrule with hs | hother
  · obtain ⟨stem, -, hword, rfl⟩ := SuffixRule.apply?_eq_some happly
    rw [hs, String.toList_append, ← List.append_assoc] at hword
    exact (List.append_cancel_right hword).symm
  · obtain ⟨lead, sample, hsample, hword, -⟩ := SuffixRule.exists_sample happly hsmall
    have hlast : (sample ++ rule.ending.toList).dropLast <:+ word :=
      dropLast_suffix (hword ▸ List.suffix_append lead _)
    rcases hother sample hsample with hss | ⟨e, he, hsuffix⟩ | ⟨hconsonant, hie⟩
    · rw [hss] at hlast
      exact absurd hlast hends
    · exact absurd (Or.inr (Or.inl ⟨e, he, hsuffix.trans hlast⟩)) hshared
    · exact absurd (Or.inr (Or.inr ⟨⟨sample, hconsonant, hie ▸ hlast⟩, hkept⟩)) hshared

end Rules

/-! ## Singulars of plurals -/

section Words

variable {word plural form : List Char}

/-- What the rules make of listed words: a singular one comes back, one in `s` is its own singular,
and another word of which one is the plural is shared. -/
theorem listedWords_sound : ∀ listed ∈ listedWords,
    (inflect .singular listed.toList = listed.toList →
      inflect .singular (inflect .plural listed.toList) = listed.toList ∧ ¬IsShared listed.toList)
    ∧ (endsWith ['s'] listed.toList = true → inflect .singular listed.toList = listed.toList)
    ∧ ∀ rule ∈ ⟨.any, "", "s"⟩ :: endingRules,
      ∀ one ∈ SuffixRule.apply? ⟨rule.stem, rule.replacement, rule.ending⟩ listed.toList,
        IsShared one := by
  decide +kernel

/-- A word that is not its plural is shared if the plural is listed. -/
theorem isShared_of_listed (hplural : applyRules pluralRules word = some plural)
    (hother : plural ≠ word) (hlisted : String.ofList plural ∈ listedWords) : IsShared word := by
  have hall : ∀ rule ∈ ⟨.any, "", "s"⟩ :: endingRules, ∀ stem, rule.stem.accepts stem = true →
      plural = stem ++ rule.replacement.toList → IsShared (stem ++ rule.ending.toList) := by
    rintro rule hrule stem haccepts rfl
    refine (listedWords_sound _ hlisted).2.2 rule hrule _ ?_
    rw [String.toList_ofList]
    exact SuffixRule.apply?_of_accepts haccepts
  obtain ⟨made, hmade, hcases⟩ := exists_plural word
  obtain rfl : made = plural := Option.some.inj (hmade.symm.trans hplural)
  rcases hcases with ⟨rule, hrule, happly⟩ | heq | ⟨-, hs⟩
  · obtain ⟨stem, haccepts, rfl, hmany⟩ := SuffixRule.apply?_eq_some happly
    exact hall rule (List.mem_cons_of_mem _ hrule) stem haccepts hmany
  · exact absurd heq hother
  · have hword := hall _ List.mem_cons_self word rfl hs
    rwa [show "".toList = [] from rfl, List.append_nil] at hword

/-- A plural by the rules ends in an `s`. -/
theorem suffix_s_of_plural (hplural : applyRules pluralRules word = some plural) :
    ['s'] <:+ plural := by
  have hall : ∀ rule ∈ pluralRules, ['s'] <:+ rule.replacement.toList := by decide
  obtain ⟨rule, hrule, happly⟩ := List.exists_of_findSome?_eq_some hplural
  obtain ⟨stem, -, -, rfl⟩ := SuffixRule.apply?_eq_some happly
  exact (hall rule hrule).trans (List.suffix_append stem _)

/-- A shared word does not end in an `s`. -/
theorem not_suffix_s_of_isShared (h : IsShared word) : ¬['s'] <:+ word := by
  rcases h with hlisted | ⟨e, he, hends⟩ | ⟨⟨e, he, hends⟩, -⟩
  · have hall : ∀ one ∈ listedPlurals, ¬['s'] <:+ one.toList := by decide
    have hword := hall _ hlisted
    rwa [String.toList_ofList] at hword
  · exact not_suffix_of_atOdds (sharedEndings_sound e he).1 hends
  · exact not_suffix_of_atOdds (ieEndings_sound e he).1 hends

/-- A shared word does not come back by the rules. -/
theorem singular_ne_of_isShared (hshared : IsShared word)
    (hplural : applyRules pluralRules word = some plural)
    (hnot : String.ofList plural ∉ listedWords)
    (hform : applyRules singularRules plural = some form) : form ≠ word := by
  rcases hshared with hlisted | ⟨e, he, hends⟩ | ⟨⟨e, he, hends⟩, hkept⟩
  · have hall : ∀ one ∈ listedPlurals, ∃ many ∈ applyRules pluralRules one.toList,
        String.ofList many ∈ listedWords := by
      decide
    obtain ⟨many, hmany, hmem⟩ := hall _ hlisted
    rw [String.toList_ofList] at hmany
    obtain rfl := Option.some.inj (hplural.symm.trans hmany)
    exact absurd hmem hnot
  · exact singular_ne_of_sharedEnding he hends hplural hform
  · exact singular_ne_of_ie he hends hkept hplural hform

/-- **The singular of the plural of a word is the word** exactly if it is not shared. -/
theorem inflect_singular_plural_iff (h : IsSmallWord word)
    (hsingular : inflect .singular word = word) (hcaught : ¬IsCaught word) :
    inflect .singular (inflect .plural word) = word ↔ ¬IsShared word := by
  by_cases hlisted : String.ofList word ∈ listedWords
  · have hword := (listedWords_sound _ hlisted).1
    rw [String.toList_ofList] at hword
    obtain ⟨hback, hnot⟩ := hword hsingular
    exact iff_of_true hback hnot
  obtain ⟨plural, hplural, hcases⟩ := exists_plural word
  have hmany : inflect .plural word = plural := inflect_of_not_listed h hlisted hplural
  have hsmall := small_inflect .plural h
  rw [hmany] at hsmall ⊢
  by_cases hother : plural = word
  · rw [hother, hsingular]
    have hends : ['s'] <:+ word := hother ▸ suffix_s_of_plural hplural
    exact iff_of_true rfl fun hshared => not_suffix_s_of_isShared hshared hends
  obtain ⟨lead, hne, hlead⟩ := exists_concat_of_plural h hplural hother
  have hword : IsSmallWord plural := ⟨hlead ▸ List.append_ne_nil_of_left_ne_nil hne _, hsmall⟩
  by_cases hmanyListed : String.ofList plural ∈ listedWords
  · have hkept := (listedWords_sound _ hmanyListed).2.1
    rw [String.toList_ofList] at hkept
    rw [hkept (List.isSuffixOf_iff_suffix.mpr (hlead ▸ List.suffix_append lead _))]
    exact iff_of_false hother (not_not_intro (isShared_of_listed hplural hother hmanyListed))
  obtain ⟨form, hform⟩ := exists_singular ⟨lead, hlead.symm⟩
  have hone : inflect .singular plural = form := inflect_of_not_listed hword hmanyListed hform
  rw [hone]
  constructor
  · exact fun heq hshared => singular_ne_of_isShared hshared hplural hmanyListed hform heq
  · intro hshared
    rcases hcases with ⟨rule, hrule, happly⟩ | heq | ⟨hends, rfl⟩
    · exact singular_of_plural_ending hshared hcaught h.small hrule happly hform
    · exact absurd heq hother
    · exact singular_of_plural_s hshared hends hsmall hform

end Words

section Names

variable {word : String}

/-- **Singulars undo plurals**, except those that are read as plurals of other words. -/
theorem singularize_pluralize_iff (h : IsSmallWord word.toList) (hsingular : isSingular word = true)
    (hcaught : ¬IsCaught word.toList) :
    singularize (pluralize word) = word ↔ ¬IsShared word.toList := by
  have hone : inflect .singular word.toList = word.toList := by
    rw [← toNumber_small .singular h]
    exact congrArg String.toList (beq_iff_eq.mp hsingular)
  have hmany : (pluralize word).toList = inflect .plural word.toList := toNumber_small .plural h
  have hsome : inflect .plural word.toList ≠ [] := by
    have hlength := length_plural h hone
    rintro hnil
    rw [hnil] at hlength
    exact absurd hlength (by decide)
  have hplural : IsSmallWord (pluralize word).toList :=
    ⟨hmany ▸ hsome, hmany ▸ small_inflect .plural h⟩
  rw [← inflect_singular_plural_iff h hone hcaught, ← hmany, ← toNumber_small .singular hplural,
    String.toList_inj]
  rfl

/-- A word of many rules: its plural ends in `ies`, and so do those of words in `ie`. -/
theorem singularize_pluralize_category :
    ¬IsShared "category".toList ∧ singularize (pluralize "category") = "category" := by
  have hnot : ¬IsShared "category".toList := by decide
  have hword : IsSmallWord "category".toList := ⟨by decide, by decide⟩
  exact ⟨hnot, (singularize_pluralize_iff hword (by decide) (by decide)).mpr hnot⟩

/-- Two singular words with the plural `axes`: one of them does not come back. -/
theorem singularize_pluralize_ne :
    isSingular "ax" = true ∧ isSingular "axe" = true ∧ pluralize "ax" = pluralize "axe"
      ∧ ¬∀ word : String, IsSmallWord word.toList → isSingular word = true →
        singularize (pluralize word) = word := by
  refine ⟨by decide, by decide, by decide, fun h => ?_⟩
  have hcome := h "axe" ⟨by decide, by decide⟩ (by decide)
  exact absurd hcome (by decide)

end Names

end Crowsfoot.Naming
