import Crowsfoot.Proofs.Naming.LastWord

/-!
# Plurals of names in Pascal case

A foreign key refers to the plural of a model's name in snake case, and the table of an entity is
the snake case of its plural. `pluralize_snake`: for an entity in Pascal case that is the same.

Only the last word of a name is inflected, so it is enough to look at a name as a lead and a last
word (`IsPascal.exists_lastWord`). Snake case sets the two apart (`underscored_append`), so that both
spellings have the same last word, whose plural is the same up to the capital.
-/

namespace Crowsfoot.Naming

open Crowsfoot.Text

/-! ## Words -/

/-- Nothing but small ASCII letters, and some of them. -/
structure IsSmallWord (cs : List Char) : Prop where
  nonempty : cs ≠ []
  small : ∀ c ∈ cs, c.isLower = true

section Words

variable {word : List Char}

theorem IsSmallWord.isSmall (h : IsSmallWord word) : ∀ c ∈ word, isSmall c = true :=
  fun c hc => isSmall_of_isLower (h.small c hc)

theorem IsSmallWord.isLastWord {lead : List Char} (h : IsSmallWord word)
    (apart : EndsOutside Char.isAlphanum lead) : IsLastWord lead word :=
  .small h.nonempty h.isSmall apart

theorem IsSmallWord.letters (h : IsSmallWord word) : OfLetters word :=
  fun c hc => isAlpha_of_isLower (h.small c hc)

theorem IsSmallWord.exists_last (h : IsSmallWord word) :
    ∃ c ∈ word.getLast?, c.isLower = true := by
  obtain ⟨c, hc⟩ := Option.ne_none_iff_exists'.mp (mt List.getLast?_eq_none_iff.mp h.nonempty)
  exact ⟨c, hc, h.small c (List.mem_of_getLast? hc)⟩

theorem IsSmallWord.map_toLower (h : IsSmallWord word) : word.map Char.toLower = word := by
  refine (List.map_congr_left fun c hc => ?_).trans (List.map_id word)
  exact (lowerFacts (h.small c hc)).2.2.1

theorem IsSmallWord.lower (h : IsSmallWord word) : lower word = word := by
  rw [lower_eq_map h.letters, h.map_toLower]

theorem IsCapitalizedWord.exists_cons (h : IsCapitalizedWord word) :
    ∃ c small, word = c :: small ∧ c.isUpper = true ∧ IsSmallWord small := by
  cases word with
  | nil => exact absurd h id
  | cons c small => exact ⟨c, small, rfl, h.1, h.2.1, h.2.2⟩

theorem IsCapitalizedWord.isLastWord (lead : List Char) (h : IsCapitalizedWord word) :
    IsLastWord lead word := by
  obtain ⟨c, small, rfl, hc, hsmall⟩ := h.exists_cons
  exact .capitalized hc hsmall.nonempty hsmall.isSmall

theorem IsCapitalizedWord.letters (h : IsCapitalizedWord word) : OfLetters word := by
  obtain ⟨c, small, rfl, hc, hsmall⟩ := h.exists_cons
  exact List.forall_mem_cons.mpr ⟨isAlpha_of_isUpper hc, hsmall.letters⟩

/-- The small form of a capitalized word. -/
theorem IsCapitalizedWord.lower (h : IsCapitalizedWord word) :
    IsSmallWord (lower word) ∧ 2 ≤ (Text.lower word).length
      ∧ capitalized (Text.lower word) = word := by
  have hletters := h.letters
  obtain ⟨c, small, rfl, hc, hsmall⟩ := h.exists_cons
  obtain ⟨-, -, hlower, hback⟩ := upperFacts hc
  rw [lower_eq_map hletters, List.map_cons, hsmall.map_toLower]
  refine ⟨⟨List.cons_ne_nil _ _, List.forall_mem_cons.mpr ⟨hlower, hsmall.small⟩⟩, ?_, ?_⟩
  · exact Nat.succ_le_succ (List.length_pos_iff.mpr hsmall.nonempty)
  · rw [capitalized_cons (isAlphanum_of_isSmall (isSmall_of_isLower hlower)), hback]

/-- The capitalized form of a small word of two letters. -/
theorem IsSmallWord.capitalized (h : IsSmallWord word) (hlength : 2 ≤ word.length) :
    IsCapitalizedWord (capitalized word) ∧ Text.lower (Text.capitalized word) = word := by
  refine ⟨?_, lower_capitalized h.isSmall⟩
  obtain ⟨c, rest, rfl⟩ := List.exists_cons_of_ne_nil h.nonempty
  obtain ⟨hc, hsmall⟩ := List.forall_mem_cons.mp h.small
  have hrest : rest ≠ [] := by
    rintro rfl
    exact absurd hlength (by simp)
  rw [capitalized_cons (isAlphanum_of_isSmall (isSmall_of_isLower hc))]
  exact ⟨(lowerFacts hc).2.2.2.1, hrest, hsmall⟩

end Words

/-! ## Snake case word by word -/

section Append

variable {x y : List Char}

theorem splitHumps_append (hx : ∃ c ∈ x.getLast?, isSmall c = true)
    (hy : ∃ c ∈ y.head?, c.isUpper = true) :
    splitHumps (x ++ y) = splitHumps x ++ '_' :: splitHumps y := by
  have hnext : y.head?.any Char.isUpper = true := by
    obtain ⟨c, hc, hupper⟩ := hy
    rw [Option.mem_def.mp hc]
    exact hupper
  induction x with
  | nil =>
    obtain ⟨c, hc, -⟩ := hx
    exact absurd hc (by simp)
  | cons d x ih =>
    cases x with
    | nil =>
      obtain ⟨c, hc, hsmall⟩ := hx
      obtain rfl : d = c := Option.some.inj hc
      simp [splitHumps, hsmall, hnext]
    | cons e x =>
      rw [List.getLast?_cons_cons] at hx
      have hrest := ih hx
      rw [List.cons_append] at hrest
      rw [List.cons_append, List.cons_append, splitHumps.eq_2 d (e :: (x ++ y)),
        splitHumps.eq_2 d (e :: x), hrest, List.head?_cons, List.head?_cons]
      split <;> rfl

theorem splitAcronyms_append (x y : List Char) :
    splitAcronyms (x ++ '_' :: y) = splitAcronyms x ++ '_' :: splitAcronyms y := by
  have hbegins : ∀ x : List Char, beginsWord (x ++ '_' :: y) = beginsWord x := by
    intro x
    match x with
    | [] => cases y <;> rfl
    | [c] =>
      have hunder : '_'.isLower = false := by decide
      simp [beginsWord, hunder]
    | _ :: _ :: _ => rfl
  induction x with
  | nil =>
    have hunder : '_'.isUpper = false := by decide
    rw [List.nil_append, splitAcronyms.eq_2 '_' y, hunder, Bool.false_and,
      if_neg Bool.false_ne_true]
    rfl
  | cons c x ih =>
    rw [List.cons_append, splitAcronyms.eq_2 c (x ++ '_' :: y), splitAcronyms.eq_2 c x, hbegins, ih]
    split <;> rfl

/-- Runs of underscores end where one of two texts has none. -/
theorem underscoreRuns_append {p : Char → Bool} (h : EndsOutside p x ∨ StartsOutside p y) :
    underscoreRuns p (x ++ y) = underscoreRuns p x ++ underscoreRuns p y := by
  induction x with
  | nil => rfl
  | cons c x ih =>
    rw [List.cons_append, underscoreRuns.eq_2 p c (x ++ y), underscoreRuns.eq_2 p c x]
    cases x with
    | nil =>
      rw [List.nil_append, List.head?_nil, Option.any_none, underscoreRuns]
      rcases h with h | h
      · have hc : p c = false := h c (by simp)
        rw [hc]
        rfl
      · have hnext : y.head?.any p = false := by
          cases y with
          | nil => rfl
          | cons d y => exact startsOutside_cons.mp h
        rw [hnext]
        split <;> rfl
    | cons d x =>
      rw [ih (h.imp_left fun h e he => h e (by rwa [List.getLast?_cons_cons])), List.cons_append,
        List.head?_cons, List.head?_cons]
      split
      · split <;> rfl
      · rfl

theorem underscoreRuns_cons (hy : StartsOutside (· == '_') y) :
    underscoreRuns (· == '_') ('_' :: y) = '_' :: underscoreRuns (· == '_') y :=
  underscoreRuns_append (x := ['_']) (Or.inr hy)

end Append

section LastWord

variable {lead word : List Char}

/-- Parting words does not put underscores at the ends. -/
theorem enclosed_parted {cs : List Char} (h : Enclosed cs) :
    Enclosed (splitAcronyms (splitHumps cs)) :=
  enclosed_of_steps rfl splitAcronyms_cons (enclosed_of_steps rfl splitHumps_cons h)

/-- An underscore parts a small letter or digit and the capital after it. -/
theorem underscored_parted {x y : List Char} (hx : Enclosed x) (hy : Enclosed y)
    (hlast : ∃ c ∈ x.getLast?, isSmall c = true) (hfirst : ∃ c ∈ y.head?, c.isUpper = true) :
    underscored (x ++ y) = underscored x ++ '_' :: underscored y := by
  unfold underscored
  rw [splitHumps_append hlast hfirst, splitAcronyms_append,
    underscoreRuns_append (Or.inl (enclosed_parted hx).ends),
    underscoreRuns_cons (enclosed_parted hy).starts]

/-- A lead that another word can follow: nothing, or letters of which the last is small. -/
structure IsLead (cs : List Char) : Prop where
  letters : OfLetters cs
  ends : ∀ c ∈ cs.getLast?, c.isLower = true

/-- **An underscore parts a name in snake case before its last word.** -/
theorem underscored_append (hlead : IsLead lead) (hne : lead ≠ [])
    (hword : IsCapitalizedWord word) :
    underscored (lead ++ word) = underscored lead ++ '_' :: word := by
  obtain ⟨d, hd⟩ := Option.ne_none_iff_exists'.mp (mt List.getLast?_eq_none_iff.mp hne)
  have hfirst : ∃ c ∈ word.head?, c.isUpper = true := by
    obtain ⟨c, small, rfl, hc, -⟩ := hword.exists_cons
    exact ⟨c, rfl, hc⟩
  rw [underscored_parted (enclosed_of_letters hlead.letters) (enclosed_of_letters hword.letters)
    ⟨d, hd, isSmall_of_isLower (hlead.ends d hd)⟩ hfirst, (hword.isLastWord []).underscored]

end LastWord

/-! ## The plural of a word -/

section Plural

variable {word : List Char}

/-- A capitalized word passes its capital on. -/
theorem matchCase_capitalized (h : IsCapitalizedWord word) (form : List Char) :
    matchCase word form = capitalized form := by
  obtain ⟨c, small, rfl, hc, hsmall⟩ := h.exists_cons
  obtain ⟨d, hd, hlower⟩ := hsmall.exists_last
  have hmixed : isUpperText (c :: small) = false :=
    isUpperText_of_small hlower (List.mem_cons_of_mem c (List.mem_of_getLast? hd))
  rw [matchCase_cons hc hsmall.nonempty, hmixed, if_neg Bool.false_ne_true]

/-- Inflection makes small letters of small letters. -/
theorem small_inflect (number : Number) (h : IsSmallWord word) :
    ∀ c ∈ inflect number word, c.isLower = true := by
  obtain ⟨hsmall, hletters, -⟩ := inflect_sound number h.isSmall
  exact fun c hc => isLower_of_isSmall (hsmall c hc) (hletters h.letters c hc)

/-- Plurals are not shorter than their words. -/
theorem plural_sound :
    (∀ pair ∈ irregular, 2 ≤ pair.2.toList.length)
      ∧ ∀ rule ∈ pluralRules, rule.ending.toList.length ≤ rule.replacement.toList.length := by
  decide

theorem inflect_plural_small (h : IsSmallWord word) (hlength : 2 ≤ word.length) :
    IsSmallWord (inflect .plural word) ∧ 2 ≤ (inflect .plural word).length := by
  have hline : dropFinalNewline (lower word) = lower word :=
    goesWithCase_letters.dropFinalNewline h.letters.lower
  have hlonger : 2 ≤ (inflect .plural word).length := by
    have hforms : Inflects .plural word (inflect .plural word) := inflects_inflect hline
    generalize inflect .plural word = form at hforms
    cases hforms with
    | kept => exact hlength
    | irregular hpair _ =>
      rw [matchCase_of_isSmall h.isSmall]
      exact plural_sound.1 _ hpair
    | rule hrule _ hsource =>
      have hlonger := plural_sound.2 _ hrule
      rw [h.lower] at hsource
      have htotal := congrArg List.length hsource
      rw [List.length_append] at htotal
      rw [matchCase_of_isSmall h.isSmall, List.length_append]
      omega
  exact ⟨⟨List.ne_nil_of_length_pos (by omega), small_inflect .plural h⟩, hlonger⟩

end Plural

/-! ## The plural of a name -/

/-- A name in Pascal case is a lead and a last word. -/
theorem IsPascal.exists_lastWord {name : String} (h : IsPascal name) :
    ∃ lead word, name.toList = lead ++ word ∧ IsLead lead ∧ IsCapitalizedWord word := by
  have hletters := h.letters
  obtain ⟨words, hne, heq, hwords⟩ := h
  obtain ⟨init, word, rfl⟩ := (List.eq_nil_or_concat' words).resolve_left hne
  rw [List.flatten_append, List.flatten_singleton] at heq
  rw [heq] at hletters
  refine ⟨init.flatten, word, heq, ⟨(List.forall_mem_append.mp hletters).1, ?_⟩,
    hwords word (List.mem_append_right _ (List.mem_singleton_self word))⟩
  intro c hc
  rcases List.eq_nil_or_concat' init with rfl | ⟨before, last, rfl⟩
  · exact nomatch hc
  · obtain ⟨d, small, rfl, -, hsmall⟩ := (hwords last (by simp)).exists_cons
    obtain ⟨e, he, hlower⟩ := hsmall.exists_last
    rw [List.flatten_append, List.flatten_singleton, List.append_cons, List.getLast?_append, he,
      Option.some_or] at hc
    rwa [← Option.mem_some_iff.mp hc]

/-- The lead of a name in snake case. -/
def snakeLead (lead : List Char) : List Char :=
  if lead = [] then [] else (underscored lead).map Char.toLower ++ ['_']

/-- **A name in snake case is its lead and its last word in lower case.** -/
theorem toList_snake_append {lead word : List Char} (hlead : IsLead lead)
    (hword : IsCapitalizedWord word) :
    (snake (String.ofList (lead ++ word))).toList = snakeLead lead ++ lower word := by
  have hchars : ∀ c ∈ (String.ofList (lead ++ word)).toList, isNameChar c = true := by
    rw [String.toList_ofList]
    refine List.forall_mem_append.mpr ⟨fun c hc => ?_, fun c hc => ?_⟩
    · exact isNameChar_of_isAlpha (hlead.letters c hc)
    · exact isNameChar_of_isAlpha (hword.letters c hc)
  rw [toList_snake hchars, String.toList_ofList, lower_eq_map hword.letters]
  unfold snakeLead
  split
  · rename_i hnil
    rw [hnil, List.nil_append, List.nil_append, (hword.isLastWord []).underscored]
  · rename_i hne
    rw [underscored_append hlead hne hword, List.map_append, List.map_cons, List.append_assoc]
    rfl

theorem endsOutside_snakeLead (lead : List Char) :
    EndsOutside Char.isAlphanum (snakeLead lead) := by
  unfold snakeLead
  split
  · exact endsOutside_nil
  · exact (endsOutside_append_singleton _).mpr (by decide)

/-- **The plural of a name in snake case is the snake case of the plural**, for a name in Pascal
case. -/
theorem pluralize_snake {name : String} (h : IsPascal name) :
    pluralize (snake name) = tableName name := by
  obtain ⟨lead, word, hname, hlead, hword⟩ := h.exists_lastWord
  obtain ⟨hsmall, hlength, -⟩ := hword.lower
  obtain ⟨hplural, hplurals⟩ := inflect_plural_small hsmall hlength
  obtain ⟨hcapital, hlow⟩ := hplural.capitalized hplurals
  have hpluralize : pluralize name
      = String.ofList (lead ++ capitalized (inflect .plural (lower word))) := by
    have hlast := hword.isLastWord lead
    rw [← matchCase_capitalized hword]
    exact toNumber_of_isLastWord .plural hlast (by rw [hname, dropFinalNewline_of_isLastWord hlast])
  have hsnake : (snake name).toList = snakeLead lead ++ lower word := by
    rw [← String.ofList_toList (s := name), hname]
    exact toList_snake_append hlead hword
  apply String.toList_inj.mp
  have hleft : pluralize (snake name)
      = String.ofList (snakeLead lead ++ inflect .plural (lower word)) :=
    toNumber_eq (hsnake ▸ (hsmall.isLastWord (endsOutside_snakeLead lead)).split) hsmall.nonempty
  unfold tableName
  rw [hleft, hpluralize, toList_snake_append hlead hcapital, hlow, String.toList_ofList]

end Crowsfoot.Naming
