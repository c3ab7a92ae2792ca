import Crowsfoot.Proofs.Naming.Scripts
import Crowsfoot.Proofs.Naming.Singulars

/-!
# Models of models

`singularize_singularize`: an identifier has a singular that is its own singular, unless it is a
plural twice over. Then its model is the model of its model, so that keys and pivots have the same
names whether they are named after the one or the other.

A name that is its own singular stays so in snake case (`singularize_snake_of_singular`). Snake case puts no
underscore inside the last word (`exists_underscored_append`), and puts one before it if it is not
apart already. The exception is a capital with digits behind capitals: `ABC1` becomes one word.

Lower case makes one more letter of words, a `k` of the Kelvin sign. A word that only a list keeps
does not stay so behind it (`JoinsListed`).
-/

namespace Crowsfoot.Naming

open Crowsfoot.Text

/-! ## Snake case of a last word -/

section Underscored

variable {lead word y : List Char} {c : Char}

/-- A step that puts an underscore behind each character in `p` before something in `q` leaves alone
what is behind a text, if it does so without the text. It parts the two, unless they are no case of
it. -/
theorem exists_step_append {f : List Char → List Char} {p : Char → Bool} {q : List Char → Bool}
    (hcons : ∀ d cs, f (d :: cs) = if p d && q cs then d :: '_' :: f cs else d :: f cs)
    (hfix : f y = y) (init : List Char) (c : Char) :
    ∃ before last, f (init ++ c :: y) = before ++ y ∧ before.getLast? = some last
      ∧ (last = '_' ∨ last = c ∧ (p c && q y) = false) := by
  induction init with
  | nil =>
    rw [List.nil_append, hcons, hfix]
    cases hparts : p c && q y with
    | true => exact ⟨[c, '_'], '_', rfl, rfl, Or.inl rfl⟩
    | false => exact ⟨[c], c, rfl, rfl, Or.inr ⟨rfl, rfl⟩⟩
  | cons d init ih =>
    obtain ⟨before, last, heq, hlast, hparts⟩ := ih
    rw [List.cons_append, hcons, heq]
    split
    · refine ⟨d :: '_' :: before, last, rfl, ?_, hparts⟩
      rw [List.getLast?_cons_cons, List.getLast?_cons, hlast]
      rfl
    · refine ⟨d :: before, last, rfl, ?_, hparts⟩
      rw [List.getLast?_cons, hlast]
      rfl

/-- Where no step parts them, the last word is apart from what is before it, or it is a capital with
digits. -/
theorem IsLastWord.apart (h : IsLastWord (lead ++ [c]) word)
    (hhump : (isSmall c && word.head?.any Char.isUpper) = false)
    (hacronym : (c.isUpper && beginsWord word) = false) :
    EndsOutside Char.isAlphanum (lead ++ [c]) ∨ ∃ d ∈ word, d.isDigit = true := by
  rw [endsOutside_append_singleton, isAlphanum_eq]
  cases h with
  | small _ _ apart =>
    rw [endsOutside_append_singleton, isAlphanum_eq] at apart
    exact Or.inl apart
  | capitals nonempty chars apart =>
    obtain ⟨x, rest, rfl⟩ := List.exists_cons_of_ne_nil nonempty
    rw [endsOutside_append_singleton] at apart
    rw [List.head?_cons, Option.any_some, chars x List.mem_cons_self, Bool.and_true] at hhump
    exact Or.inl (by rw [hhump, apart]; rfl)
  | @capitalized x small capital nonempty chars =>
    rw [List.head?_cons, Option.any_some, capital, Bool.and_true] at hhump
    cases hupper : c.isUpper with
    | false => exact Or.inl (by rw [hhump]; rfl)
    | true =>
      obtain ⟨digit, rest, rfl⟩ := List.exists_cons_of_ne_nil nonempty
      have hbegins : (true && (x.isUpper && digit.isLower)) = false := hupper ▸ hacronym
      rw [capital, Bool.true_and, Bool.true_and] at hbegins
      have hdigit := chars digit List.mem_cons_self
      rw [isSmall, hbegins, Bool.false_or] at hdigit
      exact Or.inr ⟨digit, by simp, hdigit⟩

/-- **Snake case keeps the last word** and puts an underscore before it, if it is not apart already.
A capital with digits is not parted from capitals. -/
theorem exists_underscored_append (h : IsLastWord lead word) :
    ∃ before, underscored (lead ++ word) = before ++ word
      ∧ (before.getLast? = some '_' ∨ before.getLast? = lead.getLast?
        ∧ (EndsOutside Char.isAlphanum lead ∨ ∃ c ∈ word, c.isDigit = true)) := by
  obtain ⟨hhumps, hacronyms⟩ := h.steps
  have hword := h.beq_underscore
  have hruns : ∀ before, underscoreRuns (· == '_') (before ++ word)
      = underscoreRuns (· == '_') before ++ word := by
    intro before
    rw [underscoreRuns_append (Or.inr (startsOutside_of_all hword)), underscoreRuns_eq_self hword]
  unfold underscored
  rcases List.eq_nil_or_concat' lead with rfl | ⟨init, c, rfl⟩
  · rw [List.nil_append, hhumps, hacronyms, underscoreRuns_eq_self hword]
    exact ⟨[], rfl, Or.inr ⟨rfl, Or.inl endsOutside_nil⟩⟩
  obtain ⟨first, e, hfirst, hlast, hhump⟩ := exists_step_append (f := splitHumps) (p := isSmall)
    (q := fun cs => cs.head?.any Char.isUpper) (fun _ _ => rfl) hhumps init c
  obtain ⟨before, rfl⟩ := List.getLast?_eq_some_iff.mp hlast
  obtain ⟨second, d, hsecond, hlast', hacronym⟩ := exists_step_append (f := splitAcronyms)
    (p := Char.isUpper) (q := beginsWord) (fun _ _ => rfl) hacronyms before e
  rw [List.append_assoc, List.singleton_append, hfirst, List.append_assoc, List.singleton_append,
    hsecond, hruns]
  refine ⟨_, rfl, ?_⟩
  rw [getLast?_underscoreRuns, hlast', List.getLast?_concat]
  rcases hacronym with rfl | ⟨rfl, hacronym⟩
  · exact Or.inl rfl
  rcases hhump with rfl | ⟨rfl, hhump⟩
  · exact Or.inl rfl
  -- nothing parts the two, so the word is apart from what is before it
  exact Or.inr ⟨rfl, h.apart hhump hacronym⟩

end Underscored

/-! ## Singulars in snake case -/

section Singular

variable {name : String}

theorem dropFinalNewline_of_not_mem {cs : List Char} (h : '\n' ∉ cs) :
    dropFinalNewline cs = cs := by
  unfold dropFinalNewline
  rw [if_neg]
  exact fun hlast => h (List.mem_of_getLast? hlast)

theorem newline_not_mem (h : ∀ c ∈ name.toList, isWord c = true) : '\n' ∉ name.toList :=
  fun hmem => absurd (h '\n' hmem) (by decide)

/-- Parting words does not change the last character. -/
theorem getLast?_underscored (cs : List Char) : (underscored cs).getLast? = cs.getLast? := by
  unfold underscored
  rw [getLast?_underscoreRuns, getLast?_of_steps rfl splitAcronyms_cons,
    getLast?_of_steps rfl splitHumps_cons]

/-- A name that is only listed as its own singular and joined by the Kelvin sign before it in lower
case: `k` is then a part of the word. -/
def JoinsListed (name : String) : Prop :=
  (splitLastWord name.toList).1.getLast? = some kelvinSign
    ∧ String.ofList (lower (splitLastWord name.toList).2) ∈ listedInS

instance (name : String) : Decidable (JoinsListed name) :=
  inferInstanceAs (Decidable (_ ∧ _))

/-- What a last word meets in lower case: what is before it goes on with a `k` for a Kelvin sign, or
the word has a digit. -/
theorem exists_lower_lastWord {before word : List Char}
    (halphanum : ∀ c ∈ word, c.isAlphanum = true)
    (hapart : EndsOutside Char.isAlphanum before
        ∧ (before.getLast? = some kelvinSign → String.ofList (lower word) ∉ listedInS)
      ∨ ∃ c ∈ word, c.isDigit = true) :
    ∃ low, lower (before ++ word) = low ++ lower word
      ∧ (low.getLast? = some '\n' → word = [] → before.getLast? = some '\n')
      ∧ ∀ d ∈ low.getLast?, d.isAlphanum = true → String.ofList (lower word) ∉ listedInS
        ∧ (d = 'k' ∨ ∃ c ∈ lower word, c.isDigit = true) := by
  have hascii : ∀ follows, lowerAfter follows word = lower word := by
    intro follows
    rw [lower_of_isAlphanum halphanum]
    exact lowerAfter_of_isAscii (fun c hc => (alphanumFacts (halphanum c hc)).1) follows
  rcases hapart with ⟨hout, hjoins⟩ | ⟨digit, hmem, hdigit⟩
  · obtain ⟨low, follows, hlow, hlast⟩ := exists_lower_endsOutside hout word
    rw [hascii] at hlow
    refine ⟨low, hlow, fun hline _ => ?_, fun d hd halpha => ?_⟩
    · rcases hlast '\n' hline with ⟨-, hbefore⟩ | ⟨hk, -⟩
      · exact hbefore rfl
      · exact absurd hk (by decide)
    · rcases hlast d hd with ⟨hother, -⟩ | ⟨hk, hkelvin⟩
      · rw [halpha] at hother
        cases hother
      · exact ⟨hjoins hkelvin, Or.inl hk⟩
  · obtain ⟨low, follows, hlow⟩ := exists_lower_append before word
    rw [hascii] at hlow
    have hlower : digit ∈ lower word := by
      rw [lower_of_isAlphanum halphanum, ← toLower_of_isSmall (c := digit)
        (by rw [isSmall, hdigit, Bool.or_true])]
      exact List.mem_map_of_mem hmem
    have hlisted : String.ofList (lower word) ∉ listedInS := by
      intro hlisted
      have hnone : ∀ listed ∈ listedInS, ∀ c ∈ listed.toList, c.isDigit = false := by decide
      have hother := hnone _ hlisted digit (by rwa [String.toList_ofList])
      rw [hdigit] at hother
      cases hother
    refine ⟨low, hlow, fun _ hnil => ?_, fun d _ _ => ⟨hlisted, Or.inr ⟨digit, hlower, hdigit⟩⟩⟩
    rw [hnil] at hmem
    exact absurd hmem List.not_mem_nil

/-- A word that is its own singular stays so in lower case, with what it meets there. -/
theorem singularize_lower_append {before word : List Char}
    (halphanum : ∀ c ∈ word, c.isAlphanum = true) (hline : before.getLast? ≠ some '\n')
    (hapart : EndsOutside Char.isAlphanum before
        ∧ (before.getLast? = some kelvinSign → String.ofList (lower word) ∉ listedInS)
      ∨ ∃ c ∈ word, c.isDigit = true)
    (hsingular : inflect .singular (lower word) = lower word) :
    singularize (String.ofList (lower (before ++ word)))
      = String.ofList (lower (before ++ word)) := by
  obtain ⟨low, hlow, hnewline, hmeets⟩ := exists_lower_lastWord halphanum hapart
  have hsmall := isSmall_lower halphanum
  obtain ⟨lead, run, rfl, hrun, hlead⟩ := exists_last_run isSmall low
  have hboth : ∀ c ∈ run ++ lower word, isSmall c = true :=
    List.forall_mem_append.mpr ⟨hrun, hsmall⟩
  rw [List.append_assoc] at hlow
  have hout : EndsOutside Char.isAlphanum lead := by
    intro c hc
    have hmem : c ∈ lower (before ++ word) := by
      rw [hlow]
      exact List.mem_append_left _ (List.mem_of_getLast? hc)
    rw [isAlphanum_eq, hlead c hc, isUpper_of_lowerChar_eq (lowerChar_of_mem_lower hmem),
      Bool.or_false]
  rw [hlow]
  by_cases hnil : run ++ lower word = []
  · obtain ⟨rfl, hword⟩ := List.append_eq_nil_iff.mp hnil
    have hempty : word = [] := by
      by_contra hne
      exact lower_ne_nil hne hword
    rw [List.append_nil] at hnewline
    rw [hnil, List.append_nil]
    apply singularize_of_endsOutside
    rw [String.toList_ofList]
    unfold dropFinalNewline
    rwa [if_neg fun h => hline (hnewline h hempty)]
  refine singularize_of_singular (.small hnil hboth hout) ?_
  rw [lower_of_isSmall hboth]
  rcases List.eq_nil_or_concat' run with rfl | ⟨init, d, rfl⟩
  · exact hsingular
  obtain ⟨hlisted, hmark⟩ := hmeets d (by rw [← List.append_assoc, List.getLast?_concat]; rfl)
    (isAlphanum_of_isSmall (hrun d (List.mem_append_right _ (List.mem_singleton_self d))))
  refine singular_append hboth hsingular hlisted ?_ fun hends => ?_
  · rcases hmark with rfl | ⟨c, hc, hdigit⟩
    · exact ⟨'k', by simp, Or.inr rfl⟩
    · exact ⟨c, List.mem_append_right _ hc, Or.inl hdigit⟩
  · by_cases hword : lower word = []
    · rw [hword, List.append_nil] at hends
      obtain ⟨x, hx⟩ := hends
      have hd : 's' = d := (List.cons.inj (List.append_inj' hx rfl).2).1
      rcases hmark with hk | ⟨c, hc, -⟩
      · exact absurd (hd.trans hk) (by decide)
      · rw [hword] at hc
        exact absurd hc List.not_mem_nil
    · exact List.suffix_of_suffix_length_le hends (List.suffix_append _ _)
        (List.length_pos_iff.mpr hword)

/-- **What is its own singular is so in snake case**, unless a Kelvin sign joins it. -/
theorem singularize_snake_of_singular (hname : ∀ c ∈ name.toList, isWord c = true)
    (hjoins : ¬JoinsListed name) (hsingular : singularize name = name) :
    singularize (snake name) = snake name := by
  have hsnake : (snake name).toList = lower (underscored name.toList) :=
    toList_snake_of_gapless fun c hc => isGap_eq_false_of_isWord (hname c hc)
  have hnewline := newline_not_mem hname
  have hline := dropFinalNewline_of_not_mem hnewline
  rw [← String.ofList_toList (s := snake name), hsnake]
  rcases splitLastWord_cases name.toList with ⟨hends, -⟩ | ⟨lead, word, hparts, hword⟩
  · rw [hline] at hends
    have hout : EndsOutside Char.isAlphanum (underscored name.toList) := by
      intro c hc
      rw [getLast?_underscored] at hc
      exact hends c hc
    rw [← List.append_nil (underscored name.toList)]
    refine singularize_lower_append (by simp) ?_ (Or.inl ⟨hout, fun _ => by decide⟩) (by decide)
    rw [getLast?_underscored]
    exact fun hlast => hnewline (List.mem_of_getLast? hlast)
  have hsplit := hword.splitLastWord hparts
  rw [hline] at hparts
  obtain ⟨before, hwords, hlast⟩ := exists_underscored_append hword
  rw [hparts, hwords]
  rw [← String.ofList_toList (s := name), hparts, singularize_of_isLastWord hword] at hsingular
  have hform := congrArg lower (List.append_cancel_left (String.ofList_injective hsingular))
  rw [lower_matchCase (inflect_sound .singular (isSmall_lower hword.isAlphanum)).1] at hform
  unfold JoinsListed at hjoins
  rw [hsplit] at hjoins
  refine singularize_lower_append hword.isAlphanum ?_ ?_ hform
  · rcases hlast with hlast | ⟨hlast, -⟩ <;> rw [hlast]
    · decide
    · rw [hparts] at hnewline
      exact fun hend => hnewline (List.mem_append_left word (List.mem_of_getLast? hend))
  · rcases hlast with hlast | ⟨hlast, hout | hdigit⟩
    · refine Or.inl ⟨fun c hc => ?_, fun hkelvin => ?_⟩
      · rw [hlast, Option.mem_some_iff] at hc
        exact hc ▸ rfl
      · rw [hlast] at hkelvin
        exact absurd (Option.some.inj hkelvin) (by decide)
    · exact Or.inl ⟨fun c hc => hout c (hlast ▸ hc),
        fun hkelvin hlisted => hjoins ⟨hlast ▸ hkelvin, hlisted⟩⟩
    · exact Or.inr hdigit

/-- ASCII letters and digits go with case. -/
theorem goesWithCase_alphanum : GoesWithCase fun c => c.isAlphanum = true where
  letter c h := by rw [Char.isAlphanum, h, Bool.true_or]
  lower h c hc := isAlphanum_of_isSmall (isSmall_lower h c hc)
  upper {c} h d hd := by
    have hascii := (alphanumFacts h).1
    have hupper : c.isAlphanum = true → c.toUpper.isAlphanum = true :=
      forall_isAscii (P := fun c => c.isAlphanum = true → c.toUpper.isAlphanum = true)
        (by decide) hascii
    rw [upperChar_of_isAscii hascii, List.mem_singleton] at hd
    exact hd ▸ hupper h
  newline := by decide

/-- What stands in a singular stands in the name, or is an ASCII letter or digit. -/
theorem mem_singularize {c : Char} (h : c ∈ (singularize name).toList) :
    c ∈ name.toList ∨ c.isAlphanum = true := by
  rcases splitLastWord_cases name.toList with ⟨hends, -⟩ | ⟨lead, word, hparts, hword⟩
  · rw [singularize_of_endsOutside hends] at h
    exact Or.inl h
  have hsingular : singularize name = _ := toNumber_of_isLastWord .singular hword hparts
  rw [hsingular, String.toList_ofList] at h
  rcases List.mem_append.mp h with h | h
  · left
    have hmem : c ∈ dropFinalNewline name.toList := hparts ▸ List.mem_append_left word h
    rcases dropFinalNewline_cases name.toList with ⟨hsame, -⟩ | hnewline
    · rwa [hsame] at hmem
    · rw [hnewline]
      exact List.mem_append_left _ hmem
  · right
    have hform := (inflect_sound .singular (isSmall_lower hword.isAlphanum)).1
    exact goesWithCase_alphanum.matchCase (fun d hd => isAlphanum_of_isSmall (hform d hd)) word c h

/-- **The model of a model is the model**, if the singular of a name is its own singular. -/
theorem modelName_modelName_of_singular (h : IsName name) (hjoins : ¬JoinsListed (singularize name))
    (hsingular : singularize (singularize name) = singularize name) :
    modelName (modelName name) = modelName name := by
  have hword : ∀ c ∈ (singularize name).toList, isWord c = true := by
    intro c hc
    rcases mem_singularize hc with hc | hc
    · exact h.word c hc
    · have hword : c.isAlphanum = true → isWord c = true :=
        forall_isAscii (P := fun c => c.isAlphanum = true → isWord c = true) (by decide)
          (alphanumFacts hc).1
      exact hword hc
  unfold modelName
  rw [singularize_snake_of_singular hword hjoins hsingular, snake_snake]

end Singular

/-! ## Keys and pivots -/

/-- **The singular of a name is its own singular**, unless the name is a plural twice over. Then a
key or a pivot that is named after the model is named as after the entity. -/
theorem singularize_singularize {name : String} (haliases : ¬EndsInAliases name) :
    (singularize (singularize name) = singularize name ↔ ¬IsTwicePlural name)
      ∧ (IsName name → ¬IsTwicePlural name → ¬JoinsListed (singularize name) →
        modelName (modelName name) = modelName name
          ∧ foreignKeyName (modelName name) = foreignKeyName name
          ∧ (∀ t : Table, t.ensureKey (modelName name) = t.ensureKey name)
          ∧ ∀ other custom, pivotName (modelName name) other custom = pivotName name other custom
            ∧ pivotName other (modelName name) custom = pivotName other name custom) := by
  have hiff := singularize_singularize_eq_iff haliases
  refine ⟨hiff, fun hname honce hjoins => ?_⟩
  have hmodel := modelName_modelName_of_singular hname hjoins (hiff.mpr honce)
  refine ⟨hmodel, ?_, fun t => ?_, fun other custom => ⟨?_, ?_⟩⟩
  · unfold foreignKeyName
    rw [hmodel]
  · unfold Table.ensureKey
    rw [hmodel]
  · unfold pivotName
    rw [hmodel]
  · unfold pivotName
    rw [hmodel]

/-- The model of `OrderItems` is `order_item`, which is its own model. -/
theorem singularize_singularize_orderItems :
    ¬EndsInAliases "OrderItems" ∧ ¬IsTwicePlural "OrderItems"
      ∧ singularize (singularize "OrderItems") = singularize "OrderItems"
      ∧ foreignKeyName (modelName "OrderItems") = foreignKeyName "OrderItems" := by
  have haliases : ¬EndsInAliases "OrderItems" := by decide +kernel
  have honce : ¬IsTwicePlural "OrderItems" := by decide +kernel
  obtain ⟨hiff, hkeys⟩ := singularize_singularize haliases
  exact ⟨haliases, honce, hiff.mpr honce, (hkeys (by decide) honce (by decide +kernel)).2.1⟩

/-- The singular of `mens` is `men`, whose singular is `man`, and that of `usersS` is `users`. The
key to `mens` is not that to its model. In lower case the Kelvin sign joins the word behind it,
which is not listed then. -/
theorem singularize_singularize_ne :
    singularize (singularize "mens") ≠ singularize "mens"
      ∧ singularize (singularize "usersS") ≠ singularize "usersS"
      ∧ foreignKeyName (modelName "mens") ≠ foreignKeyName "mens"
      ∧ modelName (modelName "\u212Anews") ≠ modelName "\u212Anews" := by
  decide +kernel

end Crowsfoot.Naming
