import Crowsfoot.Proofs.Naming.Models

/-!
# Names in any script

Names in diagrams and migrations are words of any script, and putting them in lower case can turn
one character into several. What holds of their snake case all the same, beside its normal form
(`isNormal_snake`):

* `toList_snake_of_isName`: a word needs no trimming and has no gaps.
* `snake_ne_nil`, `pivotName_ne_empty`: something is left of it, so pivots have names.
* `mem_snake`, `mem_toNumber`: a character without another case stays in a name.
* `isName_entityName`, `underscore_not_mem_entityName`: the entity of a table that is called by
  convention is a word without underscores, so it is not called like a pivot
  (`entityName_ne_snake`).
* `isName_tableName`, `IsCapitalized.ne_pivotName`: the table of an entity that is called by
  convention is a word, and an entity in Pascal case is not called like a pivot.
* `pivotName_pivotName_of_isName`: the names of pivots are settled after one step, as snake case is.
-/

namespace Crowsfoot.Naming

open Crowsfoot.Text

/-! ## Words in snake case -/

theorem isGap_eq_false_of_isWord {c : Char} (h : isWord c = true) : isGap c = false := by
  unfold isGap
  rw [isBlank_eq_false_of_isWord h, Bool.false_or, beq_eq_false_iff_ne]
  exact ne_of_isWord h (by decide)

/-- A word has no gaps. -/
theorem toList_snake_of_isName {name : String} (h : IsName name) :
    (snake name).toList = lower (underscored name.toList) :=
  toList_snake_of_gapless fun c hc => isGap_eq_false_of_isWord (h.word c hc)

theorem lower_ne_nil {cs : List Char} (h : cs ≠ []) : lower cs ≠ [] := by
  obtain ⟨c, rest, rfl⟩ := List.exists_cons_of_ne_nil h
  obtain ⟨d, ds, _, heq, -⟩ := lowerAfter_cons false c rest
  unfold lower
  rw [heq]
  exact List.cons_ne_nil _ _

/-- Something is left of a word. -/
theorem snake_ne_nil {name : String} (h : IsName name) : (snake name).toList ≠ [] := by
  rw [toList_snake_of_isName h]
  exact lower_ne_nil (underscored_ne_nil h.nonempty)

/-- **A pivot has a name.** -/
theorem pivotName_ne_empty {first second : String} {custom : Option String}
    (h : ∀ label ∈ custom, IsName label) : pivotName first second custom ≠ "" := by
  intro hempty
  have hnil : (pivotName first second custom).toList = [] := by rw [hempty]; rfl
  unfold pivotName at hnil
  split at hnil
  · rename_i label hlabel
    exact snake_ne_nil (h label (Option.filter_eq_some_iff.mp hlabel).1) hnil
  · rcases sorted_pair (modelName first) (modelName second) with heq | heq <;> rw [heq] at hnil
    · exact joinedModels_ne_nil _ _ hnil
    · exact joinedModels_ne_nil _ _ hnil

/-! ## Characters that stay -/

section Stay

variable {c : Char} {cs : List Char}

theorem mem_strip {p : Char → Bool} (hc : p c = false) (h : c ∈ cs) : c ∈ strip p cs := by
  have hdrop : ∀ ds : List Char, c ∈ ds → c ∈ ds.dropWhile p := by
    intro ds hds
    rw [← List.takeWhile_append_dropWhile (p := p) (l := ds)] at hds
    rcases List.mem_append.mp hds with hds | hds
    · have := List.all_eq_true.mp List.all_takeWhile c hds
      rw [hc] at this
      exact absurd this (by simp)
    · exact hds
  unfold strip
  rw [List.mem_reverse]
  exact hdrop _ (List.mem_reverse.mpr (hdrop cs h))

theorem mem_underscoreRuns_of_mem {p : Char → Bool} (hc : p c = false) (h : c ∈ cs) :
    c ∈ underscoreRuns p cs := by
  induction cs with
  | nil => exact h
  | cons d cs ih =>
    unfold underscoreRuns
    rcases List.mem_cons.mp h with rfl | h
    · rw [hc, if_neg Bool.false_ne_true]
      exact List.mem_cons_self
    · split
      · split
        · exact ih h
        · exact List.mem_cons_of_mem _ (ih h)
      · exact List.mem_cons_of_mem d (ih h)

/-- Of a run of underscores one stays. -/
theorem underscore_mem_underscoreRuns (h : '_' ∈ cs) : '_' ∈ underscoreRuns (· == '_') cs := by
  induction cs with
  | nil => exact h
  | cons d cs ih =>
    unfold underscoreRuns
    split
    · split
      · rename_i hnext
        cases cs with
        | nil => exact absurd hnext (by simp)
        | cons e cs =>
          rw [List.head?_cons, Option.any_some, beq_iff_eq] at hnext
          exact ih (hnext ▸ List.mem_cons_self)
      · exact List.mem_cons_self
    · rename_i hd
      rcases List.mem_cons.mp h with rfl | h
      · exact absurd rfl hd
      · exact List.mem_cons_of_mem d (ih h)

theorem mem_of_splits {f : List Char → List Char}
    (hcons : ∀ d cs, f (d :: cs) = d :: '_' :: f cs ∧ cs ≠ [] ∨ f (d :: cs) = d :: f cs)
    (h : c ∈ cs) : c ∈ f cs := by
  induction cs with
  | nil => exact absurd h (by simp)
  | cons d cs ih =>
    rcases hcons d cs with ⟨heq, -⟩ | heq <;> rw [heq] <;> rcases List.mem_cons.mp h with rfl | h
    · exact List.mem_cons_self
    · exact List.mem_cons_of_mem d (List.mem_cons_of_mem _ (ih h))
    · exact List.mem_cons_self
    · exact List.mem_cons_of_mem d (ih h)

/-- Splitting words takes no character away. -/
theorem mem_underscored (h : c ∈ cs) : c ∈ underscored cs := by
  have hsplit : c ∈ splitAcronyms (splitHumps cs) :=
    mem_of_splits splitAcronyms_cons (mem_of_splits splitHumps_cons h)
  unfold underscored
  by_cases hc : (c == '_') = true
  · obtain rfl : c = '_' := by simpa using hc
    exact underscore_mem_underscoreRuns hsplit
  · exact mem_underscoreRuns_of_mem (by simpa using hc) hsplit

/-- **What has no other case stays in the snake case**, unless it is a gap. -/
theorem mem_snake (hfixed : IsFixed c) (hgap : isGap c = false) {name : String}
    (h : c ∈ name.toList) : c ∈ (snake name).toList := by
  have hblank : isBlank c = false := (Bool.or_eq_false_iff.mp hgap).1
  rw [toList_snake_eq]
  exact mem_lower hfixed
    (mem_underscored (mem_underscoreRuns_of_mem hgap (mem_strip hblank h)))

theorem mem_matchCase (hfixed : IsFixed c) (word : List Char) (h : c ∈ cs) :
    c ∈ matchCase word cs := by
  unfold matchCase
  split
  · exact mem_upper hfixed h
  · split
    · cases cs with
      | nil => exact absurd h (by simp)
      | cons d cs =>
        rw [capitalized]
        rcases List.mem_cons.mp h with rfl | h
        · rw [hfixed.upper]
          exact List.mem_append_left _ (List.mem_singleton_self c)
        · exact List.mem_append_right _ h
    · exact h

end Stay

/-! ## Spelling -/

/-- Nothing but letters, numerals, and marks that come with case. -/
def Spelled (cs : List Char) : Prop :=
  ∀ c ∈ cs, isSpelling c = true

section Spelling

variable {cs word : List Char}

/-- Spelling goes with case. -/
theorem goesWithCase_spelling : GoesWithCase fun c => isSpelling c = true where
  letter c h := isSpelling_of_isAlphanum (isAscii_of_isAlpha h) (by simp [Char.isAlphanum, h])
  lower h := isSpelling_lower h
  upper h := isSpelling_upperChar h
  newline := by decide

/-- **Inflection makes spelling out of spelling.** -/
theorem Spelled.toNumber {name : String} (h : Spelled name.toList) (number : Number) :
    Spelled (toNumber number name).toList :=
  goesWithCase_spelling.toNumber h number

/-! ### Marks -/

/-- **A mark stays in an inflected word**: no ending has one, and no irregular word. -/
theorem mem_inflects {c : Char} (hmark : c.toNat ∈ caseMarks) {number : Number} {form : List Char}
    (h : Inflects number word form) (hc : c ∈ word) : c ∈ form := by
  have hfixed := isFixed_of_mem_caseMarks hmark
  have hmem : c ∈ lower word := mem_lower hfixed hc
  have hletter : ¬c.isAlpha = true := by
    have hall : ∀ n ∈ caseMarks, ¬n < 128 := by decide
    exact fun h => hall c.toNat hmark (of_decide_eq_true (isAscii_of_isAlpha h))
  cases h with
  | kept => exact hc
  | irregular hpair hsource =>
    exact absurd ((irregular_sound hpair number).1 c (hsource ▸ hmem)) hletter
  | rule hrule _ hsource =>
    refine mem_matchCase hfixed word ?_
    rcases List.mem_append.mp (hsource ▸ hmem : c ∈ _ ++ _) with hstem | hending
    · exact List.mem_append_left _ hstem
    · exact absurd ((rules_sound number _ hrule).2.1 c hending) hletter

theorem mem_toNumber {c : Char} (hmark : c.toNat ∈ caseMarks) {name : String}
    (h : Spelled name.toList) (hc : c ∈ name.toList) (number : Number) :
    c ∈ (toNumber number name).toList := by
  unfold toNumber
  split
  · exact hc
  · have hlow := goesWithCase_spelling.lower (goesWithCase_spelling.splitLastWord h).2
    have hforms : Inflects number _ _ :=
      inflects_inflect (goesWithCase_spelling.dropFinalNewline hlow)
    dsimp only
    rw [String.toList_ofList]
    rw [← splitLastWord_append (goesWithCase_spelling.dropFinalNewline h)] at hc
    rcases List.mem_append.mp hc with hc | hc
    · exact List.mem_append_left _ hc
    · exact List.mem_append_right _ (mem_inflects hmark hforms hc)

end Spelling

/-! ## Entities -/

section Entities

variable {table : String}

theorem mem_runsOutside_go {p : Char → Bool} {run cs part : List Char}
    (h : part ∈ runsOutside.go p run cs) (hrun : ∀ c ∈ run, p c = false) :
    ∀ c ∈ part, p c = false ∧ (c ∈ run ∨ c ∈ cs) := by
  induction cs generalizing run with
  | nil =>
    rw [runsOutside.go, List.mem_singleton] at h
    rw [h]
    intro c hc
    exact ⟨hrun c (List.mem_reverse.mp hc), Or.inl (List.mem_reverse.mp hc)⟩
  | cons d cs ih =>
    rw [runsOutside.go] at h
    split at h
    · rcases List.mem_cons.mp h with rfl | h
      · intro c hc
        exact ⟨hrun c (List.mem_reverse.mp hc), Or.inl (List.mem_reverse.mp hc)⟩
      · intro c hc
        obtain ⟨hout, hc⟩ := ih h (by simp) c hc
        exact ⟨hout, Or.inr (List.mem_cons_of_mem d (hc.resolve_left (by simp)))⟩
    · rename_i hd
      intro c hc
      have hlonger : ∀ e ∈ d :: run, p e = false := by
        intro e he
        rcases List.mem_cons.mp he with rfl | he
        · simpa using hd
        · exact hrun e he
      obtain ⟨hout, hc⟩ := ih h hlonger c hc
      refine ⟨hout, ?_⟩
      rcases hc with hc | hc
      · rcases List.mem_cons.mp hc with rfl | hc
        · exact Or.inr List.mem_cons_self
        · exact Or.inl hc
      · exact Or.inr (List.mem_cons_of_mem d hc)

theorem mem_runsOutside {p : Char → Bool} {cs part : List Char} (h : part ∈ runsOutside p cs) :
    ∀ c ∈ part, p c = false ∧ c ∈ cs := by
  intro c hc
  obtain ⟨hout, hc⟩ := mem_runsOutside_go (List.mem_filter.mp h).1 (by simp) c hc
  exact ⟨hout, hc.resolve_left (by simp)⟩

/-- What is outside is in one of the runs. -/
theorem exists_mem_runsOutside_go {p : Char → Bool} {c : Char} (hc : p c = false)
    {run cs : List Char} (h : c ∈ run ∨ c ∈ cs) : ∃ part ∈ runsOutside.go p run cs, c ∈ part := by
  induction cs generalizing run with
  | nil =>
    rw [runsOutside.go]
    exact ⟨run.reverse, List.mem_singleton_self _, List.mem_reverse.mpr (h.resolve_right (by simp))⟩
  | cons d cs ih =>
    rw [runsOutside.go]
    split
    · rename_i hd
      rcases h with h | h
      · exact ⟨run.reverse, List.mem_cons_self, List.mem_reverse.mpr h⟩
      · have hrest : c ∈ cs := by
          rcases List.mem_cons.mp h with rfl | h
          · rw [hd] at hc
            exact absurd hc (by simp)
          · exact h
        obtain ⟨part, hpart, hmem⟩ : ∃ part ∈ runsOutside.go p [] cs, c ∈ part :=
          ih (Or.inr hrest)
        exact ⟨part, List.mem_cons_of_mem _ hpart, hmem⟩
    · apply ih
      rcases h with h | h
      · exact Or.inl (List.mem_cons_of_mem d h)
      · rcases List.mem_cons.mp h with rfl | h
        · exact Or.inl List.mem_cons_self
        · exact Or.inr h

/-- What is neither a gap nor an underscore and has no other case stays in the words of a name. -/
theorem mem_studly {c : Char} (hfixed : IsFixed c) (hgap : isGap c = false) (hunder : c ≠ '_')
    (h : c ∈ table.toList) : c ∈ (studly table).toList := by
  have hout : (isGap c || c == '_') = false := by
    rw [hgap, Bool.false_or, beq_eq_false_iff_ne]
    exact hunder
  obtain ⟨part, hpart, hmem⟩ :
      ∃ part ∈ runsOutside.go (fun c => isGap c || c == '_') [] table.toList, c ∈ part :=
    exists_mem_runsOutside_go hout (Or.inr h)
  have hkept : part ∈ runsOutside (fun c => isGap c || c == '_') table.toList := by
    refine List.mem_filter.mpr ⟨hpart, ?_⟩
    cases part with
    | nil => exact absurd hmem (by simp)
    | cons d part => rfl
  unfold studly onChars
  rw [String.toList_ofList, List.mem_flatMap]
  refine ⟨part, hkept, ?_⟩
  cases part with
  | nil => exact absurd hmem (by simp)
  | cons d part =>
    rw [capitalized]
    rcases List.mem_cons.mp hmem with rfl | hmem
    · rw [hfixed.upper]
      exact List.mem_append_left _ (List.mem_singleton_self c)
    · exact List.mem_append_right _ hmem

/-- The words of a name that is spelled with underscores are letters and numerals. -/
theorem spelled_studly (h : ∀ c ∈ table.toList, isSpelling c = true ∨ c = '_') :
    Spelled (studly table).toList := by
  unfold studly onChars
  rw [String.toList_ofList]
  intro c hc
  obtain ⟨run, hrun, hc⟩ := List.mem_flatMap.mp hc
  have hspelled : Spelled run := by
    intro d hd
    obtain ⟨hout, hmem⟩ := mem_runsOutside hrun d hd
    have hunder : d ≠ '_' := by simpa using (Bool.or_eq_false_iff.mp hout).2
    exact (h d hmem).resolve_right hunder
  exact goesWithCase_spelling.capitalized hspelled c hc

theorem isSpelling_of_isWord {c : Char} (h : isWord c = true) : isSpelling c = true ∨ c = '_' := by
  unfold isWord at h
  rcases Bool.or_eq_true_iff.mp h with h | h
  · left
    unfold isSpelling
    rw [h, Bool.true_or]
  · exact Or.inr (by simpa using h)

/-- Of what is spelled, only a mark is no word. -/
theorem mem_caseMarks_of_isSpelling {c : Char} (h : isSpelling c = true)
    (hword : isWord c = false) : c.toNat ∈ caseMarks := by
  have halphanumeric := (Bool.or_eq_false_iff.mp hword).1
  unfold isSpelling at h
  rwa [halphanumeric, Bool.false_or, List.contains_iff_mem] at h

theorem isGap_of_mem_caseMarks {c : Char} (h : c.toNat ∈ caseMarks) : isGap c = false := by
  have hgaps : ∀ n ∈ caseMarks, isGap (Char.ofNat n) = false := by decide
  have hgap := hgaps c.toNat h
  rwa [Char.ofNat_toNat] at hgap

theorem spelled_entityName (h : IsName table) : Spelled (entityName table).toList :=
  (spelled_studly fun c hc => isSpelling_of_isWord (h.word c hc)).toNumber .singular

/-- The name of an entity has no underscore. -/
theorem underscore_not_mem_entityName (h : IsName table) : '_' ∉ (entityName table).toList :=
  fun hmem => absurd (spelled_entityName h '_' hmem) (by decide)

/-- **The entity of a table that is called by convention is a word**: a mark in its name would be in
the name of the table as well. -/
theorem isName_entityName (h : IsName table) (hconvention : tableName (entityName table) = table) :
    IsName (entityName table) := by
  have hspelled := spelled_entityName h
  constructor
  · intro hnil
    have hempty : entityName table = "" := by
      rw [← String.ofList_toList (s := entityName table), hnil]
    rw [hempty] at hconvention
    have : (tableName "").toList = [] := by decide
    rw [hconvention] at this
    exact h.nonempty this
  · intro c hc
    cases hword : isWord c with
    | true => rfl
    | false =>
      have hmark := mem_caseMarks_of_isSpelling (hspelled c hc) hword
      have hmem := mem_snake (isFixed_of_mem_caseMarks hmark) (isGap_of_mem_caseMarks hmark)
        (mem_toNumber hmark hspelled hc .plural)
      have hconvention : snake (toNumber .plural (entityName table)) = table := hconvention
      rw [hconvention] at hmem
      rw [h.word c hmem] at hword
      exact absurd hword (by simp)

/-- The name of a pivot has an underscore. -/
theorem underscore_mem_of_isPivotName {name : String} (h : isPivotName name = true) :
    '_' ∈ name.toList := by
  by_contra hnone
  unfold isPivotName firstOfTwoParts? at h
  rw [pieces_eq_singleton hnone] at h
  exact absurd h (by simp)

/-- **No entity of a table is called like a pivot.** -/
theorem entityName_ne_snake (h : IsName table) {name : String} (hpivot : isPivotName name = true) :
    entityName table ≠ snake name := by
  intro heq
  have hfixed : IsFixed '_' := ⟨by decide, by decide, by decide⟩
  have hmem := mem_snake hfixed (by decide) (underscore_mem_of_isPivotName hpivot)
  rw [← heq] at hmem
  exact underscore_not_mem_entityName h hmem

end Entities

/-! ## Pascal case -/

/-- A name in Pascal case, in whatever script: it begins with a capital, which is a letter that has
another lower case, and has no underscore. -/
def IsCapitalized (name : String) : Prop :=
  (name.toList.head?.any fun c => lowerChar c != [c]) = true ∧ '_' ∉ name.toList

instance (name : String) : Decidable (IsCapitalized name) :=
  inferInstanceAs (Decidable (_ ∧ _))

theorem lowerChar_of_mem_pivotName {c : Char} {first second : String} {custom : Option String}
    (h : c ∈ (pivotName first second custom).toList) : lowerChar c = [c] := by
  have hjoined : ∀ {a b : String}, c ∈ ("_".intercalate [snake a, snake b]).toList →
      lowerChar c = [c] := by
    intro a b hmem
    rw [String.intercalate_cons_cons, String.intercalate_singleton, String.toList_append,
      String.toList_append] at hmem
    rcases List.mem_append.mp hmem with hmem | hmem
    · rcases List.mem_append.mp hmem with hmem | hmem
      · exact lowerChar_of_mem_snake hmem
      · exact (by decide : ∀ c ∈ "_".toList, lowerChar c = [c]) c hmem
    · exact lowerChar_of_mem_snake hmem
  unfold pivotName at h
  split at h
  · exact lowerChar_of_mem_snake h
  · rcases sorted_pair (modelName first) (modelName second) with heq | heq <;> rw [heq] at h
    · exact hjoined h
    · exact hjoined h

/-- **No pivot is called like an entity in Pascal case.** -/
theorem IsCapitalized.ne_pivotName {name first second : String} {custom : Option String}
    (h : IsCapitalized name) : name ≠ pivotName first second custom := by
  intro heq
  have hcapital := h.1
  rw [Option.any_eq_true] at hcapital
  obtain ⟨c, hc, hlower⟩ := hcapital
  have hmem : c ∈ name.toList := List.mem_of_head? hc
  rw [heq] at hmem
  rw [lowerChar_of_mem_pivotName hmem] at hlower
  exact absurd hlower (by simp)

theorem isGap_eq_false_of_isSpelling {c : Char} (h : isSpelling c = true) : isGap c = false := by
  cases hword : isWord c with
  | true => exact isGap_eq_false_of_isWord hword
  | false => exact isGap_of_mem_caseMarks (mem_caseMarks_of_isSpelling h hword)

theorem isGap_eq_false_of_spelled {c : Char} (h : isSpelling c = true ∨ c = '_') :
    isGap c = false := by
  rcases h with h | rfl
  · exact isGap_eq_false_of_isSpelling h
  · decide

/-! ### Spelling with underscores -/

theorem spelled_underscored {cs : List Char} (h : ∀ c ∈ cs, isSpelling c = true ∨ c = '_') :
    ∀ c ∈ underscored cs, isSpelling c = true ∨ c = '_' :=
  fun c hc => (mem_of_mem_underscored hc).elim (h c) Or.inr

/-- The snake case of a spelled name is spelled with underscores. -/
theorem spelled_snake {name : String} (h : ∀ c ∈ name.toList, isSpelling c = true ∨ c = '_') :
    ∀ c ∈ (snake name).toList, isSpelling c = true ∨ c = '_' := by
  rw [toList_snake_of_gapless fun c hc => isGap_eq_false_of_spelled (h c hc)]
  refine forall_mem_lower (by decide) ?_ (spelled_underscored h)
  rintro c (hc | rfl) d hd
  · exact Or.inl (isSpelling_lowerChar hc d hd)
  · exact Or.inr ((by decide : ∀ d ∈ lowerChar '_', d = '_') d hd)

/-- **A pivot's name names the same pivot again**, whatever the script of the label. -/
theorem pivotName_pivotName_of_isName {first second : String} {custom : Option String}
    (hf : IsPascal first) (hs : IsPascal second) (h : ∀ label ∈ custom, IsName label) :
    pivotName first second (some (pivotName first second custom))
      = pivotName first second custom := by
  cases custom with
  | none => exact pivotName_pivotName hf hs (by simp)
  | some label =>
    have hlabel : IsName label := h label rfl
    have hsome : ∀ {name : String}, name.toList ≠ [] →
        pivotName first second (some name) = snake name := by
      intro name hne
      have hkept : (some name).filter (fun name => !name.isEmpty) = some name := by
        have hsome : name.isEmpty = false := by
          rw [← Bool.not_eq_true, String.isEmpty_iff]
          rintro rfl
          exact hne rfl
        rw [Option.filter_some, hsome]
        rfl
      unfold pivotName
      rw [hkept]
    rw [hsome hlabel.nonempty, hsome (snake_ne_nil hlabel), snake_snake label]

/-- **The table of an entity that is called by convention is a word**: a mark in its name would be
in the name of the entity as well. -/
theorem isName_tableName {name : String} (h : IsName name) (hplain : '_' ∉ name.toList)
    (hconvention : entityName (tableName name) = name) : IsName (tableName name) := by
  have hplural : Spelled (pluralize name).toList := by
    refine Spelled.toNumber (fun c hc => ?_) .plural
    exact (isSpelling_of_isWord (h.word c hc)).resolve_right fun he => hplain (he ▸ hc)
  have hspelled : ∀ c ∈ (tableName name).toList, isSpelling c = true ∨ c = '_' :=
    spelled_snake fun c hc => Or.inl (hplural c hc)
  constructor
  · intro hnil
    have hempty : tableName name = "" := by
      rw [← String.ofList_toList (s := tableName name), hnil]
    rw [hempty] at hconvention
    have : (entityName "").toList = [] := by decide
    rw [hconvention] at this
    exact h.nonempty this
  · intro c hc
    cases hword : isWord c with
    | true => rfl
    | false =>
      have hunder : c ≠ '_' := by
        rintro rfl
        exact absurd hword (by decide)
      have hmark := mem_caseMarks_of_isSpelling ((hspelled c hc).resolve_right hunder) hword
      have hmem := mem_toNumber hmark (spelled_studly hspelled)
        (mem_studly (isFixed_of_mem_caseMarks hmark) (isGap_of_mem_caseMarks hmark) hunder hc)
        .singular
      have hconvention : toNumber .singular (studly (tableName name)) = name := hconvention
      rw [hconvention] at hmem
      rw [h.word c hmem] at hword
      exact absurd hword (by simp)

end Crowsfoot.Naming
