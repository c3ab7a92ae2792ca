import Crowsfoot.Inference.Pivot
import Crowsfoot.Proofs.Naming.Inflection
import Crowsfoot.Proofs.Naming.Snake

/-!
# Names of models and of pivots

`IsPascal` is the form of entity names in diagrams. The name of the model of such an entity, and of
the pivot of two of them, is in snake case:

* `letters_toNumber`: inflection makes letters out of letters, and leaves some of them.
* `isSnake_modelName`, `enclosed_modelName`: a model's name, which can be joined to others.
* `isSnake_pivotName`, `pivotName_pivotName`: a pivot's name, which names the same pivot again.
-/

namespace Crowsfoot.Naming

open Crowsfoot.Text

/-! ## Letters -/

theorem isNameChar_of_isAlpha {c : Char} (h : c.isAlpha = true) : isNameChar c = true := by
  simp [isNameChar, Char.isAlphanum, h]

theorem isAscii_of_isAlpha {c : Char} (h : c.isAlpha = true) : isAscii c = true :=
  isAscii_of_isNameChar (isNameChar_of_isAlpha h)

/-- What inflection relies on, letter by letter. -/
theorem letterFacts {c : Char} (h : c.isAlpha = true) :
    c.toLower.isAlpha = true ∧ c.toUpper.isAlpha = true ∧ c ≠ '\n' ∧ c ≠ '_' ∧ c ≠ '-' := by
  have hall : c.isAlpha = true → c.toLower.isAlpha = true ∧ c.toUpper.isAlpha = true ∧ c ≠ '\n'
      ∧ c ≠ '_' ∧ c ≠ '-' :=
    forall_isAscii (P := fun c => c.isAlpha = true → c.toLower.isAlpha = true
      ∧ c.toUpper.isAlpha = true ∧ c ≠ '\n' ∧ c ≠ '_' ∧ c ≠ '-')
      (by decide) (isAscii_of_isAlpha h)
  exact hall h

section Letters

variable {cs word : List Char}

theorem OfLetters.map {f : Char → Char} (h : OfLetters cs)
    (hf : ∀ c, c.isAlpha = true → (f c).isAlpha = true) : OfLetters (cs.map f) := by
  intro c hc
  obtain ⟨d, hd, rfl⟩ := List.mem_map.mp hc
  exact hf d (h d hd)

theorem lower_eq_map (h : OfLetters cs) : lower cs = cs.map Char.toLower :=
  lower_of_isAscii fun c hc => isAscii_of_isAlpha (h c hc)

theorem OfLetters.lower (h : OfLetters cs) : OfLetters (lower cs) := by
  rw [lower_eq_map h]
  exact h.map fun c hc => (letterFacts hc).1

theorem upperChar_of_isAscii {c : Char} (h : isAscii c = true) : upperChar c = [c.toUpper] :=
  if_pos h

theorem upperChar_of_isAlpha {c : Char} (h : c.isAlpha = true) : upperChar c = [c.toUpper] :=
  upperChar_of_isAscii (isAscii_of_isAlpha h)

/-- Letters go with case. -/
theorem goesWithCase_letters : GoesWithCase fun c => c.isAlpha = true where
  letter _ h := h
  lower h := OfLetters.lower h
  upper h d hd := by
    rw [upperChar_of_isAlpha h, List.mem_singleton] at hd
    exact hd ▸ (letterFacts h).2.1
  newline := by decide

/-! ## Inflection -/

/-- Capitals are as many as the letters they are made of. -/
theorem length_matchCase (h : OfLetters cs) (word : List Char) :
    (matchCase word cs).length = cs.length := by
  unfold matchCase
  split
  · unfold upper
    induction cs with
    | nil => rfl
    | cons c cs ih =>
      rw [List.flatMap_cons, upperChar_of_isAlpha (h c List.mem_cons_self), List.length_append,
        ih fun d hd => h d (List.mem_cons_of_mem c hd), List.length_singleton, List.length_cons,
        Nat.add_comm]
  · split
    · cases cs with
      | nil => rfl
      | cons c cs =>
        unfold capitalized
        dsimp only
        rw [upperChar_of_isAlpha (h c List.mem_cons_self)]
        rfl
    · rfl

/-- Inflection leaves something of a word of two letters. -/
theorem length_inflects {number : Number} {form : List Char} (h : Inflects number word form)
    (hword : OfLetters word) (hlength : 2 ≤ word.length) : 0 < form.length := by
  have hlow : (lower word).length = word.length := by
    rw [lower_eq_map hword, List.length_map]
  cases h with
  | kept => omega
  | irregular hpair _ =>
    obtain ⟨-, hletters, hsome⟩ := irregular_sound hpair number
    rwa [length_matchCase hletters]
  | rule hrule haccepts hsource =>
    obtain ⟨hleaves, -, hletters⟩ := rules_sound number _ hrule
    have hstem : OfLetters _ :=
      (List.forall_mem_append.mp (hsource ▸ hword.lower : OfLetters _)).1
    rw [length_matchCase (List.forall_mem_append.mpr ⟨hstem, hletters⟩)]
    exact SuffixRule.length_pos hleaves haccepts (by rw [← hsource, hlow]; exact hlength)

/-- **Inflection makes a name of letters out of one** that has two letters or more. -/
theorem letters_toNumber (number : Number) {s : String} (h : OfLetters s.toList)
    (hlength : 2 ≤ s.toList.length) :
    OfLetters (toNumber number s).toList ∧ 0 < (toNumber number s).toList.length := by
  refine ⟨goesWithCase_letters.toNumber h number, ?_⟩
  have hword : OfLetters (splitLastWord s.toList).2 := (goesWithCase_letters.splitLastWord h).2
  have htotal := congrArg List.length
    (splitLastWord_append (goesWithCase_letters.dropFinalNewline h))
  have hforms : Inflects number _ _ :=
    inflects_inflect (goesWithCase_letters.dropFinalNewline hword.lower)
  unfold toNumber
  split
  · omega
  · dsimp only
    rw [String.toList_ofList, List.length_append]
    rw [List.length_append] at htotal
    by_cases hempty : (splitLastWord s.toList).1.length = 0
    · have := length_inflects hforms hword (by omega)
      omega
    · omega

end Letters

/-! ## Pascal case -/

/-- A capital and one or more small letters. -/
def IsCapitalizedWord : List Char → Prop
  | [] => False
  | c :: small => c.isUpper = true ∧ small ≠ [] ∧ ∀ d ∈ small, d.isLower = true

instance (word : List Char) : Decidable (IsCapitalizedWord word) :=
  match word with
  | [] => inferInstanceAs (Decidable False)
  | c :: small =>
    inferInstanceAs (Decidable (c.isUpper = true ∧ small ≠ [] ∧ ∀ d ∈ small, d.isLower = true))

/-- One or more words that each begin with a capital. -/
def IsPascal (name : String) : Prop :=
  ∃ words : List (List Char), words ≠ [] ∧ name.toList = words.flatten
    ∧ ∀ word ∈ words, IsCapitalizedWord word

section Pascal

variable {name : String}

theorem IsPascal.letters (h : IsPascal name) : OfLetters name.toList := by
  obtain ⟨words, -, heq, hwords⟩ := h
  intro c hc
  rw [heq] at hc
  obtain ⟨word, hword, hc⟩ := List.mem_flatten.mp hc
  obtain ⟨d, small, rfl⟩ := List.exists_cons_of_ne_nil (List.ne_nil_of_mem hc)
  obtain ⟨hd, -, hsmall⟩ := hwords (d :: small) hword
  rw [isAlpha_eq, Bool.or_eq_true]
  rcases List.mem_cons.mp hc with rfl | hc
  · exact Or.inl hd
  · exact Or.inr (hsmall c hc)

/-- The name begins with a capital, and it is not all. -/
theorem IsPascal.exists_cons (h : IsPascal name) :
    ∃ c cs, name.toList = c :: cs ∧ c.isUpper = true ∧ cs ≠ [] := by
  obtain ⟨words, hne, heq, hwords⟩ := h
  obtain ⟨word, rest, rfl⟩ := List.exists_cons_of_ne_nil hne
  have hword := hwords word List.mem_cons_self
  cases word with
  | nil => exact absurd hword id
  | cons c small =>
    obtain ⟨hc, hsmall, -⟩ := hword
    refine ⟨c, small ++ rest.flatten, heq, hc, ?_⟩
    rw [ne_eq, List.append_eq_nil_iff]
    exact fun hnil => hsmall hnil.1

theorem IsPascal.length (h : IsPascal name) : 2 ≤ name.toList.length := by
  obtain ⟨c, cs, heq, -, hne⟩ := h.exists_cons
  have := List.length_pos_iff.mpr hne
  rw [heq, List.length_cons]
  omega

theorem IsPascal.isName (h : IsPascal name) : IsName name := by
  obtain ⟨c, cs, heq, -, -⟩ := h.exists_cons
  refine ⟨by simp [heq], ?_⟩
  exact fun d hd => (nameCharFacts (isNameChar_of_isAlpha (h.letters d hd))).1

theorem IsPascal.not_isSnake (h : IsPascal name) : ¬IsSnake name.toList := by
  intro hsnake
  obtain ⟨c, cs, heq, hc, -⟩ := h.exists_cons
  have hlow := (snakeCharFacts (hsnake.chars c (by simp [heq]))).1
  rw [hc] at hlow
  exact absurd hlow (by simp)

/-! ## Names of models -/

theorem enclosed_of_letters {cs : List Char} (h : OfLetters cs) : Enclosed cs := by
  have hunder : ∀ c ∈ cs, (c == '_') = false := by
    intro c hc
    rw [beq_eq_false_iff_ne]
    exact (letterFacts (h c hc)).2.2.2.1
  exact ⟨startsOutside_of_all hunder, endsOutside_of_all hunder⟩

theorem IsPascal.singularize (h : IsPascal name) :
    OfLetters (singularize name).toList ∧ 0 < (singularize name).toList.length :=
  letters_toNumber .singular h.letters h.length

/-- **The name of a model is in snake case.** -/
theorem isSnake_modelName (h : IsPascal name) : IsSnake (modelName name).toList :=
  isSnake_snake fun c hc => isNameChar_of_isAlpha (h.singularize.1 c hc)

theorem enclosed_modelName (h : IsPascal name) : Enclosed (modelName name).toList :=
  enclosed_snake (fun c hc => isNameChar_of_isAlpha (h.singularize.1 c hc))
    (enclosed_of_letters h.singularize.1)

theorem modelName_ne_nil (h : IsPascal name) : (modelName name).toList ≠ [] :=
  snake_ne_empty (fun c hc => isNameChar_of_isAlpha (h.singularize.1 c hc))
    (List.length_pos_iff.mp h.singularize.2)

theorem isKeyName_keyName (model : String) : isKeyName (model ++ keySuffix) = true := by
  unfold isKeyName endsWith
  rw [String.toList_append, List.isSuffixOf_iff_suffix]
  exact List.suffix_append _ _

/-- A foreign key has a name. -/
theorem isName_keyName (h : IsPascal name) : IsName (modelName name ++ keySuffix) := by
  have hmodel := (isSnake_modelName h).isName (modelName_ne_nil h)
  constructor
  · rw [String.toList_append, ne_eq, List.append_eq_nil_iff]
    exact fun hnil => hmodel.nonempty hnil.1
  · intro c hc
    rw [String.toList_append] at hc
    rcases List.mem_append.mp hc with hc | hc
    · exact hmodel.word c hc
    · exact (by decide : ∀ c ∈ keySuffix.toList, isWord c = true) c hc

end Pascal

/-! ## Names of pivots -/

/-- Names in snake case are joined by one underscore. -/
theorem isSnake_joined {first second : List Char} (hf : IsSnake first) (hs : IsSnake second)
    (hends : EndsOutside (· == '_') first) (hstarts : StartsOutside (· == '_') second) :
    IsSnake (first ++ '_' :: second) := by
  constructor
  · intro c hc
    rcases List.mem_append.mp hc with hc | hc
    · exact hf.chars c hc
    · rcases List.mem_cons.mp hc with rfl | hc
      · decide
      · exact hs.chars c hc
  · have hsecond : Single ('_' :: second) := by
      refine List.isChain_cons.mpr ⟨?_, hs.single⟩
      intro c hc hboth
      have := hstarts c hc
      rw [hboth.2] at this
      exact absurd this (by decide)
    refine List.isChain_append.mpr ⟨hf.single, hsecond, ?_⟩
    intro c hc d _ hboth
    have := hends c hc
    rw [hboth.1] at this
    exact absurd this (by decide)

section Pivots

variable {first second : String} {custom : Option String}

/-- The label of a line is a word of ASCII characters. -/
def IsLabel (label : String) : Prop :=
  ∀ c ∈ label.toList, isNameChar c = true

theorem isSnake_joinedModels (hf : IsPascal first) (hs : IsPascal second) :
    IsSnake ("_".intercalate [modelName first, modelName second]).toList := by
  have hlist : ("_".intercalate [modelName first, modelName second]).toList
      = (modelName first).toList ++ '_' :: (modelName second).toList := by
    rw [String.intercalate_cons_cons, String.intercalate_singleton]
    simp
  rw [hlist]
  exact isSnake_joined (isSnake_modelName hf) (isSnake_modelName hs) (enclosed_modelName hf).ends
    (enclosed_modelName hs).starts

theorem joinedModels_ne_nil (first second : String) :
    ("_".intercalate [first, second]).toList ≠ [] := by
  rw [String.intercalate_cons_cons, String.intercalate_singleton]
  simp

/-- **The name of a pivot is in snake case**, and there is one. -/
theorem isSnake_pivotName (hf : IsPascal first) (hs : IsPascal second)
    (hcustom : ∀ label ∈ custom, IsLabel label) :
    IsSnake (pivotName first second custom).toList
      ∧ (pivotName first second custom).toList ≠ [] := by
  unfold pivotName
  split
  · rename_i label hlabel
    obtain ⟨hmem, hsome⟩ := Option.filter_eq_some_iff.mp hlabel
    refine ⟨isSnake_snake (hcustom label hmem), snake_ne_empty (hcustom label hmem) ?_⟩
    intro hnil
    rw [isEmpty_of_toList_eq_nil hnil] at hsome
    exact absurd hsome (by simp)
  · rcases sorted_pair (modelName first) (modelName second) with heq | heq <;> rw [heq]
    · exact ⟨isSnake_joinedModels hf hs, joinedModels_ne_nil _ _⟩
    · exact ⟨isSnake_joinedModels hs hf, joinedModels_ne_nil _ _⟩

/-- **A pivot's name names the same pivot again.** -/
theorem pivotName_pivotName (hf : IsPascal first) (hs : IsPascal second)
    (hcustom : ∀ label ∈ custom, IsLabel label) :
    pivotName first second (some (pivotName first second custom))
      = pivotName first second custom := by
  obtain ⟨hsnake, hne⟩ := isSnake_pivotName hf hs hcustom
  have hkept : (some (pivotName first second custom)).filter (fun name => !name.isEmpty)
      = some (pivotName first second custom) := by
    rw [Option.filter_some, (hsnake.isName hne).isEmpty_eq_false]
    rfl
  rw [pivotName.eq_def first second (some _), hkept]
  exact snake_eq_self hsnake

end Pivots

end Crowsfoot.Naming
