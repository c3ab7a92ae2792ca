import Crowsfoot.Proofs.Naming.SingularModels

/-!
# Singular entities in Pascal case

Entities that are called as conventions want it: in Pascal case (`IsPascal`) and in the singular
(`isSingular`).

* `modelName_of_singular`, `singularize_snake`: the model of such an entity is its snake case, which
  is singular again, so that `modelName_modelName` holds.
* `tableOfForeignKey_foreignKeyName`, `pluralize_modelName`: the conventions for foreign keys lead to
  the table that the entity is stored in.
-/

namespace Crowsfoot.Naming

open Crowsfoot.Text

section Entities

variable {name : String}

/-- Strict Pascal case is Pascal case. -/
theorem IsPascal.isCapitalized (h : IsPascal name) : IsCapitalized name := by
  obtain ⟨c, cs, heq, hc, -⟩ := h.exists_cons
  constructor
  · rw [heq, List.head?_cons, Option.any_some]
    unfold lowerChar
    rw [if_pos (isAscii_of_isAlpha (isAlpha_of_isUpper hc)), bne_iff_ne]
    intro hsame
    have hlower := (upperFacts hc).2.2.1
    rw [(List.cons.inj hsame).1] at hlower
    rw [(lowerFacts hlower).1] at hc
    exact nomatch hc
  · exact fun hunder => (letterFacts (h.letters '_' hunder)).2.2.2.1 rfl

theorem modelName_of_singular (h : isSingular name = true) : modelName name = snake name :=
  congrArg snake (beq_iff_eq.mp h)

/-- **The snake case of a singular entity is singular.** -/
theorem singularize_snake (h : IsPascal name) (hsingular : isSingular name = true) :
    singularize (snake name) = snake name := by
  refine singularize_snake_of_singular h.isName.word ?_ (beq_iff_eq.mp hsingular)
  rintro ⟨hkelvin, -⟩
  obtain ⟨lead, word, hname, -, hword⟩ := h.exists_lastWord
  rw [hname, (hword.isLastWord lead).split] at hkelvin
  have hmem : kelvinSign ∈ name.toList :=
    hname ▸ List.mem_append_left word (List.mem_of_getLast? hkelvin)
  exact absurd (h.letters kelvinSign hmem) (by decide)

/-- The name of a model names the same model again. -/
theorem modelName_modelName (h : IsPascal name) (hsingular : isSingular name = true) :
    modelName (modelName name) = modelName name := by
  have hsnake := isSnake_modelName h
  rw [modelName_of_singular hsingular] at hsnake ⊢
  rw [modelName, singularize_snake h hsingular, snake_eq_self hsnake]

theorem pluralize_modelName (h : IsPascal name) (hsingular : isSingular name = true) :
    pluralize (modelName name) = tableName name := by
  rw [modelName_of_singular hsingular]
  exact pluralize_snake h

/-- The table that a foreign key column refers to by its name is that of its model. -/
theorem tableOfForeignKey_foreignKeyName (name : String) :
    tableOfForeignKey (foreignKeyName name) = pluralize (modelName name) := by
  have hlength : keySuffix.length = keySuffix.toList.length := rfl
  unfold tableOfForeignKey foreignKeyName
  rw [if_pos (isKeyName_keyName _), String.toList_append, List.length_append, hlength, Nat.add_sub_cancel,
    List.take_left, String.ofList_toList]

end Entities

end Crowsfoot.Naming
