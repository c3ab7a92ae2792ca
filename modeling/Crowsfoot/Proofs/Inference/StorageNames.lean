import Crowsfoot.Proofs.Inference.Accounts

/-!
# How the tables of a diagram are stored

The names in a diagram are words, so the names that its tables are stored under are spelled with
letters, numerals, their marks and underscores (`spelled_storageName`). Nothing in them means
anything in a path or in a pattern of paths.
-/

namespace Crowsfoot

open Crowsfoot.Naming Crowsfoot.Text

/-- A name of letters, numerals, their marks and underscores. -/
def SpelledName (name : String) : Prop :=
  ∀ c ∈ name.toList, isSpelling c = true ∨ c = '_'

namespace Naming

theorem goesWithCase_spelledName : GoesWithCase fun c => isSpelling c = true ∨ c = '_' where
  letter c h := Or.inl (goesWithCase_spelling.letter c h)
  lower h := by
    refine forall_mem_lower (by decide) ?_ h
    rintro c (hc | rfl) d hd
    · exact Or.inl (isSpelling_lowerChar hc d hd)
    · exact Or.inr ((by decide : ∀ d ∈ lowerChar '_', d = '_') d hd)
  upper h := by
    rintro d hd
    rcases h with hc | rfl
    · exact Or.inl (isSpelling_upperChar hc d hd)
    · exact Or.inr ((by decide : ∀ d ∈ upperChar '_', d = '_') d hd)
  newline := by decide

end Naming

theorem SpelledName.of_isName {name : String} (h : IsName name) : SpelledName name :=
  fun c hc => isSpelling_of_isWord (h.word c hc)

theorem SpelledName.snake {name : String} (h : SpelledName name) : SpelledName (snake name) :=
  spelled_snake h

theorem SpelledName.tableName {name : String} (h : SpelledName name) :
    SpelledName (tableName name) :=
  SpelledName.snake (goesWithCase_spelledName.toNumber h .plural)

theorem SpelledName.modelName {name : String} (h : SpelledName name) :
    SpelledName (modelName name) :=
  SpelledName.snake (goesWithCase_spelledName.toNumber h .singular)

theorem spelledName_pivotName {first second : String} {custom : Option String}
    (hfirst : SpelledName first) (hsecond : SpelledName second)
    (hcustom : ∀ label, custom = some label → SpelledName label) :
    SpelledName (pivotName first second custom) := by
  unfold pivotName
  split
  · rename_i label hlabel
    exact (hcustom label (Option.filter_eq_some_iff.mp hlabel).1).snake
  · intro c hc
    have hparts : ∀ name ∈ sorted [modelName first, modelName second], SpelledName name := by
      intro name hname
      have hpair : name = modelName first ∨ name = modelName second := by
        rcases sorted_pair (modelName first) (modelName second) with heq | heq
        · rw [heq] at hname
          exact List.mem_pair.mp hname
        · rw [heq] at hname
          exact (List.mem_pair.mp hname).symm
      rcases hpair with rfl | rfl
      · exact hfirst.modelName
      · exact hsecond.modelName
    rw [String.toList_intercalate] at hc
    rcases mem_of_mem_intercalate hc with hc | ⟨_, hp, hc⟩
    · exact Or.inr hc
    · obtain ⟨name, hname, rfl⟩ := List.mem_map.mp hp
      exact hparts name hname c hc

namespace Inference

open Crowsfoot.Diagram

/-- **The tables of a diagram are stored under spelled names**, whatever is drawn. -/
theorem spelled_storageName {text : String} {s : Schema} (h : schemaOfDiagram text = .ok s)
    {t : Table} (ht : t ∈ s.tables) : SpelledName t.storageName := by
  obtain ⟨d, hd, rfl⟩ := schemaOfDiagram_eq_ok.mp h
  have hparsed := parsedDocument hd
  have hname : SpelledName t.name := by
    rcases List.mem_append.mp (Table.mem_order.mp ht) with ht | ht
    · have hmem : t.name ∈ d.tables.map Table.name := by
        rw [← map_name_augment]
        exact List.mem_map_of_mem ht
      obtain ⟨drawn, hdrawn, heq⟩ := List.mem_map.mp hmem
      rw [← heq]
      exact .of_isName (hparsed.tables drawn hdrawn).name
    · obtain ⟨first, second, custom, hr, rfl⟩ := eq_synthesizePivot_of_mem_pivots ht
      have hrelationship := hparsed.relationships _ hr
      refine spelledName_pivotName (.of_isName ?_) (.of_isName ?_) ?_
      · exact hrelationship.ends first (by simp [Relationship.ends])
      · exact hrelationship.ends second (by simp [Relationship.ends])
      · rintro label rfl
        exact .of_isName (hrelationship.label first second label rfl)
  unfold Table.storageName
  split
  · exact hname
  · exact hname.tableName

end Inference

end Crowsfoot
