import Crowsfoot.Inference.FromMigrations
import Crowsfoot.Proofs.Naming.Endings
import Crowsfoot.Proofs.Naming.Studly

/-!
# Tables named after their entities again

A migration creates a table under some name, and the schema keeps the name of the entity stored in
it. `storageName_entityName`: a conventional name (`IsTableName`) comes back. It is words in snake
case and a plural, and

* `snake_studly`: the words of a name in snake case, put together with capitals, are the words of
  the name again;
* `pluralize_entityName`: only the last word is inflected, and its plural is the plural of its
  singular (`inflect_plural_singular`).

Plurals of misread words do not come back: the entity of `oxes` is stored in `oxen`.
-/

namespace Crowsfoot.Naming

open Crowsfoot.Text Crowsfoot.Inference Crowsfoot.Migration

/-! ## The last word of a table -/

section LastWord

variable {word : List Char}

theorem IsSmallWord.eq_singleton (h : IsSmallWord word) (hlength : ¬2 ≤ word.length) :
    ∃ c, word = [c] ∧ c.isLower = true ∧ isAscii c = true := by
  obtain ⟨c, rest, rfl⟩ := List.exists_cons_of_ne_nil h.nonempty
  have hc := h.small c List.mem_cons_self
  rw [List.length_cons] at hlength
  obtain rfl : rest = [] := List.length_eq_zero_iff.mp (by omega)
  exact ⟨c, rfl, hc, isAscii_of_isAlpha (isAlpha_of_isLower hc)⟩

/-- The plural of a singular word has two letters or more. -/
theorem length_plural (h : IsSmallWord word) (hsingular : inflect .singular word = word) :
    2 ≤ (inflect .plural word).length := by
  by_cases hlength : 2 ≤ word.length
  · exact (inflect_plural_small h hlength).2
  · obtain ⟨c, rfl, hc, hascii⟩ := h.eq_singleton hlength
    have hall : c.isLower = true → inflect .singular [c] = [c] →
        2 ≤ (inflect .plural [c]).length :=
      forall_isAscii (P := fun c => c.isLower = true → inflect .singular [c] = [c] →
        2 ≤ (inflect .plural [c]).length)
        (by decide +kernel) hascii
    exact hall hc hsingular

/-- The last word of a name in which capitals begin the words. -/
theorem IsSmallWord.isLastWord_capitalized {lead : List Char}
    (hlead : EndsOutside Char.isUpper lead) (h : IsSmallWord word) :
    IsLastWord lead (Text.capitalized word) := by
  by_cases hlength : 2 ≤ word.length
  · exact (h.capitalized hlength).1.isLastWord lead
  · obtain ⟨c, rfl, hc, -⟩ := h.eq_singleton hlength
    rw [capitalized_cons (isAlphanum_of_isSmall (isSmall_of_isLower hc))]
    exact .capitals (List.cons_ne_nil _ _) (by simpa using (lowerFacts hc).2.2.2.1) hlead

/-- The capitalized form of a small word passes its capital on. -/
theorem IsSmallWord.matchCase_capitalized (h : IsSmallWord word) (form : List Char) :
    matchCase (Text.capitalized word) form = Text.capitalized form := by
  by_cases hlength : 2 ≤ word.length
  · exact Naming.matchCase_capitalized (h.capitalized hlength).1 form
  · -- a capital alone does not count as all capitals
    obtain ⟨c, rfl, hc, -⟩ := h.eq_singleton hlength
    rw [capitalized_cons (isAlphanum_of_isSmall (isSmall_of_isLower hc)),
      matchCase_of_isUpper (by simpa using (lowerFacts hc).2.2.2.1) (List.cons_ne_nil _ _)]
    rfl

/-- Inflecting a name in which capitals begin the words. -/
theorem toNumber_capitalized (number : Number) {lead : List Char}
    (hlead : EndsOutside Char.isUpper lead) (h : IsSmallWord word) {name : String}
    (hname : name.toList = lead ++ capitalized word) :
    (toNumber number name).toList = lead ++ capitalized (inflect number word) := by
  have hlast := h.isLastWord_capitalized hlead
  rw [toNumber_of_isLastWord number hlast (by rw [hname, dropFinalNewline_of_isLastWord hlast]),
    h.matchCase_capitalized, lower_capitalized h.isSmall, String.toList_ofList]

end LastWord

/-! ## Names of tables -/

/-- A conventional name of a table: words in snake case, and the plural of a singular word that is
not misread. -/
def IsTableName (table : String) : Prop :=
  ∃ (lead : List String) (word : String), (∀ w ∈ lead, IsSnakeWord w.toList)
    ∧ IsSmallWord word.toList ∧ isSingular word = true ∧ ¬IsMisread word.toList
    ∧ table = "_".intercalate (lead ++ [pluralize word])

section Tables

variable {table : String}

/-- Inflecting a small word is inflecting its letters. -/
theorem toNumber_small (number : Number) {word : String} (h : IsSmallWord word.toList) :
    (toNumber number word).toList = inflect number word.toList := by
  have hword : toNumber number word = String.ofList ([] ++ inflect number word.toList) :=
    toNumber_eq (h.isLastWord endsOutside_nil).split h.nonempty
  rw [hword, String.toList_ofList, List.nil_append]

/-- A conventional name is words in snake case, of which the last is a plural. -/
theorem IsTableName.exists_words (h : IsTableName table) :
    ∃ (lead : List (List Char)) (word : List Char), (∀ w ∈ lead, IsSnakeWord w)
      ∧ IsSmallWord word ∧ inflect .singular word = word ∧ ¬IsMisread word
      ∧ table.toList = ['_'].intercalate (lead ++ [inflect .plural word]) := by
  obtain ⟨lead, word, hlead, hword, hsingular, hplain, rfl⟩ := h
  refine ⟨lead.map String.toList, word.toList, ?_, hword, ?_, hplain, ?_⟩
  · intro w hw
    obtain ⟨u, hu, rfl⟩ := List.mem_map.mp hw
    exact hlead u hu
  · have hsame : singularize word = word := beq_iff_eq.mp hsingular
    rw [← toNumber_small .singular hword]
    exact congrArg String.toList hsame
  · rw [String.toList_intercalate, List.map_append, List.map_singleton]
    unfold pluralize
    rw [toNumber_small .plural hword]
    rfl

/-- **The plural of the entity is the table in capitals.** -/
theorem pluralize_entityName {lead : List (List Char)} {word : List Char}
    (hlead : ∀ w ∈ lead, IsSnakeWord w) (hword : IsSmallWord word)
    (hsingular : inflect .singular word = word) (hplain : ¬IsMisread word)
    (hstudly : (studly table).toList = (lead ++ [inflect .plural word]).flatMap capitalized) :
    pluralize (entityName table) = studly table := by
  have hlength := length_plural hword hsingular
  have hback := inflect_plural_singular hword hsingular hplain
  have hplural : IsSmallWord (inflect .plural word) :=
    ⟨List.ne_nil_of_length_pos (by omega), small_inflect .plural hword⟩
  have hsome : inflect .singular (inflect .plural word) ≠ [] := by
    intro hnil
    rw [hnil] at hback
    rw [← hback] at hlength
    exact absurd hlength (by decide +kernel)
  have hagain : IsSmallWord (inflect .singular (inflect .plural word)) :=
    ⟨hsome, small_inflect .singular hplural⟩
  have hends : EndsOutside Char.isUpper (lead.flatMap capitalized) := by
    rcases List.eq_nil_or_concat' lead with rfl | ⟨before, last, rfl⟩
    · exact endsOutside_nil
    · have hlast : IsSnakeWord last := hlead last (by simp)
      obtain ⟨c, hc, hsmall⟩ := hlast.exists_last
      intro d hd
      rw [List.flatMap_append, List.flatMap_singleton, List.getLast?_append, hc,
        Option.some_or] at hd
      rw [← Option.mem_some_iff.mp hd]
      exact isUpper_eq_false_of_isSmall hsmall
  rw [List.flatMap_append, List.flatMap_singleton] at hstudly
  apply String.toList_inj.mp
  rw [hstudly, ← hback]
  exact toNumber_capitalized .plural hends hagain
    (toNumber_capitalized .singular hends hplural hstudly)

/-- **The table of the entity stored in a table is that table.** -/
theorem tableName_entityName (h : IsTableName table) : tableName (entityName table) = table := by
  obtain ⟨lead, word, hlead, hword, hsingular, hplain, htable⟩ := h.exists_words
  have hplural : IsSmallWord (inflect .plural word) :=
    ⟨List.ne_nil_of_length_pos (by have := length_plural hword hsingular; omega),
      small_inflect .plural hword⟩
  have hwords : ∀ w ∈ lead ++ [inflect .plural word], IsSnakeWord w := by
    refine List.forall_mem_append.mpr ⟨hlead, List.forall_mem_singleton.mpr ?_⟩
    exact hplural.isSnakeWord (length_plural hword hsingular)
  unfold tableName
  rw [pluralize_entityName hlead hword hsingular hplain
    (toList_studly (fun w hw => (hwords w hw).isSmallRun) htable), snake_studly hwords htable]

/-- **Conventional names of tables survive the naming of entities**: the entity stored in such a
table has it for its table, also where a schema is made of migrations, and no other such table has
the same entity. -/
theorem storageName_entityName (h : IsTableName table) :
    tableName (entityName table) = table
      ∧ (∀ columns, ({ name := entityName table, columns := columns } : Table).storageName = table)
      ∧ (∀ (o : Options) (created : CreatedTable), created.name = table →
        (tableOf o created).storageName = table)
      ∧ ∀ other, IsTableName other → entityName other = entityName table → other = table := by
  have hback := tableName_entityName h
  have hstored : ∀ columns,
      ({ name := entityName table, columns := columns } : Table).storageName = table := by
    intro columns
    rw [Table.storageName, if_neg Bool.false_ne_true, hback]
  refine ⟨hback, hstored, ?_, ?_⟩
  · intro o created hname
    unfold tableOf CreatedTable.entityName
    rw [hname]
    by_cases hpivot : isPivot o created = true
    · rw [if_pos hpivot, Table.storageName, if_pos rfl]
    · rw [if_neg hpivot]
      exact hstored created.columns
  · intro other hother hsame
    rw [← tableName_entityName hother, hsame, hback]

theorem storageName_entityName_categories :
    IsTableName "order_b2_categories"
      ∧ tableName (entityName "order_b2_categories") = "order_b2_categories" := by
  have hname : IsTableName "order_b2_categories" := by
    refine ⟨["order", "b2"], "category", ?_, ⟨?_, ?_⟩, ?_, ?_, ?_⟩ <;> decide +kernel
  exact ⟨hname, (storageName_entityName hname).1⟩

/-- The plural of a misread word is the name of no table that comes back. -/
example : tableName (entityName "oxes") = "oxen" ∧ tableName (entityName "status") = "statuses" := by
  decide +kernel

end Tables

end Crowsfoot.Naming
