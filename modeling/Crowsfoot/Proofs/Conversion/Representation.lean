import Crowsfoot.Proofs.Conversion.Columns

/-!
# The tables of migrations in their diagram

`lines_of_diagramOfMigrations`: a domain table has its entity, and a pivot that is `Shown` has the
line of a many-to-many relationship. Such a line stands for all pivots between the same two
entities, and bears the name of the first of them (`mem_drawnRelationships_of_first`).

So a pivot leaves no trace of its name in a diagram (`Unrepresented`) if there is an earlier one
between the same entities, if it takes no part in relationships, or if one of its foreign keys leads
nowhere (`unrepresented_pivots`).
-/

namespace Crowsfoot.Inference

open Crowsfoot.Diagram Crowsfoot.Migration Crowsfoot.Naming Crowsfoot.Relationship Crowsfoot.Text

variable {o : Options} {created : List CreatedTable} {known : List String} {t u : CreatedTable}

/-! ## Pivots with a relationship -/

/-- The entities that a pivot joins: those that its key columns lead to. -/
def joinedEntities (o : Options) (t : CreatedTable) : List String :=
  ((references (tableOf o t)).filter fun r => isKeyName r.1).map fun r => entityName r.2

/-- A pivot that takes part in relationships and whose foreign keys all lead to known tables. -/
structure Shown (o : Options) (known : List String) (t : CreatedTable) : Prop where
  pivot : isPivot o t = true
  kept : isSkipped o t = false
  resolved : ∀ r ∈ references (tableOf o t), r.2 ∈ known

instance (o : Options) (known : List String) (t : CreatedTable) : Decidable (Shown o known t) :=
  decidable_of_iff (isPivot o t = true ∧ isSkipped o t = false
      ∧ ∀ r ∈ references (tableOf o t), r.2 ∈ known)
    ⟨fun h => ⟨h.1, h.2.1, h.2.2⟩, fun h => ⟨h.pivot, h.kept, h.resolved⟩⟩

/-- Whether a pivot is shown and joins the same entities as another, in one order or the other. -/
def sharesLine (o : Options) (known : List String) (t u : CreatedTable) : Bool :=
  decide (Shown o known u ∧ (joinedEntities o u).Perm (joinedEntities o t))

theorem sharesLine_iff :
    sharesLine o known t u = true
      ↔ Shown o known u ∧ (joinedEntities o u).Perm (joinedEntities o t) :=
  decide_eq_true_iff

theorem map_fst_references (t : Table) :
    ((references t).filter fun r => isKeyName r.1).map Prod.fst = keyNames t := by
  unfold references
  rw [keyNames_eq, List.filter_filterMap, List.map_filterMap]
  apply List.filterMap_congr
  intro c _
  unfold Column.hasKeyName
  cases c.foreignKey with
  | none => rfl
  | some key =>
    rw [Option.map_some, Option.bind_some, Option.filter_some]
    split <;> rfl

/-- A pivot joins two entities. -/
theorem exists_joinedEntities (hpivot : isPivot o t = true) :
    ∃ first second, joinedEntities o t = [first, second] := by
  have hlength : (joinedEntities o t).length = 2 := by
    unfold joinedEntities
    rw [List.length_map, ← List.length_map Prod.fst, map_fst_references,
      length_keyNames_tableOf hpivot]
  exact List.length_eq_two.mp hlength

/-- **A pivot states one relationship**, if it is shown. -/
theorem relationshipsOf_pivot {first second : String} (hpivot : isPivot o t = true)
    (hjoined : joinedEntities o t = [first, second]) :
    relationshipsOf o known t
      = if Shown o known t then [.manyToMany first second (some t.name)] else [] := by
  unfold joinedEntities at hjoined
  unfold relationshipsOf pivotRelationship
  dsimp only
  rw [hpivot, if_pos rfl, hjoined]
  by_cases hshown : Shown o known t
  · have hall : (references (tableOf o t)).all (fun r => known.contains r.2) = true :=
      List.all_eq_true.mpr fun r hr => List.contains_iff_mem.mpr (hshown.resolved r hr)
    rw [if_pos hshown, if_neg (by simp [hshown.kept]), if_pos hall]
  · rw [if_neg hshown]
    split
    · rfl
    · rename_i hkept
      rw [if_neg]
      intro hall
      refine hshown ⟨hpivot, by simpa using hkept, fun r hr => ?_⟩
      exact List.contains_iff_mem.mp (List.all_eq_true.mp hall r hr)

/-- Many-to-many relationships come from pivots that are shown. -/
theorem shown_of_mem_relationshipsOf {first second : String} {pivot : Option String}
    (h : .manyToMany first second pivot ∈ relationshipsOf o known t) :
    Shown o known t ∧ joinedEntities o t = [first, second] := by
  obtain ⟨hpivot, -⟩ := eq_of_mem_relationshipsOf h
  obtain ⟨a, b, hjoined⟩ := exists_joinedEntities hpivot
  rw [relationshipsOf_pivot hpivot hjoined] at h
  split at h
  · rename_i hshown
    obtain ⟨rfl, rfl, -⟩ := manyToMany.inj (List.mem_singleton.mp h)
    exact ⟨hshown, hjoined⟩
  · exact absurd h (by simp)

/-! ## Names of entities -/

section Spelled

variable {table : String} (h : IsName table)
include h

theorem isGap_eq_false_of_mem_entityName {c : Char} (hc : c ∈ (entityName table).toList) :
    isGap c = false :=
  isGap_eq_false_of_isSpelling (spelled_entityName h c hc)

theorem hyphen_not_mem_entityName : '-' ∉ (entityName table).toList :=
  fun hmem => absurd (isGap_eq_false_of_mem_entityName h hmem) (by decide)

theorem oneLine_entityName : OneLine (entityName table).toList := by
  intro c hc
  cases hend : isLineEnd c with
  | false => rfl
  | true =>
    have hgap := isGap_eq_false_of_mem_entityName h hc
    unfold isGap at hgap
    rw [isBlank_of_isLineEnd hend] at hgap
    exact absurd hgap (by simp)

end Spelled

section Read

variable (hread : ∀ t ∈ created, WellRead t)
include hread

/-- The entities that a shown pivot joins are those of created tables. -/
theorem Shown.isName (h : Shown o (created.map CreatedTable.name) t) {name : String}
    (hname : name ∈ joinedEntities o t) : ∃ table, IsName table ∧ entityName table = name := by
  obtain ⟨r, hr, rfl⟩ := List.mem_map.mp hname
  obtain ⟨v, hv, heq⟩ := List.mem_map.mp (h.resolved r (List.mem_filter.mp hr).1)
  exact ⟨r.2, heq ▸ (hread v hv).name, rfl⟩

theorem Shown.unhyphenated (h : Shown o (created.map CreatedTable.name) t) {first second : String}
    (hjoined : joinedEntities o t = [first, second]) (pivot : Option String) :
    (manyToMany first second pivot).Unhyphenated := by
  intro name hname
  have hname : name ∈ joinedEntities o t := hjoined ▸ hname
  obtain ⟨table, htable, rfl⟩ := h.isName hread hname
  exact hyphen_not_mem_entityName htable

/-- **The first of the pivots between two entities is drawn.** -/
theorem mem_drawnRelationships_of_first {p : CreatedTable} {first second : String}
    (hfound : created.find? (sharesLine o (created.map CreatedTable.name) t) = some p)
    (hjoined : joinedEntities o p = [first, second]) :
    .manyToMany first second (some p.name)
      ∈ drawnRelationships (inferFromMigrations o created).relationships := by
  obtain ⟨hshares, before, later, heq, hbefore⟩ := List.find?_eq_some_iff_append.mp hfound
  obtain ⟨hshown, hperm⟩ := sharesLine_iff.mp hshares
  have hrelationships : (inferFromMigrations o created).relationships
      = before.flatMap (relationshipsOf o (created.map CreatedTable.name))
        ++ .manyToMany first second (some p.name)
          :: later.flatMap (relationshipsOf o (created.map CreatedTable.name)) := by
    unfold inferFromMigrations
    dsimp only
    conv_lhs => rw [heq, List.flatMap_append, List.flatMap_cons, ← heq]
    rw [relationshipsOf_pivot hshown.pivot hjoined, if_pos hshown, List.singleton_append]
  rw [mem_drawnRelationships, hrelationships]
  apply mem_firstOfEachKey_of_first
  -- a pivot before it that states the same would be found first
  intro s hs hkind hkey
  obtain ⟨v, hv, hs⟩ := List.mem_flatMap.mp hs
  cases s with
  | oneToOne | oneToMany => exact absurd hkind (by simp [kind])
  | manyToMany a b pivot =>
    obtain ⟨hshown', hjoined'⟩ := shown_of_mem_relationshipsOf hs
    have hends := perm_ends_of_key (hshown.unhyphenated hread hjoined (some p.name))
      (hshown'.unhyphenated hread hjoined' pivot) hkind hkey
    have hends : (joinedEntities o v).Perm (joinedEntities o p) := by
      rw [hjoined, hjoined']
      exact hends
    have hshares' : sharesLine o (created.map CreatedTable.name) t v = true :=
      sharesLine_iff.mpr ⟨hshown', hends.trans hperm⟩
    have hnot := hbefore v hv
    rw [hshares'] at hnot
    exact absurd hnot (by simp)

end Read

/-! ## Lines -/

/-- A text has this line. -/
def HasLine (text line : String) : Prop :=
  line.toList ∈ splitLines text.toList

instance (text line : String) : Decidable (HasLine text line) :=
  inferInstanceAs (Decidable (line.toList ∈ splitLines text.toList))

/-- A line that is written is in the text, whatever the others are. -/
theorem hasLine_write {s : Schema} {generatedAt : Timestamp} {line : String}
    (h : line ∈ lines s generatedAt) (hline : OneLine line.toList) (hne : line.toList ≠ []) :
    HasLine (write s generatedAt) line := by
  unfold HasLine write
  rw [String.toList_intercalate]
  exact mem_splitLines_intercalate (List.mem_map_of_mem h) hline hne

/-- The line of an entity, without its columns. -/
theorem hasLine_entity {s : Schema} {u : Table} (hu : u ∈ s.domainTables)
    (hname : OneLine u.name.toList) (generatedAt : Timestamp) :
    HasLine (write s generatedAt) ("entity " ++ u.name ++ " \x7b") := by
  apply hasLine_write
  · unfold lines entityLines
    simp only [List.mem_append, List.mem_flatMap]
    exact Or.inl (Or.inl (Or.inr ⟨u, hu, Or.inl (Or.inl (Or.inl (List.mem_singleton_self _)))⟩))
  · rw [String.toList_append, String.toList_append]
    exact ((by decide : OneLine "entity ".toList).append hname).append (by decide)
  · simp

/-- The line of a pivot. -/
def pivotLine (first second name : String) : String :=
  first ++ " \x7do--o\x7b " ++ second ++ " : " ++ name

theorem relationshipLine_manyToMany {name : String} (hname : IsName name) (first second : String) :
    relationshipLine (.manyToMany first second (some name)) = pivotLine first second name := by
  have hlabel : (some name).filter (fun label => !label.isEmpty) = some name := by
    rw [Option.filter_some, hname.isEmpty_eq_false]
    rfl
  unfold relationshipLine
  dsimp only
  rw [hlabel]
  apply String.toList_inj.mp
  simp [pivotLine, manyToManySign]

theorem oneLine_pivotLine {first second name : String} (hfirst : OneLine first.toList)
    (hsecond : OneLine second.toList) (hname : IsName name) :
    OneLine (pivotLine first second name).toList := by
  have hsign : OneLine " \x7do--o\x7b ".toList := by decide
  have hcolon : OneLine " : ".toList := by decide
  unfold pivotLine
  simp only [String.toList_append]
  exact (((hfirst.append hsign).append hsecond).append hcolon).append hname.oneLine

/-- The line of a many-to-many relationship that is drawn. -/
theorem hasLine_pivotLine {s : Schema} {first second name : String}
    (hdrawn : .manyToMany first second (some name) ∈ drawnRelationships s.relationships)
    (hfirst : OneLine first.toList) (hsecond : OneLine second.toList) (hname : IsName name)
    (generatedAt : Timestamp) : HasLine (write s generatedAt) (pivotLine first second name) := by
  apply hasLine_write
  · have hne : s.relationships ≠ [] := List.ne_nil_of_mem (mem_of_mem_drawnRelationships hdrawn)
    have hline := List.mem_map_of_mem (f := relationshipLine) hdrawn
    rw [relationshipLine_manyToMany hname] at hline
    unfold lines relationshipLines
    rw [if_neg (by simpa using hne)]
    simp only [List.mem_append]
    exact Or.inl (Or.inr (List.mem_cons_of_mem _ hline))
  · exact oneLine_pivotLine hfirst hsecond hname
  · simp [pivotLine]

/-! ## Diagrams of migrations -/

/-- **The tables of migrations are in their diagram.** A domain table has the line of its entity. A
pivot that is shown has a line between the two entities that it joins, with the name of the first
pivot that is shown and joins them. -/
theorem lines_of_diagramOfMigrations {contents : List String}
    (h : readMigrations contents [] = .ok created) (generatedAt : Timestamp) :
    ∃ text, diagramOfMigrations o generatedAt contents = .ok text
      ∧ (∀ t ∈ created, isPivot o t = false → HasLine text ("entity " ++ t.entityName ++ " \x7b"))
      ∧ ∀ t ∈ created, Shown o (created.map CreatedTable.name) t →
        ∃ p first second, created.find? (sharesLine o (created.map CreatedTable.name) t) = some p
          ∧ joinedEntities o p = [first, second]
          ∧ [first, second].Perm (joinedEntities o t)
          ∧ HasLine text (pivotLine first second p.name) := by
  have hread := wellRead_readMigrations h
  refine ⟨write (inferFromMigrations o created) generatedAt, ?_, ?_, ?_⟩
  · unfold diagramOfMigrations schemaOfMigrations
    rw [h]
    rfl
  · intro t ht hdomain
    have htable : domainTable t ∈ (inferFromMigrations o created).domainTables := by
      rw [domainTables_inferFromMigrations]
      exact List.mem_map_of_mem (List.mem_filter.mpr ⟨ht, by simp [hdomain]⟩)
    have hname : OneLine (domainTable t).name.toList := by
      rw [name_domainTable]
      exact oneLine_entityName (hread t ht).name
    have hline := hasLine_entity htable hname generatedAt
    rwa [name_domainTable] at hline
  · intro t ht hshown
    obtain ⟨p, hfound⟩ : ∃ p,
        created.find? (sharesLine o (created.map CreatedTable.name) t) = some p := by
      rw [← Option.isSome_iff_exists, List.find?_isSome]
      exact ⟨t, ht, sharesLine_iff.mpr ⟨hshown, .refl _⟩⟩
    obtain ⟨hshown', hperm⟩ := sharesLine_iff.mp (List.find?_some hfound)
    obtain ⟨first, second, hjoined⟩ := exists_joinedEntities hshown'.pivot
    have hline : ∀ name ∈ [first, second], OneLine name.toList := by
      intro name hname
      obtain ⟨table, htable, rfl⟩ := hshown'.isName hread (hjoined ▸ hname)
      exact oneLine_entityName htable
    refine ⟨p, first, second, hfound, hjoined, hjoined ▸ hperm, ?_⟩
    exact hasLine_pivotLine (mem_drawnRelationships_of_first hread hfound hjoined)
      (hline first (by simp)) (hline second (by simp))
      (hread p (List.mem_of_find?_eq_some hfound)).name generatedAt

/-- A migration that creates posts. -/
def postsMigration : String :=
  "Schema::create('posts', function ($table) \x7b$table->id();\x7d);"

/-- A migration that creates a pivot of posts and tags. -/
def postTagMigration : String :=
  "Schema::create('post_tag', function ($table) \x7b
      $table->unsignedBigInteger('post_id');
      $table->unsignedBigInteger('tag_id');\x7d);"

/-- Migrations that create posts, tags and two pivots between them. -/
def taggedMigrations : List String :=
  [postsMigration, "Schema::create('tags', function ($table) \x7b$table->id();\x7d);",
    postTagMigration,
    "Schema::create('tag_post', function ($table) \x7b
      $table->unsignedBigInteger('tag_id');
      $table->unsignedBigInteger('post_id');\x7d);"]

/-- A pivot as it is created, with two key columns and no foreign keys. -/
def createdPivot (name first second : String) : CreatedTable :=
  { name, columns := [unsignedColumn first none, unsignedColumn second none] }

/-- The tables that the migrations create. -/
def createdTagged : List CreatedTable :=
  [{ name := "posts", columns := [idColumn] }, { name := "tags", columns := [idColumn] },
    createdPivot "post_tag" "post_id" "tag_id", createdPivot "tag_post" "tag_id" "post_id"]

set_option maxRecDepth 8000 in
theorem readMigration_postsMigration :
    readMigration postsMigration none = .ok [{ name := "posts", columns := [idColumn] }] := by
  unfold postsMigration
  rw [readMigration_ofList]
  decide +kernel

set_option maxRecDepth 8000 in
theorem readMigration_postTagMigration :
    readMigration postTagMigration none = .ok [createdPivot "post_tag" "post_id" "tag_id"] := by
  unfold postTagMigration
  rw [readMigration_ofList]
  decide +kernel

set_option maxRecDepth 8000 in
theorem readMigrations_tagged : readMigrations taggedMigrations [] = .ok createdTagged := by
  apply readMigrations_of_forall₂
  refine .cons readMigration_postsMigration
    (.cons ?_ (.cons readMigration_postTagMigration (.cons ?_ .nil))) <;>
    · rw [readMigration_ofList]
      decide +kernel

theorem lines_of_diagramOfMigrations_tagged :
    readMigrations taggedMigrations [] = .ok createdTagged
      ∧ Shown {} (createdTagged.map CreatedTable.name) (createdPivot "tag_post" "tag_id" "post_id")
      ∧ ∃ text, diagramOfMigrations {} ⟨2024, 3, 5, 14, 7, 9⟩ taggedMigrations = .ok text
        ∧ HasLine text "entity Post \x7b" ∧ HasLine text "Post \x7do--o\x7b Tag : post_tag" := by
  have hshown : Shown {} (createdTagged.map CreatedTable.name)
      (createdPivot "tag_post" "tag_id" "post_id") := by decide
  obtain ⟨text, htext, hentities, hpivots⟩ :=
    lines_of_diagramOfMigrations (o := {}) readMigrations_tagged ⟨2024, 3, 5, 14, 7, 9⟩
  refine ⟨readMigrations_tagged, hshown, text, htext, ?_, ?_⟩
  · have hentity := hentities { name := "posts", columns := [idColumn] } (by decide) (by decide)
    have hname : ({ name := "posts", columns := [idColumn] } : CreatedTable).entityName
        = "Post" := by
      decide
    rwa [hname] at hentity
  · obtain ⟨p, first, second, hfound, hjoined, -, hline⟩ := hpivots _ (by decide) hshown
    have hfirst : createdTagged.find? (sharesLine {} (createdTagged.map CreatedTable.name)
          (createdPivot "tag_post" "tag_id" "post_id"))
        = some (createdPivot "post_tag" "post_id" "tag_id") := by decide
    obtain rfl := Option.some.inj (hfound.symm.trans hfirst)
    have hends : joinedEntities {} (createdPivot "post_tag" "post_id" "tag_id")
        = ["Post", "Tag"] := by decide
    obtain ⟨rfl, hsecond⟩ := List.cons.inj (hjoined.symm.trans hends)
    obtain rfl := (List.cons.inj hsecond).1
    exact hline

/-! ### Pivots that are not in the diagram -/

/-- The migrations create a pivot of this name, and no line of their diagram bears it. -/
def Unrepresented (contents : List String) (name : String) : Prop :=
  ∃ created text, readMigrations contents [] = .ok created
    ∧ diagramOfMigrations {} ⟨2024, 3, 5, 14, 7, 9⟩ contents = .ok text
    ∧ (∃ t ∈ created, t.name = name ∧ isPivot {} t = true)
    ∧ ∀ first second, ¬HasLine text (pivotLine first second name)

/-- It is enough to look at the ends of lines. -/
theorem unrepresented_of_read {contents : List String} {name text : String}
    (hread : readMigrations contents [] = .ok created)
    (hpivot : ∃ t ∈ created, t.name = name ∧ isPivot {} t = true)
    (htext : write (inferFromMigrations {} created) ⟨2024, 3, 5, 14, 7, 9⟩ = text)
    (hends : ∀ line ∈ splitLines text.toList, endsWith (" : " ++ name).toList line = false) :
    Unrepresented contents name := by
  refine ⟨created, text, hread, ?_, hpivot, ?_⟩
  · unfold diagramOfMigrations schemaOfMigrations
    rw [hread, ← htext]
    rfl
  · intro first second hline
    have hparts : (pivotLine first second name).toList
        = (first ++ " \x7do--o\x7b " ++ second).toList ++ (" : " ++ name).toList := by
      unfold pivotLine
      rw [← String.toList_append, ← String.append_assoc]
    have hend : endsWith (" : " ++ name).toList (pivotLine first second name).toList = true := by
      unfold endsWith
      rw [hparts, List.isSuffixOf_iff_suffix]
      exact List.suffix_append _ _
    rw [hends _ hline] at hend
    exact absurd hend (by simp)

/-- The diagram of posts and tags shows the first of their pivots. -/
theorem write_tagged :
    write (inferFromMigrations {} createdTagged) ⟨2024, 3, 5, 14, 7, 9⟩
      = "\n".intercalate
        ["@startuml", "' Generated on 2024-03-05 14:07:09", "", "entity Post \x7b",
          "* id : bigint", "\x7d", "", "entity Tag \x7b", "* id : bigint", "\x7d", "",
          "' Relationships", "Post \x7do--o\x7b Tag : post_tag", "", "@enduml"] := by
  have hrelationships : (inferFromMigrations {} createdTagged).relationships
      = [.manyToMany "Post" "Tag" (some "post_tag"),
         .manyToMany "Tag" "Post" (some "tag_post")] := by
    decide
  have hfirst : firstOfEachKey
      [.manyToMany "Post" "Tag" (some "post_tag"), .manyToMany "Tag" "Post" (some "tag_post")]
        = [.manyToMany "Post" "Tag" (some "post_tag")] := by
    have hsame : isLike (.manyToMany "Tag" "Post" (some "tag_post"))
        (.manyToMany "Post" "Tag" (some "post_tag")) = true :=
      isLike_iff.mpr ⟨rfl, key_manyToMany (.swap _ _ _) _ _⟩
    have hconcat := firstOfEachKey_concat [.manyToMany "Post" "Tag" (some "post_tag")]
      (.manyToMany "Tag" "Post" (some "tag_post"))
    have hone : firstOfEachKey [.manyToMany "Post" "Tag" (some "post_tag")]
        = [.manyToMany "Post" "Tag" (some "post_tag")] := firstOfEachKey_concat [] _
    rw [hone, List.any_cons, hsame, Bool.true_or, if_pos rfl] at hconcat
    exact hconcat
  unfold write lines relationshipLines drawnRelationships ofKind
  simp only [hrelationships, hfirst]
  decide +kernel

/-- Migrations that create jobs and batches of the application; their pivot is called like a table
of the framework. -/
def batchMigrations : List String :=
  ["Schema::create('jobs', function ($table) \x7b$table->id();\x7d);",
    "Schema::create('batches', function ($table) \x7b$table->id();\x7d);",
    "Schema::create('job_batches', function ($table) \x7b
      $table->unsignedBigInteger('job_id');
      $table->unsignedBigInteger('batch_id');\x7d);"]

/-- Migrations that create a pivot, but no tags. -/
def untaggedMigrations : List String :=
  [postsMigration, postTagMigration]

set_option maxRecDepth 8000 in
/-- A pivot is not in the diagram if another joins the same entities before it, if its table takes
no part in relationships, or if one of its foreign keys leads nowhere. -/
theorem unrepresented_pivots :
    Unrepresented taggedMigrations "tag_post" ∧ Unrepresented batchMigrations "job_batches"
      ∧ Unrepresented untaggedMigrations "post_tag" := by
  have hbatches : readMigrations batchMigrations []
      = .ok [{ name := "jobs", columns := [idColumn] },
        { name := "batches", columns := [idColumn] },
        createdPivot "job_batches" "job_id" "batch_id"] := by
    apply readMigrations_of_forall₂
    refine .cons ?_ (.cons ?_ (.cons ?_ .nil)) <;>
      · rw [readMigration_ofList]
        decide +kernel
  have huntagged : readMigrations untaggedMigrations []
      = .ok [{ name := "posts", columns := [idColumn] },
        createdPivot "post_tag" "post_id" "tag_id"] :=
    readMigrations_of_forall₂
      (.cons readMigration_postsMigration (.cons readMigration_postTagMigration .nil))
  refine ⟨unrepresented_of_read readMigrations_tagged ?_ write_tagged ?_,
    unrepresented_of_read hbatches ?_ rfl ?_, unrepresented_of_read huntagged ?_ rfl ?_⟩ <;>
    decide +kernel

end Crowsfoot.Inference
