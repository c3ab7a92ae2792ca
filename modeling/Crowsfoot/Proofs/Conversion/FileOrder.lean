import Crowsfoot.Proofs.Inference.Accounts
import Crowsfoot.Proofs.Inference.Written

/-!
# The order of generated migrations

Migrations come in the order of the schema: domain tables as they are drawn, and pivots behind them.
`targets_of_migrationsOfDiagram` says what that means for the foreign key constraints. Each leads to
a table that one of the migrations creates, which is the same or an earlier one, unless

* a line gives a domain table the key to a parent whose table comes only later, or
* a pivot has the key to a name that only pivots are stored under.

So pivots never come before the domain tables that they join. Both exceptions occur
(`refersForward_posts`).
-/

namespace Crowsfoot.Inference

open Crowsfoot.Diagram Crowsfoot.Migration Crowsfoot.Naming

/-! ## The order of tables -/

/-- The domain tables of the schema of a diagram are drawn tables, in the same order. -/
theorem domainTables_sublist (d : Document) :
    ((inferFromDiagram d).domainTables.map Table.name).Sublist (d.tables.map Table.name) := by
  have hpivots : (augment d).pivots.filter (fun t => !t.isPivot) = [] := by
    rw [List.filter_eq_nil_iff]
    intro p hp
    obtain ⟨_, _, _, -, rfl⟩ := eq_synthesizePivot_of_mem_pivots hp
    exact Bool.false_ne_true
  have hdomain : (inferFromDiagram d).domainTables
      = (augment d).tables.filter fun t => !t.isPivot := by
    have hordered : (inferFromDiagram d).tables
        = Table.order ((augment d).tables ++ (augment d).pivots) := rfl
    have hnone : ∀ ts : List Table,
        (ts.filter fun t => t.isPivot).filter (fun t => !t.isPivot) = [] := by
      intro ts
      rw [List.filter_filter, List.filter_eq_nil_iff]
      intro t _
      cases t.isPivot <;> simp
    unfold Schema.domainTables
    rw [hordered, Table.order, List.filter_append, hnone, List.append_nil, List.filter_filter]
    simp only [Bool.and_self]
    rw [List.filter_append, hpivots, List.append_nil]
  rw [hdomain, ← map_name_augment]
  exact List.filter_sublist.map Table.name

/-- Every domain table stands before a pivot. -/
theorem mem_take_of_isPivot {s : Schema} (hs : s.Sound) {k : Nat} {t u : Table}
    (ht : s.tables[k]? = some t) (hpivot : t.isPivot = true) (hu : u ∈ s.tables)
    (hdomain : u.isPivot = false) : u ∈ s.tables.take (k + 1) := by
  obtain ⟨hk, rfl⟩ := List.getElem?_eq_some_iff.mp ht
  rw [← List.take_append_drop (k + 1) s.tables] at hu
  rcases List.mem_append.mp hu with hu | hu
  · exact hu
  · obtain ⟨before, after, hsplit⟩ := List.append_of_mem hu
    have hall : s.tables = (s.tables.take (k + 1) ++ before) ++ u :: after := by
      rw [List.append_assoc, ← hsplit, List.take_append_drop]
    have hbefore : s.tables[k] ∈ s.tables.take (k + 1) ++ before := by
      rw [List.take_succ_eq_append_getElem hk]
      exact List.mem_append_left _ (List.mem_append_right _ (List.mem_singleton_self _))
    rw [hs.isPivot_of_mem_before hall hbefore hpivot] at hdomain
    exact nomatch hdomain

/-! ## Constraints -/

/-- A line gives a table the foreign key on a column. -/
def GivesKey (rs : List Relationship) (t : Table) (c : Column) (key : ForeignKey) : Prop :=
  ∃ l ∈ links rs, answers t l = true ∧ c.name = foreignKeyName l.1
    ∧ key = .toModel (modelName l.1)

theorem Accounted.givesKey {ts : List Table} {rs : List Relationship} (h : Accounted ts rs)
    {t : Table} (ht : t ∈ ts) (hdomain : t.isPivot = false) {c : Column} (hc : c ∈ t.columns)
    {key : ForeignKey} (hkey : c.foreignKey = some key) : GivesKey rs t c key := by
  obtain ⟨models, hkeyed, hlinks⟩ := h.linked t ht hdomain
  obtain ⟨model, hmodel, hname, rfl⟩ := (hkeyed.foreignKey hc).mp hkey
  obtain ⟨l, hl, hanswers, rfl⟩ := hlinks model hmodel
  exact ⟨l, hl, hanswers, hname.symm, rfl⟩

/-- Every foreign key of a domain table of the schema comes from a line. -/
theorem givesKey_inferFromDiagram {d : Document} (h : ParsedDocument d) {t : Table}
    (ht : t ∈ (inferFromDiagram d).tables) (hdomain : t.isPivot = false) {c : Column}
    (hc : c ∈ t.columns) {key : ForeignKey} (hkey : c.foreignKey = some key) :
    GivesKey (inferFromDiagram d).relationships t c key := by
  rcases List.mem_append.mp (Table.mem_order.mp ht) with hdrawn | hmade
  · exact (accounted_augment h).givesKey hdrawn hdomain hc hkey
  · obtain ⟨_, _, _, -, rfl⟩ := eq_synthesizePivot_of_mem_pivots hmade
    exact absurd hdomain.symm Bool.false_ne_true

/-- **Where the constraints of generated migrations lead to.** The migrations of a diagram create
the tables of its schema: domain tables in the order in which they are drawn, and then pivots. The
target of a constraint in the `k`-th migration is created up to there, or it is created later, for
the domain table of a line or for a pivot with a target that only pivots are called like. -/
theorem targets_of_migrationsOfDiagram {o : Options} {startedAt : Timestamp} {text : String}
    {files : List GeneratedFile} (h : migrationsOfDiagram o startedAt text = .ok files) :
    ∃ d s, Document.parse text = .ok d ∧ schemaOfDiagram text = .ok s
      ∧ s.tables = s.domainTables ++ s.pivotTables
      ∧ (s.domainTables.map Table.name).Sublist (d.tables.map Table.name)
      ∧ files.map GeneratedFile.table = s.storageNames
      ∧ files.map GeneratedFile.content = s.tables.map (contentOf o (some s.storageNames))
      ∧ ∀ k t, s.tables[k]? = some t → ∀ c key, (c, key) ∈ knownKeys (some s.storageNames) t →
        key.table ∈ (files.take (k + 1)).map GeneratedFile.table
          ∨ key.table ∈ (files.drop (k + 1)).map GeneratedFile.table
            ∧ (t.isPivot = false ∧ GivesKey s.relationships t c key
              ∨ t.isPivot = true
                ∧ ∀ u ∈ s.tables, u.storageName = key.table → u.isPivot = true) := by
  obtain ⟨s, hs, hwritten⟩ := writeTables_of_migrationsOfDiagram h
  have hsound := (sound_schemaOfDiagram hs).1
  obtain ⟨d, hd, rfl⟩ := schemaOfDiagram_eq_ok.mp hs
  have htables : files.map GeneratedFile.table = (inferFromDiagram d).storageNames :=
    tables_of_writeTables hwritten
  refine ⟨d, inferFromDiagram d, hd, hs, hsound.arranged, domainTables_sublist d, htables,
    (contents_of_writeTables hwritten).1, ?_⟩
  intro k t ht c key hkey
  obtain ⟨hmem, hknown⟩ := List.mem_filter.mp hkey
  obtain ⟨hc, hkey⟩ := mem_keysOf.mp hmem
  have hcreated : key.table ∈ files.map GeneratedFile.table := by
    rw [htables]
    simpa only [isKnown, List.contains_iff_mem] using hknown
  rw [← List.take_append_drop (k + 1) files, List.map_append] at hcreated
  rcases List.mem_append.mp hcreated with hearlier | hlater
  · exact Or.inl hearlier
  by_cases hearlier : key.table ∈ (files.take (k + 1)).map GeneratedFile.table
  · exact Or.inl hearlier
  refine Or.inr ⟨hlater, ?_⟩
  cases hpivot : t.isPivot with
  | false =>
    exact Or.inl ⟨rfl, givesKey_inferFromDiagram (parsedDocument hd) (List.mem_of_getElem? ht) hpivot
      hc hkey⟩
  | true =>
    refine Or.inr ⟨rfl, fun u hu hstored => ?_⟩
    by_contra hdomain
    apply hearlier
    rw [List.map_take, htables, ← hstored]
    unfold Schema.storageNames
    rw [← List.map_take]
    exact List.mem_map_of_mem
      (mem_take_of_isPivot hsound ht hpivot hu (Bool.eq_false_iff.mpr hdomain))

/-! ### Constraints that lead forward -/

/-- A migration of a diagram has a constraint on a table that only a later migration creates. -/
def RefersForward (text : String) : Prop :=
  ∃ files s k t c key, migrationsOfDiagram {} ⟨2024, 3, 5, 14, 7, 9⟩ text = .ok files
    ∧ schemaOfDiagram text = .ok s ∧ s.tables[k]? = some t
    ∧ (c, key) ∈ knownKeys (some s.storageNames) t
    ∧ key.table ∉ (files.take (k + 1)).map GeneratedFile.table

theorem refersForward_of_parse {text : String} {d : Document} (hparse : Document.parse text = .ok d)
    {ts : List Table} (hts : (inferFromDiagram d).tables = ts) {k : Nat} {t : Table} {c : Column}
    {key : ForeignKey} (hshapes : ∀ t ∈ ts, ¬IsMisshapen t)
    (htime : ∀ i < ts.length, (Timestamp.later? i ⟨2024, 3, 5, 14, 7, 9⟩).isSome = true)
    (ht : ts[k]? = some t) (hc : c ∈ t.columns) (hkey : c.foreignKey = some key)
    (hthere : key.table ∈ ts.map Table.storageName)
    (hlater : key.table ∉ (ts.map Table.storageName).take (k + 1)) : RefersForward text := by
  have hschema := schemaOfDiagram_of_parse hparse
  subst hts
  obtain ⟨files, hfiles⟩ := exists_migrationsOfDiagram (o := {}) hschema hshapes htime
  obtain ⟨s, hs, hwritten⟩ := writeTables_of_migrationsOfDiagram hfiles
  obtain rfl : inferFromDiagram d = s := Except.ok.inj (hschema.symm.trans hs)
  refine ⟨files, _, k, t, c, key, hfiles, hschema, ht, ?_, ?_⟩
  · refine List.mem_filter.mpr ⟨mem_keysOf.mpr ⟨hc, hkey⟩, ?_⟩
    unfold isKnown Schema.storageNames
    simpa only [List.contains_iff_mem] using hthere
  · rwa [List.map_take, tables_of_writeTables hwritten]

/-- Posts are drawn before their users. -/
def postsText : String :=
  "entity Post
entity User
User ||--o\x7b Post
"

/-- What the text draws. -/
def drawnPosts : Document :=
  { tables := [{ name := "Post" }, { name := "User" }]
    relationships := [.oneToMany "User" "Post"] }

/-- The key to an alias leads to `alias`, and only a pivot behind it is called so. -/
def labelledText : String :=
  "entity Alias
entity Post
entity User
Alias \x7do--o\x7b Post
Post \x7do--o\x7b User : alias
"

/-- What the text draws. -/
def drawnLabelled : Document :=
  { tables := [{ name := "Alias" }, { name := "Post" }, { name := "User" }]
    relationships := [.manyToMany "Alias" "Post" none, .manyToMany "Post" "User" (some "alias")] }

set_option maxRecDepth 8000 in
theorem parse_postsText : Document.parse postsText = .ok drawnPosts := by
  unfold Document.parse postsText
  rw [String.toList_ofList]
  decide

set_option maxRecDepth 8000 in
theorem parse_labelledText : Document.parse labelledText = .ok drawnLabelled := by
  unfold Document.parse labelledText
  rw [String.toList_ofList]
  decide

/-- The tables of the schema of posts. -/
def postsTables : List Table :=
  [{ name := "Post"
     columns := [Column.keyTo "user"] },
   { name := "User" }]

theorem tables_posts : (inferFromDiagram drawnPosts).tables = postsTables := by
  decide

theorem targets_of_migrationsOfDiagram_posts :
    ∃ files, migrationsOfDiagram {} ⟨2024, 3, 5, 14, 7, 9⟩ postsText = .ok files
      ∧ ∃ d s, Document.parse postsText = .ok d ∧ schemaOfDiagram postsText = .ok s
        ∧ s.tables = s.domainTables ++ s.pivotTables
        ∧ (s.domainTables.map Table.name).Sublist (d.tables.map Table.name)
        ∧ files.map GeneratedFile.table = s.storageNames
        ∧ files.map GeneratedFile.content = s.tables.map (contentOf {} (some s.storageNames))
        ∧ ∀ k t, s.tables[k]? = some t → ∀ c key, (c, key) ∈ knownKeys (some s.storageNames) t →
          key.table ∈ (files.take (k + 1)).map GeneratedFile.table
            ∨ key.table ∈ (files.drop (k + 1)).map GeneratedFile.table
              ∧ (t.isPivot = false ∧ GivesKey s.relationships t c key
                ∨ t.isPivot = true
                  ∧ ∀ u ∈ s.tables, u.storageName = key.table → u.isPivot = true) := by
  have hschema := schemaOfDiagram_of_parse parse_postsText
  obtain ⟨files, hfiles⟩ : ∃ files,
      migrationsOfDiagram {} ⟨2024, 3, 5, 14, 7, 9⟩ postsText = .ok files := by
    refine exists_migrationsOfDiagram hschema ?_ ?_ <;>
      · rw [tables_posts]
        decide
  exact ⟨files, hfiles, targets_of_migrationsOfDiagram hfiles⟩

/-- The tables of the schema of labelled pivots. -/
def labelledTables : List Table :=
  [{ name := "Alias" }, { name := "Post" }, { name := "User" },
   { name := "alia_post"
     columns := [idColumn, Column.keyTo "alia", Column.keyTo "post"]
     isPivot := true },
   { name := "alias"
     columns := [idColumn, Column.keyTo "post", Column.keyTo "user"]
     isPivot := true }]

theorem tables_labelled : (inferFromDiagram drawnLabelled).tables = labelledTables := by
  have hfree : ∀ r ∈ drawnLabelled.relationships, Unadopted drawnLabelled.tables r :=
    fun _ _ => unadopted_of_capitalized (by decide)
  have hmeant : meant drawnLabelled.tables drawnLabelled.relationships
      = drawnLabelled.relationships := by decide
  have halias : modelName "Alias" = "alia" := by decide
  have hpost : modelName "Post" = "post" := by decide
  have huser : modelName "User" = "user" := by decide
  have hfirst : Text.sorted ["alia", "post"] = ["alia", "post"] :=
    List.mergeSort_of_pairwise (by decide)
  have hsecond : Text.sorted ["post", "user"] = ["post", "user"] :=
    List.mergeSort_of_pairwise (by decide)
  have hpivots : pivotsOf drawnLabelled.relationships
      = [{ name := "alia_post"
           columns := [idColumn, Column.keyTo "alia", Column.keyTo "post"]
           isPivot := true },
         { name := "alias"
           columns := [idColumn, Column.keyTo "post", Column.keyTo "user"]
           isPivot := true }] := by
    have hname : pivotName "Post" "User" (some "alias") = "alias" := by decide
    have hfirstPivot := synthesizePivot_of_sorted halias hpost hfirst (by decide) none
    have hsecondPivot := synthesizePivot_of_sorted hpost huser hsecond (by decide) (some "alias")
    rw [pivotName_of_sorted halias hpost hfirst] at hfirstPivot
    rw [hname] at hsecondPivot
    unfold pivotsOf drawnLabelled
    simp only [List.foldl_cons, List.foldl_nil, addPivot, hname, hfirstPivot, hsecondPivot]
    rfl
  rw [(inferFromDiagram_eq (by decide) (forall_mem_meant hfree)).1, hmeant, hpivots]
  decide

/-- Constraints lead forward, from domain tables and from pivots. -/
theorem refersForward_posts : RefersForward postsText ∧ RefersForward labelledText := by
  constructor
  · exact refersForward_of_parse parse_postsText tables_posts (k := 0) (by decide)
      (by decide) rfl (List.mem_singleton_self _) rfl (by decide)
      (by decide)
  · exact refersForward_of_parse parse_labelledText tables_labelled (k := 3)
      (c := Column.keyTo "alia") (by decide) (by decide) rfl (by decide)
      rfl (by decide) (by decide)

end Crowsfoot.Inference
