import Crowsfoot.Proofs.Diagram.Comments
import Crowsfoot.Proofs.Inference.Sound

/-!
# The columns of migrations survive being drawn

`columns_through_diagram`: the diagram of migrations that are called by convention has their domain
tables, and each has its columns, in order. Behind them stand the conventional foreign keys that the
lines of the diagram ask for (`AsksFor`) and that are not there yet; a foreign key under another
name does not stand in for them (`columns_through_diagram_ne`).

A column without a comment may have a line that shows less than the column, or other parameters;
still that line is read, and as a column of the same name (`FitsLine.readsAs`).
-/

namespace Crowsfoot.Diagram

open Crowsfoot.Text

/-! ## Lines of columns -/

theorem name_plainColumn (t : ColumnText) : t.plainColumn.name = t.name := by
  unfold ColumnText.plainColumn
  dsimp only

/-- What the line of a column is read as, if it is read as a column. -/
def readBack (c : Column) : Column :=
  match column? (trim (columnLine c).toList) with
  | .ok (some d) => d
  | _ => c

/-- **A column that fits its line is read as a column of its name.** -/
theorem FitsLine.readsAs {c : Column} (h : FitsLine c) : ReadsAs c (readBack c) := by
  obtain ⟨enumValues, size, precision, scale, hcolumn⟩ := h.reads
  have hread : readBack c
      = { (foundParts c).plainColumn with enumValues, size, precision, scale } := by
    unfold readBack
    rw [hcolumn]
  rw [hread]
  exact ⟨oneLine_columnLine h, kind_columnLine h, hcolumn, name_plainColumn (foundParts c)⟩

end Crowsfoot.Diagram

namespace Crowsfoot.Inference

open Crowsfoot.Diagram Crowsfoot.Migration Crowsfoot.Naming Crowsfoot.Text

variable {o : Options} {created : List CreatedTable}

/-! ## The relationships of migrations -/

/-- Relationships are between entities of created tables. -/
theorem mem_ends_inferFromMigrations {r : Relationship}
    (hr : r ∈ (inferFromMigrations o created).relationships) {name : String}
    (hname : name ∈ r.ends) : ∃ t ∈ created, t.entityName = name := by
  have hknown : ∀ table, (created.map CreatedTable.name).contains table = true →
      ∃ t ∈ created, t.entityName = entityName table := by
    intro table htable
    rw [List.contains_iff_mem, List.mem_map] at htable
    obtain ⟨t, ht, rfl⟩ := htable
    exact ⟨t, ht, rfl⟩
  obtain ⟨p, hp, hr⟩ := List.mem_flatMap.mp hr
  unfold relationshipsOf at hr
  split at hr
  · exact absurd hr (by simp)
  dsimp only at hr
  split at hr
  · unfold pivotRelationship at hr
    split at hr
    · rename_i hall
      split at hr
      · rename_i first second rest heq
        rw [List.mem_singleton.mp hr] at hname
        have hmem : name ∈ first :: second :: rest := by
          rcases List.mem_cons.mp hname with rfl | hname
          · exact List.mem_cons_self
          · rw [List.mem_singleton.mp hname]
            exact List.mem_cons_of_mem _ List.mem_cons_self
        rw [← heq] at hmem
        obtain ⟨ref, href, rfl⟩ := List.mem_map.mp hmem
        exact hknown ref.2 (List.all_eq_true.mp hall ref (List.mem_filter.mp href).1)
      · exact absurd hr (by simp)
    · exact absurd hr (by simp)
  · obtain ⟨ref, href, rfl⟩ := List.mem_map.mp hr
    have hparent := hknown ref.2 (Bool.and_eq_true_iff.mp (List.mem_filter.mp href).2).2
    have hends : (classify (entityName ref.2) p.entityName ref.1 p.uniqueSets).ends
        = [entityName ref.2, p.entityName] := by
      unfold classify
      split <;> rfl
    rw [hends] at hname
    rcases List.mem_cons.mp hname with rfl | hname
    · exact hparent
    · exact ⟨p, hp, (List.mem_singleton.mp hname).symm⟩

/-- The domain table that a created table becomes. -/
def domainTable (t : CreatedTable) : Table :=
  { name := t.entityName, columns := t.columns }

theorem name_domainTable (t : CreatedTable) : (domainTable t).name = t.entityName := by
  simp only [domainTable]

theorem columns_domainTable (t : CreatedTable) : (domainTable t).columns = t.columns := rfl

/-- The domain tables of migrations are those that are no pivots. -/
theorem domainTables_inferFromMigrations (o : Options) (created : List CreatedTable) :
    (inferFromMigrations o created).domainTables
      = (created.filter fun t => !isPivot o t).map domainTable := by
  have hdomain : (created.map (tableOf o)).filter (fun t => !t.isPivot)
      = (created.filter fun t => !isPivot o t).map domainTable := by
    rw [List.filter_map]
    have hsame : (fun t : Table => !t.isPivot) ∘ tableOf o = fun t => !isPivot o t := by
      funext t
      exact congrArg not (isPivot_tableOf o t)
    rw [hsame]
    refine List.map_congr_left fun t ht => tableOf_domain ?_
    simpa using (List.mem_filter.mp ht).2
  rw [← hdomain]
  unfold Schema.domainTables inferFromMigrations Table.order
  dsimp only
  rw [List.filter_append, List.filter_filter, List.filter_filter]
  have hnone : (created.map (tableOf o)).filter (fun t => !t.isPivot && t.isPivot) = [] := by
    simp
  rw [hnone, List.append_nil]
  simp only [Bool.and_self]

/-- No entity is called like a pivot, so no entity is taken for one. -/
theorem unadopted_inferFromMigrations (hread : ∀ t ∈ created, WellRead t) {r : Relationship}
    (hr : r ∈ (inferFromMigrations o created).relationships) :
    Unadopted (inferFromMigrations o created).domainTables r := by
  refine unadopted_of_pivotName ?_
  rintro first second pivot rfl u hu
  obtain ⟨p, hp, hr⟩ := List.mem_flatMap.mp hr
  obtain ⟨hpivot, rfl⟩ := eq_of_mem_relationshipsOf hr
  unfold isPivot isPivotTable at hpivot
  have hcalled := (Bool.and_eq_true_iff.mp hpivot).1
  rw [domainTables_inferFromMigrations] at hu
  obtain ⟨t, ht, rfl⟩ := List.mem_map.mp hu
  have hcustom : pivotName first second (some p.name) = snake p.name := by
    unfold pivotName
    rw [Option.filter_some, (hread p hp).name.isEmpty_eq_false]
    rfl
  rw [hcustom, name_domainTable]
  exact entityName_ne_snake (hread t (List.mem_filter.mp ht).1).name hcalled

/-! ## Tables called by convention -/

/-- Migrations create tables that are called after their entities, and a diagram can tell the
columns of the domain tables apart. -/
structure Conventional (o : Options) (created : List CreatedTable) : Prop where
  names : ∀ t ∈ created, tableName t.entityName = t.name
  comments : ∀ t ∈ created, ∀ c ∈ t.columns, c.comment = none
  words : ∀ t ∈ created, isPivot o t = false → ∀ c ∈ t.columns, IsName c.name
  values : ∀ t ∈ created, isPivot o t = false → ∀ c ∈ t.columns, ∀ v ∈ c.enumValues,
    OneLine v.toList

section Conventional

variable (hread : ∀ t ∈ created, WellRead t) (h : Conventional o created)
include hread h

theorem isName_entityName_of_mem {t : CreatedTable} (ht : t ∈ created) : IsName t.entityName :=
  isName_entityName (hread t ht).name (h.names t ht)

theorem isName_of_mem_ends {r : Relationship}
    (hr : r ∈ (inferFromMigrations o created).relationships) : ∀ name ∈ r.ends, IsName name := by
  intro name hname
  obtain ⟨t, ht, rfl⟩ := mem_ends_inferFromMigrations hr hname
  exact isName_entityName_of_mem hread h ht

theorem readable_inferFromMigrations : ReadableSchema readBack (inferFromMigrations o created) := by
  constructor
  · rw [domainTables_inferFromMigrations]
    intro u hu
    obtain ⟨t, ht, rfl⟩ := List.mem_map.mp hu
    obtain ⟨ht, hdomain⟩ := List.mem_filter.mp ht
    have hdomain : isPivot o t = false := by simpa using hdomain
    constructor
    · rw [name_domainTable]
      exact isName_entityName_of_mem hread h ht
    · intro c hc
      rw [columns_domainTable] at hc
      have hfits : FitsLine c := by
        refine ⟨h.words t ht hdomain c hc, ?_, h.values t ht hdomain c hc⟩
        rw [h.comments t ht c hc]
        simp
      exact hfits.readsAs
    · rw [columns_domainTable]
      exact (hread t ht).distinct
  · intro r hr
    have hends := isName_of_mem_ends hread h hr
    cases r with
    | oneToOne parent child | oneToMany parent child =>
      exact ⟨hends parent (by simp [Relationship.ends]), hends child (by simp [Relationship.ends])⟩
    | manyToMany first second pivot =>
      refine ⟨hends first (by simp [Relationship.ends]), hends second (by simp [Relationship.ends]),
        ?_⟩
      obtain ⟨p, hp, hr⟩ := List.mem_flatMap.mp hr
      intro name hname
      rw [(eq_of_mem_relationshipsOf hr).2] at hname
      rw [← Option.mem_some_iff.mp hname]
      exact (hread p hp).name

theorem unhyphenated_inferFromMigrations {r : Relationship}
    (hr : r ∈ (inferFromMigrations o created).relationships) : r.Unhyphenated :=
  fun name hname => (isName_of_mem_ends hread h hr name hname).not_mem (by decide)

end Conventional

/-! ## The keys that a diagram asks for -/

/-- The lines of the diagram of a schema ask for a key at a domain table: there is a drawn parent
that it leads to, and the table is the first that the child refers to. -/
def AsksFor (s : Schema) (i : Nat) (key : String) : Prop :=
  ∃ l ∈ links s.relationships, declared s.domainTables l.1 = true
    ∧ s.domainTables.findIdx? (answers · l) = some i ∧ foreignKeyName l.1 = key

section Reading

variable {s : Schema} {read : Column → Column}

theorem bare_readDocument :
    (readDocument read s).tables.map bare = s.domainTables.map bare := by
  have hsame : ∀ t ∈ s.domainTables, bare (readTable read t) = bare t := by
    intro t ht
    have hdomain : t.isPivot = false := by simpa using (List.mem_filter.mp ht).2
    exact Table.eq_of_parts rfl rfl hdomain.symm
  unfold readDocument
  rw [List.map_map]
  exact List.map_congr_left hsame

theorem isPivot_readDocument : ∀ t ∈ (readDocument read s).tables, t.isPivot = false := by
  intro u hu
  obtain ⟨t, -, rfl⟩ := List.mem_map.mp hu
  rfl

theorem map_name_readTable {t : Table} (h : ReadableTable read t) :
    (readTable read t).columns.map Column.name = t.columns.map Column.name := by
  unfold readTable
  rw [List.map_map]
  exact List.map_congr_left fun c hc => (h.columns c hc).name

/-- Parents are put where a key is asked for. -/
theorem mem_parentsAt_readDocument (h : ∀ r ∈ s.relationships, r.Unhyphenated) (i : Nat)
    (key : String) :
    key ∈ (parentsAt (links (meant (readDocument read s).tables (readDocument read s).relationships))
        (readDocument read s).tables i).map foreignKeyName
      ↔ AsksFor s i key := by
  have hlinks : ∀ l, l ∈ links (readDocument read s).relationships ↔ l ∈ links s.relationships :=
    mem_links_drawnRelationships h
  have hdeclared : declared (readDocument read s).tables = declared s.domainTables :=
    declared_congr bare_readDocument
  unfold parentsAt AsksFor
  rw [List.map_map, List.mem_map]
  constructor
  · rintro ⟨l, hl, rfl⟩
    obtain ⟨hl, hfirst⟩ := List.mem_filter.mp hl
    obtain ⟨hl, hparent, -⟩ := mem_links_meant.mp hl
    rw [beq_iff_eq, findIdx?_answers_congr bare_readDocument] at hfirst
    exact ⟨l, (hlinks l).mp hl, hdeclared ▸ hparent, hfirst, rfl⟩
  · rintro ⟨l, hl, hparent, hfirst, rfl⟩
    have hmeant := mem_links_meant.mpr
      ⟨(hlinks l).mpr hl, hdeclared ▸ hparent, hdeclared ▸ declared_of_findIdx? hfirst⟩
    refine ⟨l, List.mem_filter.mpr ⟨hmeant, ?_⟩, rfl⟩
    rw [beq_iff_eq, findIdx?_answers_congr bare_readDocument]
    exact hfirst

end Reading

/-- **The columns of migrations survive being drawn.** The diagram of migrations that are called by
convention is read, and gives the domain tables of the migrations in their order. Each has its
columns in their order, and behind them the keys that the diagram asks for and that are missing;
there are none exactly if all keys that the diagram asks for are there. -/
theorem columns_through_diagram {contents : List String}
    (hcreated : readMigrations contents [] = .ok created) (h : Conventional o created)
    (generatedAt : Timestamp) :
    ∃ s text s', schemaOfMigrations o contents [] = .ok s
      ∧ diagramOfMigrations o generatedAt contents = .ok text ∧ schemaOfDiagram text = .ok s'
      ∧ s'.domainTables.map Table.name = s.domainTables.map Table.name
      ∧ ∀ i t, s.domainTables[i]? = some t → ∃ t', s'.domainTables[i]? = some t'
        ∧ (∃ added, t'.columns.map Column.name = t.columns.map Column.name ++ added ∧ added.Nodup
          ∧ ∀ key, key ∈ added ↔ key ∉ t.columns.map Column.name ∧ AsksFor s i key)
        ∧ (t'.columns.map Column.name = t.columns.map Column.name
          ↔ ∀ key, AsksFor s i key → key ∈ t.columns.map Column.name) := by
  have hread := wellRead_readMigrations hcreated
  have hschema : schemaOfMigrations o contents [] = .ok (inferFromMigrations o created) := by
    unfold schemaOfMigrations
    rw [hcreated]
    rfl
  have hdiagram : diagramOfMigrations o generatedAt contents
      = .ok (write (inferFromMigrations o created) generatedAt) := by
    unfold diagramOfMigrations
    rw [hschema]
    rfl
  have hreadable := readable_inferFromMigrations hread h
  have hunhyphenated : ∀ r ∈ (inferFromMigrations o created).relationships, r.Unhyphenated :=
    fun r hr => unhyphenated_inferFromMigrations hread h hr
  have hfree : ∀ r ∈ (inferFromMigrations o created).relationships,
      Unadopted (inferFromMigrations o created).domainTables r :=
    fun r hr => unadopted_inferFromMigrations hread hr
  generalize inferFromMigrations o created = s at *
  have hagain : schemaOfDiagram (write s generatedAt)
      = .ok (inferFromDiagram (readDocument readBack s)) := by
    unfold schemaOfDiagram
    rw [parse_write hreadable]
    rfl
  have hdrawn : ∀ r ∈ (readDocument readBack s).relationships,
      Unadopted (readDocument readBack s).tables r := by
    intro r hr name hname u hu
    obtain ⟨t, ht, rfl⟩ := List.mem_map.mp hu
    exact hfree r (mem_of_mem_drawnRelationships hr) name hname t ht
  have hdomain :=
    (domainTables_inferFromDiagram isPivot_readDocument (forall_mem_meant hdrawn)).1
  refine ⟨s, _, _, hschema, hdiagram, hagain, ?_, ?_⟩
  · have hbare := map_bare_linkAll (links (meant (readDocument readBack s).tables
      (readDocument readBack s).relationships)) (readDocument readBack s).tables
    rw [bare_readDocument] at hbare
    have hnames := congrArg (List.map Table.name) hbare
    rw [List.map_map, List.map_map] at hnames
    rw [hdomain]
    exact hnames
  · intro i t ht
    rw [hdomain, linkAll_eq_mapIdx]
    have hmem := hreadable.tables t (List.mem_of_getElem? ht)
    obtain ⟨added, hnames, hnodup, hadded⟩ := map_name_ensureKeys (readTable readBack t)
      (parentsAt (links (meant (readDocument readBack s).tables
        (readDocument readBack s).relationships)) (readDocument readBack s).tables i)
    simp only [map_name_readTable hmem, mem_parentsAt_readDocument hunhyphenated] at hnames hadded
    have htable : (readDocument readBack s).tables[i]? = some (readTable readBack t) := by
      unfold readDocument
      rw [List.getElem?_map, ht]
      rfl
    refine ⟨_, by rw [List.getElem?_mapIdx, htable]; rfl, ⟨added, hnames, hnodup, hadded⟩, ?_⟩
    rw [hnames, List.append_right_eq_self, List.eq_nil_iff_forall_not_mem]
    constructor
    · intro hnone key hkey
      by_contra hfresh
      exact hnone key ((hadded key).mpr ⟨hfresh, hkey⟩)
    · intro hall key hkey
      obtain ⟨hfresh, hasked⟩ := (hadded key).mp hkey
      exact hfresh (hall key hasked)

/-- Migrations whose posts refer to their authors, who are users. -/
def authorMigrations : List String :=
  ["Schema::create('users', function ($table) \x7b$table->id();\x7d);",
    "Schema::create('posts', function ($table) \x7b
      $table->id();
      $table->foreignId('author_id')->constrained('users');\x7d);"]

/-- A column of big integers that is required. -/
def requiredColumn (name : String) (foreignKey : Option ForeignKey) : Column :=
  { name, type := .bigint, nullable := false, foreignKey }

/-- The tables that the migrations create. -/
def createdAuthors : List CreatedTable :=
  [{ name := "users", columns := [idColumn] },
    { name := "posts"
      columns := [idColumn, requiredColumn "author_id" (some { table := "users" })]
      keys := [{ column := "author_id", on := "users", references := "id" }] }]

theorem readMigrations_authors : readMigrations authorMigrations [] = .ok createdAuthors := by
  apply readMigrations_of_forall₂
  refine .cons ?_ (.cons ?_ .nil) <;>
    · rw [readMigration_ofList]
      decide +kernel

theorem columns_through_diagram_authors :
    readMigrations authorMigrations [] = .ok createdAuthors ∧ Conventional {} createdAuthors
      ∧ ∃ s text s', schemaOfMigrations {} authorMigrations [] = .ok s
        ∧ diagramOfMigrations {} ⟨2024, 3, 5, 14, 7, 9⟩ authorMigrations = .ok text
        ∧ schemaOfDiagram text = .ok s'
        ∧ s'.domainTables.map Table.name = s.domainTables.map Table.name
        ∧ ∀ i t, s.domainTables[i]? = some t → ∃ t', s'.domainTables[i]? = some t'
          ∧ (∃ added, t'.columns.map Column.name = t.columns.map Column.name ++ added ∧ added.Nodup
            ∧ ∀ key, key ∈ added ↔ key ∉ t.columns.map Column.name ∧ AsksFor s i key)
          ∧ (t'.columns.map Column.name = t.columns.map Column.name
            ↔ ∀ key, AsksFor s i key → key ∈ t.columns.map Column.name) := by
  have hconventional : Conventional {} createdAuthors :=
    ⟨by decide +kernel, by decide +kernel, by decide +kernel, by decide +kernel⟩
  exact ⟨readMigrations_authors, hconventional,
    columns_through_diagram readMigrations_authors hconventional _⟩

/-! ### Columns that do not survive -/

/-- Migrations that create tables called by convention, without comments, whose diagram gives one of
their domain tables other columns. -/
def AltersColumns (contents : List String) : Prop :=
  ∃ created s text s', readMigrations contents [] = .ok created
    ∧ (∀ t ∈ created, tableName t.entityName = t.name)
    ∧ (∀ t ∈ created, ∀ c ∈ t.columns, c.comment = none)
    ∧ schemaOfMigrations {} contents [] = .ok s
    ∧ diagramOfMigrations {} ⟨2024, 3, 5, 14, 7, 9⟩ contents = .ok text
    ∧ schemaOfDiagram text = .ok s'
    ∧ ∃ t ∈ s.domainTables, ∃ t' ∈ s'.domainTables, t'.name = t.name
      ∧ t'.columns.map Column.name ≠ t.columns.map Column.name

theorem altersColumns_of_parse {contents : List String} {d : Document}
    (hcreated : readMigrations contents [] = .ok created)
    (hnames : ∀ t ∈ created, tableName t.entityName = t.name)
    (hcomments : ∀ t ∈ created, ∀ c ∈ t.columns, c.comment = none)
    (hparse : Document.parse (write (inferFromMigrations {} created) ⟨2024, 3, 5, 14, 7, 9⟩) = .ok d)
    (hne : ∃ t ∈ (inferFromMigrations {} created).domainTables,
      ∃ t' ∈ (inferFromDiagram d).domainTables, t'.name = t.name
        ∧ t'.columns.map Column.name ≠ t.columns.map Column.name) :
    AltersColumns contents := by
  have hschema : schemaOfMigrations {} contents [] = .ok (inferFromMigrations {} created) := by
    unfold schemaOfMigrations
    rw [hcreated]
    rfl
  refine ⟨created, inferFromMigrations {} created,
    write (inferFromMigrations {} created) ⟨2024, 3, 5, 14, 7, 9⟩, inferFromDiagram d, hcreated,
    hnames, hcomments, hschema, ?_, ?_, hne⟩
  · unfold diagramOfMigrations
    rw [hschema]
    rfl
  · unfold schemaOfDiagram
    rw [hparse]
    rfl

/-- What is read of the diagram of `authorMigrations`. -/
def drawnAuthors : Document :=
  { tables :=
      [{ name := "User", columns := [idColumn] },
        { name := "Post", columns := [idColumn, requiredColumn "author_id" none] }]
    relationships := [.oneToMany "User" "Post"] }

/-- A migration with a column whose name is no word. -/
def spacedMigration : String :=
  "Schema::create('users', function ($table) \x7b$table->string('first name');\x7d);"

/-- A migration with a value whose second line looks like a column. -/
def brokenMigration : String :=
  "Schema::create('users', function ($table) \x7b$table->enum('state', ['a\nb : int']);\x7d);"

/-- What is read of the diagram of `brokenMigration`. -/
def drawnBroken : Document :=
  { tables :=
      [{ name := "User"
         columns :=
          [{ name := "state", type := .enum, comment := some "(a" },
            { name := "b", type := .int, nullable := false, comment := some ")" }] }] }

set_option maxRecDepth 8000 in
/-- A key that is not called by convention gets another beside it; a column whose name is no word is
lost, and a value with a line break can bring one in. -/
theorem columns_through_diagram_ne :
    AltersColumns authorMigrations ∧ AltersColumns [spacedMigration]
      ∧ AltersColumns [brokenMigration] := by
  have hone : ∀ {content : String} {t : CreatedTable}, readMigration content none = .ok [t] →
      readMigrations [content] [] = .ok [t] := by
    intro content t h
    have hall : ∀ x ∈ [(content, t)], readMigration x.1 none = .ok [x.2] := by simpa using h
    exact readMigrations_map hall
  have hspaced : readMigration spacedMigration none
      = .ok [{ name := "users", columns := [{ name := "first name", nullable := false }] }] := by
    unfold spacedMigration
    rw [readMigration_ofList]
    decide +kernel
  have hbroken : readMigration brokenMigration none
      = .ok [{ name := "users"
               columns :=
                [{ name := "state", type := .enum, nullable := false
                   enumValues := ["a\nb : int"] }] }] := by
    unfold brokenMigration
    rw [readMigration_ofList]
    decide +kernel
  refine ⟨altersColumns_of_parse (d := drawnAuthors) readMigrations_authors ?_ ?_ ?_ ?_,
    altersColumns_of_parse (d := { tables := [{ name := "User" }] }) (hone hspaced) ?_ ?_ ?_ ?_,
    altersColumns_of_parse (d := drawnBroken) (hone hbroken) ?_ ?_ ?_ ?_⟩ <;> decide +kernel

end Crowsfoot.Inference
