import Crowsfoot.Proofs.Diagram.Redrawing
import Crowsfoot.Proofs.Inference.Written

/-!
# The relationships of a diagram survive being migrations

`relationships_through_migrations`: the migrations of a diagram have its relationships, by kind and
key, but for one-to-one relationships. Migrations do not say of a key that it is unique by itself,
so these are one-to-many from then on (`plainly`).

A diagram has to be `Convertible` for this: the names of its entities lead to their tables and back,
and its tables are recognised for what they are (`relationships_through_migrations_ne`). The
relationships come back from two sides: each link is found as a reference of the table that it ends
at (`mem_linked_relationships`), and each joined pair as that of its pivot
(`mem_joined_relationships`).
-/

namespace Crowsfoot.Inference

open Crowsfoot.Diagram Crowsfoot.Migration Crowsfoot.Naming Crowsfoot.Text

/-! ## What is asked of a diagram -/

/-- The entities that the foreign keys of a relationship lead to. -/
def targets : Relationship → List String
  | .oneToOne parent _ => [parent]
  | .oneToMany parent _ => [parent]
  | .manyToMany first second _ => [first, second]

/-- A relationship as generated migrations state it. -/
def plainly : Relationship → Relationship
  | .oneToOne parent child => .oneToMany parent child
  | .oneToMany parent child => .oneToMany parent child
  | .manyToMany first second pivot => .manyToMany first second pivot

/-- Entities are named in Pascal case and called by convention, and the names and shapes of tables
tell what they are. -/
structure Convertible (o : Options) (d : Document) : Prop where
  system : o.systemColumns = systemColumns
  indent : ∀ c ∈ o.indent.toList, isBlank c = true
  entities : ∀ t ∈ d.tables, IsCapitalized t.name ∧ entityName (tableName t.name) = t.name
  ends : ∀ r ∈ d.relationships, ∀ name ∈ r.ends, name ∈ d.tables.map Table.name
  /-- A foreign key leads to the table that its entity is stored in. -/
  keys : ∀ r ∈ d.relationships, ∀ name ∈ targets r, pluralize (modelName name) = tableName name
  /-- The first table that answers to the name of a child is the child. -/
  apart : ∀ l ∈ links d.relationships, ∀ t ∈ d.tables.find? (answers · l), t.name = l.2
  /-- A pivot joins two entities only. -/
  shared : ∀ first second custom first' second' custom',
    .manyToMany first second custom ∈ d.relationships →
    .manyToMany first' second' custom' ∈ d.relationships →
    pivotName first second custom = pivotName first' second' custom' →
    [first, second].Perm [first', second']
  /-- Pivots, and nothing else, look like pivots. -/
  pivots : ∀ t ∈ (inferFromDiagram d).tables,
    isPivotTable t.storageName t.columns o.systemColumns = t.isPivot
  words : ∀ t ∈ (inferFromDiagram d).pivotTables, IsName t.name
  skipped : ∀ t ∈ (inferFromDiagram d).tables,
    o.skipTables.contains t.storageName = true → t.keyColumns = []
  unmarked : ∀ t ∈ (inferFromDiagram d).tables,
    ∀ s ∈ writtenStrings o (some (inferFromDiagram d).storageNames) t, Unmarked s

/-- What the migration of a table of the schema contributes to the schema of migrations. -/
def contributed (o : Options) (d : Document) (t : Table) : List Relationship :=
  relationshipsOf o (inferFromDiagram d).storageNames
    (written o (inferFromDiagram d).storageNames t)

theorem mem_relationships_written {o : Options} {d : Document} {r : Relationship} :
    r ∈ (inferFromMigrations o ((inferFromDiagram d).tables.map
        (written o (inferFromDiagram d).storageNames))).relationships
      ↔ ∃ t ∈ (inferFromDiagram d).tables, r ∈ contributed o d t := by
  have hknown : ((inferFromDiagram d).tables.map
      (written o (inferFromDiagram d).storageNames)).map CreatedTable.name
        = (inferFromDiagram d).storageNames := by
    rw [List.map_map]
    rfl
  unfold inferFromMigrations contributed
  dsimp only
  rw [hknown, List.mem_flatMap]
  simp only [List.mem_map, exists_exists_and_eq_and]

/-! ## References of linked tables -/

theorem table_toModel (model : String) : (ForeignKey.toModel model).table = pluralize model :=
  rfl

/-- A foreign key of a linked table is that to one of its parents, on the column of its name. -/
theorem foreignKey_ensureKeys {t : Table} (h : Unkeyed t) {parents : List String} {c : Column}
    (hc : c ∈ (ensureKeys t parents).columns) {key : ForeignKey} :
    c.foreignKey = some key ↔ ∃ parent ∈ parents, foreignKeyName parent = c.name
      ∧ ForeignKey.toModel (modelName parent) = key := by
  have hkey : keyOf ([] ++ parents.map modelName) c.name = c.foreignKey :=
    congrArg Column.foreignKey ((h.columns.ensureKeys parents).keys c hc)
  rw [← hkey, keyOf_eq_some, List.nil_append]
  simp only [List.mem_map, exists_exists_and_eq_and, foreignKeyName]

/-- The references of a linked table are those to its parents. -/
theorem mem_references_ensureKeys {t : Table} (h : Unkeyed t) {parents : List String}
    {ref : String × String} :
    ref ∈ references (ensureKeys t parents)
      ↔ ∃ parent ∈ parents, (foreignKeyName parent, pluralize (modelName parent)) = ref := by
  rw [mem_references]
  constructor
  · rintro ⟨c, hc, key, hkey, rfl⟩
    obtain ⟨parent, hparent, hname, rfl⟩ := (foreignKey_ensureKeys h hc).mp hkey
    exact ⟨parent, hparent, by rw [hname, table_toModel]⟩
  · rintro ⟨parent, hparent, rfl⟩
    obtain ⟨c, hc, hname⟩ := List.mem_map.mp (keyName_mem_ensureKeys t hparent)
    refine ⟨c, hc, .toModel (modelName parent), ?_, by rw [hname, table_toModel]⟩
    exact (foreignKey_ensureKeys h hc).mpr ⟨parent, hparent, hname.symm, rfl⟩

/-- A linked table is one of the tables with the keys of the links that it is the first to answer. -/
theorem mem_linkAll_iff {ls : List (String × String)} {ts : List Table} {u : Table} :
    u ∈ linkAll ls ts ↔ ∃ i t, ts[i]? = some t ∧ ensureKeys t (parentsAt ls ts i) = u := by
  rw [linkAll_eq_mapIdx, List.mem_iff_getElem?]
  simp only [List.getElem?_mapIdx, Option.map_eq_some_iff]

theorem mem_parentsAt {ls : List (String × String)} {ts : List Table} {i : Nat} {parent : String} :
    parent ∈ parentsAt ls ts i
      ↔ ∃ l ∈ ls, ts.findIdx? (answers · l) = some i ∧ l.1 = parent := by
  unfold parentsAt
  simp only [List.mem_map, List.mem_filter, beq_iff_eq, and_assoc]

theorem plainly_of_link? {r : Relationship} {l : String × String} :
    link? r = some l ↔ plainly r = .oneToMany l.1 l.2 := by
  cases r <;> simp [link?, plainly, Prod.ext_iff]

theorem fst_mem_targets {r : Relationship} {l : String × String} (h : link? r = some l) :
    l.1 ∈ targets r := by
  cases r with
  | oneToOne | oneToMany =>
    rw [← Option.some.inj h]
    exact List.mem_cons_self
  | manyToMany => exact nomatch h

theorem exists_of_mem_joinedModels {first second model : String}
    (h : model ∈ joinedModels first second) : ∃ name ∈ [first, second], modelName name = model := by
  rcases mem_joinedModels.mp h with rfl | rfl
  · exact ⟨first, List.mem_cons_self, rfl⟩
  · exact ⟨second, List.mem_cons_of_mem _ List.mem_cons_self, rfl⟩

theorem keyName_ne_empty (model : String) : model ++ keySuffix ≠ "" := by
  intro hempty
  have hnil := congrArg String.toList hempty
  rw [String.toList_append] at hnil
  exact absurd (List.append_eq_nil_iff.mp hnil).2 (by decide)

theorem kindAndKey_manyToMany {first second first' second' : String} {pivot pivot' : Option String}
    (h : [first, second].Perm [first', second']) :
    kindAndKey (.manyToMany first second pivot) = kindAndKey (.manyToMany first' second' pivot') :=
  Prod.ext rfl (Relationship.key_manyToMany h pivot pivot')

section Convertible

variable {o : Options} {d : Document} (h : Convertible o d)
include h

/-! ## The tables of the schema -/

/-- All relationships are between declared tables. -/
theorem Convertible.meant : meant d.tables d.relationships = d.relationships := by
  unfold Inference.meant
  rw [List.filter_eq_self]
  intro r hr
  rw [List.all_eq_true]
  exact fun name hname => declared_of_mem (h.ends r hr name hname)

/-- Tables are recognised for what they are. -/
theorem Convertible.isPivot_written {t : Table} (ht : t ∈ (inferFromDiagram d).tables) :
    isPivot o (written o (inferFromDiagram d).storageNames t) = t.isPivot := by
  have hshape : hasPivotShape (written o (inferFromDiagram d).storageNames t).columns systemColumns
      = hasPivotShape t.columns systemColumns := hasPivotShape_writtenTable none
  have hpivot := h.pivots t ht
  unfold isPivotTable at hpivot
  unfold isPivot isPivotTable
  rwa [name_written, h.system, hshape, ← h.system]

variable (hparsed : ParsedDocument d)
include hparsed

theorem Convertible.tables :
    (inferFromDiagram d).tables
      = linkAll (links d.relationships) d.tables ++ pivotsOf d.relationships := by
  have htables := (inferFromDiagram_eq (fun t ht => (hparsed.tables t ht).domain)
    fun _ _ => unadopted_of_capitalized fun t ht => (h.entities t ht).1).1
  rwa [h.meant] at htables

theorem Convertible.relationships :
    (inferFromDiagram d).relationships = d.relationships.map named := by
  have hkept := (inferFromDiagram_eq (fun t ht => (hparsed.tables t ht).domain)
    fun _ _ => unadopted_of_capitalized fun t ht => (h.entities t ht).1).2
  rwa [h.meant] at hkept

/-- A table of the schema is a linked one, or a pivot that was made up. -/
theorem Convertible.cases_table {t : Table} (ht : t ∈ (inferFromDiagram d).tables) :
    (∃ i u, d.tables[i]? = some u
        ∧ ensureKeys u (parentsAt (links d.relationships) d.tables i) = t)
      ∨ ∃ first second custom, .manyToMany first second custom ∈ d.relationships
        ∧ t = synthesizePivot first second custom := by
  rw [h.tables hparsed] at ht
  rcases List.mem_append.mp ht with ht | ht
  · exact Or.inl (mem_linkAll_iff.mp ht)
  · exact Or.inr (eq_of_mem_pivotsOf ht)

/-- Declared entities have their table in the schema. -/
theorem Convertible.tableName_mem {name : String} (hname : name ∈ d.tables.map Table.name) :
    tableName name ∈ (inferFromDiagram d).storageNames :=
  tableName_mem_storageNames (fun t ht => (hparsed.tables t ht).domain)
    (fun _ _ => unadopted_of_capitalized fun t ht => (h.entities t ht).1) hname

theorem Convertible.isName_tableName {name : String} (hname : name ∈ d.tables.map Table.name) :
    IsName (tableName name) := by
  obtain ⟨t, ht, rfl⟩ := List.mem_map.mp hname
  obtain ⟨hcapital, hconvention⟩ := h.entities t ht
  exact Naming.isName_tableName (hparsed.tables t ht).name hcapital.2 hconvention

/-! ## Migrations of the schema -/

/-- Foreign keys of the schema lead to tables of declared entities. -/
theorem Convertible.foreignKey {t : Table} (ht : t ∈ (inferFromDiagram d).tables) {c : Column}
    (hc : c ∈ t.columns) {key : ForeignKey} (hkey : c.foreignKey = some key) :
    ∃ name ∈ d.tables.map Table.name, key = .toModel (modelName name)
      ∧ pluralize (modelName name) = tableName name := by
  rcases h.cases_table hparsed ht with ⟨i, u, hu, rfl⟩ | ⟨first, second, custom, hr, rfl⟩
  · have htable := hparsed.tables u (List.mem_of_getElem? hu)
    obtain ⟨parent, hparent, -, rfl⟩ :=
      (foreignKey_ensureKeys (unkeyed_of_parsed htable) hc).mp hkey
    obtain ⟨l, hl, -, rfl⟩ := mem_parentsAt.mp hparent
    obtain ⟨r, hr, hlink⟩ := List.mem_filterMap.mp hl
    refine ⟨l.1, h.ends r hr l.1 ?_, rfl, h.keys r hr l.1 (fst_mem_targets hlink)⟩
    rw [ends_of_link? hlink]
    exact List.mem_cons_self
  · rcases mem_columns_synthesizePivot.mp hc with rfl | ⟨model, hmodel, rfl⟩
    · exact nomatch hkey
    · obtain ⟨name, hname, rfl⟩ := exists_of_mem_joinedModels hmodel
      exact ⟨name, h.ends _ hr name hname, (Option.some.inj hkey).symm, h.keys _ hr name hname⟩

theorem Convertible.name_ne_empty {t : Table} (ht : t ∈ (inferFromDiagram d).tables) :
    ∀ c ∈ t.columns, c.name ≠ "" := by
  have hkeyTo : ∀ model, (Column.keyTo model).name ≠ "" := fun model => keyName_ne_empty model
  rcases h.cases_table hparsed ht with ⟨i, u, hu, rfl⟩ | ⟨first, second, custom, hr, rfl⟩
  · have htable := hparsed.tables u (List.mem_of_getElem? hu)
    refine forall_mem_ensureKeys (fun c hc => ?_) (fun c key hc => ?_) fun parent _ => hkeyTo _
    · intro hempty
      exact (htable.columns c hc).name.nonempty (by rw [hempty]; rfl)
    · rwa [name_withKey]
  · intro c hc
    rcases mem_columns_synthesizePivot.mp hc with rfl | ⟨model, -, rfl⟩
    · exact (by decide : "id" ≠ "")
    · exact hkeyTo model

/-- Every table of the schema has a migration that is read back. -/
theorem Convertible.writable {t : Table} (ht : t ∈ (inferFromDiagram d).tables) :
    Writable o (some (inferFromDiagram d).storageNames) t := by
  refine ⟨h.indent, ?_, h.name_ne_empty hparsed ht, ?_, ?_, h.unmarked t ht⟩
  · cases hpivot : t.isPivot with
    | true =>
      unfold Table.storageName
      rw [if_pos hpivot]
      exact h.words t (List.mem_filter.mpr ⟨ht, hpivot⟩)
    | false =>
      rcases h.cases_table hparsed ht with ⟨i, u, hu, rfl⟩ | ⟨_, _, _, -, rfl⟩
      · unfold Table.storageName
        rw [hpivot, if_neg Bool.false_ne_true, name_ensureKeys]
        exact h.isName_tableName hparsed (List.mem_map_of_mem (List.mem_of_getElem? hu))
      · exact nomatch hpivot
  · exact ((sound_inferFromDiagram hparsed).2 t ht).distinct
  · rintro ⟨c, key⟩ hk
    obtain ⟨hc, hkey⟩ := mem_keysOf.mp hk
    obtain ⟨name, hname, rfl, hconvention⟩ := h.foreignKey hparsed ht hc hkey
    refine ⟨?_, (by decide : "id" ≠ "")⟩
    rw [table_toModel, hconvention]
    intro hempty
    exact (h.isName_tableName hparsed hname).nonempty (by rw [hempty]; rfl)

/-! ## Relationships of migrations -/

/-- The convention leads from the key of an entity back to it. -/
theorem Convertible.entityName_key {r : Relationship} (hr : r ∈ d.relationships) {name : String}
    (htarget : name ∈ targets r) (hend : name ∈ r.ends) :
    entityName (pluralize (modelName name)) = name
      ∧ pluralize (modelName name) ∈ (inferFromDiagram d).storageNames := by
  have hdeclared := h.ends r hr name hend
  obtain ⟨t, ht, rfl⟩ := List.mem_map.mp hdeclared
  rw [h.keys r hr _ htarget]
  exact ⟨(h.entities t ht).2, h.tableName_mem hparsed hdeclared⟩

theorem Convertible.of_mem_links {l : String × String} (hl : l ∈ links d.relationships) :
    l.2 ∈ d.tables.map Table.name ∧ entityName (pluralize (modelName l.1)) = l.1
      ∧ pluralize (modelName l.1) ∈ (inferFromDiagram d).storageNames := by
  obtain ⟨r, hr, hlink⟩ := List.mem_filterMap.mp hl
  have hends := ends_of_link? hlink
  refine ⟨h.ends r hr l.2 ?_, h.entityName_key hparsed hr (fst_mem_targets hlink) ?_⟩ <;>
    · rw [hends]
      simp

/-- What a linked table contributes: it is the child of its parents. -/
theorem Convertible.mem_contributed_linked {i : Nat} {u : Table} (hu : d.tables[i]? = some u)
    {r : Relationship} :
    r ∈ contributed o d (ensureKeys u (parentsAt (links d.relationships) d.tables i))
      ↔ ∃ parent ∈ parentsAt (links d.relationships) d.tables i, .oneToMany parent u.name = r := by
  have hmem := List.mem_of_getElem? hu
  have hunkeyed := unkeyed_of_parsed (hparsed.tables u hmem)
  have ht : ensureKeys u (parentsAt (links d.relationships) d.tables i)
      ∈ (inferFromDiagram d).tables := by
    rw [h.tables hparsed]
    exact List.mem_append_left _ (mem_linkAll_iff.mpr ⟨i, u, hu, rfl⟩)
  have hparents : ∀ parent ∈ parentsAt (links d.relationships) d.tables i,
      entityName (pluralize (modelName parent)) = parent
        ∧ pluralize (modelName parent) ∈ (inferFromDiagram d).storageNames := by
    intro parent hparent
    obtain ⟨l, hl, -, rfl⟩ := mem_parentsAt.mp hparent
    exact (h.of_mem_links hparsed hl).2
  generalize parentsAt (links d.relationships) d.tables i = parents at *
  have hdomain : (ensureKeys u parents).isPivot = false := by
    rw [isPivot_ensureKeys, hunkeyed.domain]
  have hentity : entityName (ensureKeys u parents).storageName = u.name := by
    unfold Table.storageName
    rw [hdomain, if_neg Bool.false_ne_true, name_ensureKeys]
    exact (h.entities u hmem).2
  unfold contributed
  rw [mem_relationshipsOf_written ((sound_inferFromDiagram hparsed).2 _ ht)
    ((h.isPivot_written ht).trans hdomain) (h.skipped _ ht), hentity]
  constructor
  · rintro ⟨ref, href, -, rfl⟩
    obtain ⟨parent, hparent, rfl⟩ := (mem_references_ensureKeys hunkeyed).mp href
    refine ⟨parent, hparent, ?_⟩
    dsimp only
    rw [(hparents parent hparent).1]
  · rintro ⟨parent, hparent, rfl⟩
    have href : (foreignKeyName parent, pluralize (modelName parent))
        ∈ references (ensureKeys u parents) :=
      (mem_references_ensureKeys hunkeyed).mpr ⟨parent, hparent, rfl⟩
    obtain ⟨hentity, hknown⟩ := hparents parent hparent
    refine ⟨_, href, ?_⟩
    dsimp only
    rw [hentity]
    exact ⟨hknown, rfl⟩

omit hparsed in
/-- The keys of a link are those of its child. -/
theorem Convertible.name_of_findIdx? {l : String × String} (hl : l ∈ links d.relationships)
    {i : Nat} {u : Table} (hfirst : d.tables.findIdx? (answers · l) = some i)
    (hu : d.tables[i]? = some u) : u.name = l.2 := by
  refine h.apart l hl u ?_
  rw [Option.mem_def, List.find?_eq_bind_findIdx?_getElem?, hfirst]
  exact hu

/-- **Each link is found as a reference**, and nothing else is. -/
theorem Convertible.mem_contributed_linkAll {r : Relationship} :
    (∃ t ∈ linkAll (links d.relationships) d.tables, r ∈ contributed o d t)
      ↔ ∃ l ∈ links d.relationships, .oneToMany l.1 l.2 = r := by
  constructor
  · rintro ⟨t, ht, hr⟩
    obtain ⟨i, u, hu, rfl⟩ := mem_linkAll_iff.mp ht
    obtain ⟨parent, hparent, rfl⟩ := (h.mem_contributed_linked hparsed hu).mp hr
    obtain ⟨l, hl, hfirst, rfl⟩ := mem_parentsAt.mp hparent
    exact ⟨l, hl, by rw [h.name_of_findIdx? hl hfirst hu]⟩
  · rintro ⟨l, hl, rfl⟩
    have hsome : (d.tables.findIdx? (answers · l)).isSome = true := by
      rw [List.findIdx?_isSome, List.any_eq_true]
      obtain ⟨t, ht, hname⟩ := List.mem_map.mp (h.of_mem_links hparsed hl).1
      refine ⟨t, ht, ?_⟩
      unfold answers
      rw [← hname]
      exact hasNameIn_name t
    obtain ⟨i, hfirst⟩ := Option.isSome_iff_exists.mp hsome
    obtain ⟨hi, -⟩ := List.findIdx?_eq_some_iff_getElem.mp hfirst
    have hu := List.getElem?_eq_getElem hi
    refine ⟨_, mem_linkAll_iff.mpr ⟨i, _, hu, rfl⟩,
      (h.mem_contributed_linked hparsed hu).mpr ⟨l.1, mem_parentsAt.mpr ⟨l, hl, hfirst, rfl⟩, ?_⟩⟩
    rw [h.name_of_findIdx? hl hfirst hu]

/-- The relationships come from the tables that the diagram draws and from its pivots. -/
theorem Convertible.mem_relationships {r : Relationship} :
    r ∈ (inferFromMigrations o ((inferFromDiagram d).tables.map
        (written o (inferFromDiagram d).storageNames))).relationships
      ↔ (∃ t ∈ linkAll (links d.relationships) d.tables, r ∈ contributed o d t)
        ∨ ∃ p ∈ pivotsOf d.relationships, r ∈ contributed o d p := by
  rw [mem_relationships_written, h.tables hparsed]
  simp only [List.mem_append, or_and_right, exists_or]

/-! ### Pivots -/

section Shapes

variable (hshapes : ∀ t ∈ (inferFromDiagram d).tables, ¬IsMisshapen t)
include hshapes

/-- What a pivot contributes: its entities are joined. -/
theorem Convertible.contributed_pivot {first second : String} {custom : Option String}
    (hr : .manyToMany first second custom ∈ d.relationships)
    (hp : synthesizePivot first second custom ∈ pivotsOf d.relationships) :
    ∃ r, contributed o d (synthesizePivot first second custom) = [r]
      ∧ kindAndKey r = kindAndKey (.manyToMany first second custom) := by
  have ht : synthesizePivot first second custom ∈ (inferFromDiagram d).tables := by
    rw [h.tables hparsed]
    exact List.mem_append_right _ hp
  have hskip : isSkipped o (written o (inferFromDiagram d).storageNames
      (synthesizePivot first second custom)) = false := by
    unfold isSkipped
    rw [name_written]
    by_contra hskipped
    have hnone := h.skipped _ ht (by simpa using hskipped)
    refine hshapes _ ht ⟨rfl, ?_⟩
    unfold keyNames
    rw [hnone]
    simp
  have hkey : ∀ name ∈ [first, second], entityName (pluralize (modelName name)) = name
      ∧ pluralize (modelName name) ∈ (inferFromDiagram d).storageNames :=
    fun name hname => h.entityName_key hparsed hr hname hname
  obtain ⟨a, b, hperm, heq⟩ := relationshipsOf_written_pivot (h.isPivot_written ht) hskip
    (hshapes _ ht) fun name hname => (hkey name hname).2
  rw [(hkey a (hperm.subset List.mem_cons_self)).1,
    (hkey b (hperm.subset (List.mem_cons_of_mem _ List.mem_cons_self))).1] at heq
  exact ⟨_, heq, kindAndKey_manyToMany hperm⟩

/-- **Each joined pair is found as that of its pivot**, and nothing else is. -/
theorem Convertible.mem_contributed_pivotsOf {k : Relationship.Kind × String} :
    (∃ p ∈ pivotsOf d.relationships, ∃ r ∈ contributed o d p, kindAndKey r = k)
      ↔ ∃ first second custom, .manyToMany first second custom ∈ d.relationships
        ∧ kindAndKey (.manyToMany first second custom) = k := by
  constructor
  · rintro ⟨p, hp, r, hr, rfl⟩
    obtain ⟨first, second, custom, hmem, rfl⟩ := eq_of_mem_pivotsOf hp
    obtain ⟨s, heq, hsame⟩ := h.contributed_pivot hparsed hshapes hmem hp
    rw [heq] at hr
    rw [List.mem_singleton.mp hr]
    exact ⟨first, second, custom, hmem, hsame.symm⟩
  · rintro ⟨first, second, custom, hmem, rfl⟩
    obtain ⟨p, hp, hname⟩ := List.any_eq_true.mp (any_pivotsOf hmem _ rfl)
    obtain ⟨first', second', custom', hmem', rfl⟩ := eq_of_mem_pivotsOf hp
    obtain ⟨r, heq, hsame⟩ := h.contributed_pivot hparsed hshapes hmem' hp
    have hname : pivotName first' second' custom' = pivotName first second custom :=
      beq_iff_eq.mp hname
    have hperm := h.shared _ _ _ _ _ _ hmem' hmem hname
    refine ⟨_, hp, r, ?_, hsame.trans (kindAndKey_manyToMany hperm)⟩
    rw [heq]
    exact List.mem_singleton_self r

/-- **The relationships of the migrations** are those of the diagram, stated plainly. -/
theorem Convertible.mem_kindAndKey {k : Relationship.Kind × String} :
    k ∈ (inferFromMigrations o ((inferFromDiagram d).tables.map
        (written o (inferFromDiagram d).storageNames))).relationships.map kindAndKey
      ↔ k ∈ ((inferFromDiagram d).relationships.map plainly).map kindAndKey := by
  have hplainly : ∀ r, kindAndKey (plainly (named r)) = kindAndKey (plainly r) := by
    intro r
    cases r <;> rfl
  have hkept : k ∈ ((inferFromDiagram d).relationships.map plainly).map kindAndKey
      ↔ ∃ r ∈ d.relationships, kindAndKey (plainly r) = k := by
    rw [h.relationships hparsed, List.map_map, List.map_map, List.mem_map]
    simp only [Function.comp_apply, hplainly]
  rw [hkept, List.mem_map]
  constructor
  · rintro ⟨r, hr, rfl⟩
    rcases (h.mem_relationships hparsed).mp hr with hlinked | ⟨p, hp, hr⟩
    · obtain ⟨l, hl, rfl⟩ := (h.mem_contributed_linkAll hparsed).mp hlinked
      obtain ⟨s, hs, hlink⟩ := List.mem_filterMap.mp hl
      exact ⟨s, hs, by rw [plainly_of_link?.mp hlink]⟩
    · obtain ⟨first, second, custom, hmem, hsame⟩ :=
        (h.mem_contributed_pivotsOf hparsed hshapes).mp ⟨p, hp, r, hr, rfl⟩
      exact ⟨_, hmem, hsame⟩
  · rintro ⟨r, hr, rfl⟩
    cases r with
    | oneToOne parent child | oneToMany parent child =>
      have hl : (parent, child) ∈ links d.relationships := List.mem_filterMap.mpr ⟨_, hr, rfl⟩
      have hlinked := (h.mem_contributed_linkAll hparsed).mpr ⟨_, hl, rfl⟩
      exact ⟨_, (h.mem_relationships hparsed).mpr (Or.inl hlinked), rfl⟩
    | manyToMany first second custom =>
      obtain ⟨p, hp, s, hs, hsame⟩ :=
        (h.mem_contributed_pivotsOf hparsed hshapes).mpr ⟨first, second, custom, hr, rfl⟩
      exact ⟨s, (h.mem_relationships hparsed).mpr (Or.inr ⟨p, hp, hs⟩), hsame⟩

end Shapes

end Convertible

/-- **The relationships of a diagram survive being migrations.** Where a convertible diagram is
written as migrations, these are read, and their schema has relationships of the same kinds and keys
as the schema of the diagram, except that one-to-one relationships are one-to-many. -/
theorem relationships_through_migrations {o : Options} {startedAt : Timestamp} {text : String}
    {files : List GeneratedFile} (h : ∀ d, Document.parse text = .ok d → Convertible o d)
    (hfiles : migrationsOfDiagram o startedAt text = .ok files) :
    ∃ s s', schemaOfDiagram text = .ok s
      ∧ schemaOfMigrations o (files.map GeneratedFile.content) [] = .ok s'
      ∧ ∀ k, k ∈ s'.relationships.map kindAndKey
        ↔ k ∈ (s.relationships.map plainly).map kindAndKey := by
  obtain ⟨s, hs, hwritten⟩ := writeTables_of_migrationsOfDiagram hfiles
  have hschema := hs
  unfold schemaOfDiagram at hs
  obtain ⟨d, hd, hs⟩ := bind_eq_ok.mp hs
  obtain rfl : inferFromDiagram d = s := Except.ok.inj hs
  have hconvertible := h d hd
  have hparsed := parsedDocument hd
  obtain ⟨hcontents, hshapes⟩ := contents_of_writeTables hwritten
  refine ⟨inferFromDiagram d, _, hschema, ?_, fun k => hconvertible.mem_kindAndKey hparsed hshapes⟩
  rw [hcontents]
  exact schemaOfMigrations_contents fun t ht => hconvertible.writable hparsed ht

/-- Users with their profiles, and posts with tags. -/
def communityText : String :=
  "entity User \x7b
  * id : bigint
  name : varchar(80) NOT NULL
\x7d
entity Profile \x7b
  * user_id : bigint
\x7d
entity Post
entity Tag
User ||--|| Profile
User ||--o\x7b Post
Post \x7do--o\x7b Tag
"

/-- What the text draws. -/
def drawnCommunity : Document :=
  { tables :=
      [{ name := "User"
         columns := [idColumn, { name := "name", size := some 80, nullable := false }] },
       { name := "Profile", columns := [{ idColumn with name := "user_id" }] },
       { name := "Post" }, { name := "Tag" }]
    relationships :=
      [.oneToOne "User" "Profile", .oneToMany "User" "Post", .manyToMany "Post" "Tag" none] }

/-- The tables of the schema of the text. -/
def communityTables : List Table :=
  [{ name := "User"
     columns := [idColumn, { name := "name", size := some 80, nullable := false }] },
   { name := "Profile"
     columns := [{ idColumn with name := "user_id", foreignKey := some { table := "users" } }] },
   { name := "Post"
     columns :=
      [{ name := "user_id", type := .bigint, nullable := false
         foreignKey := some { table := "users" } }] },
   { name := "Tag" },
   { name := "post_tag"
     columns :=
      [idColumn,
       { name := "post_id", type := .bigint, nullable := false
         foreignKey := some { table := "posts" } },
       { name := "tag_id", type := .bigint, nullable := false
         foreignKey := some { table := "tags" } }]
     isPivot := true }]

set_option maxRecDepth 8000 in
theorem parse_communityText : Document.parse communityText = .ok drawnCommunity := by
  unfold Document.parse communityText
  rw [String.toList_ofList]
  decide

theorem synthesizePivot_posts :
    synthesizePivot "Post" "Tag" none
      = { name := "post_tag"
          columns := [idColumn, Column.keyTo "post", Column.keyTo "tag"]
          isPivot := true } := by
  have hpost : modelName "Post" = "post" := by decide
  have htag : modelName "Tag" = "tag" := by decide
  have hsorted : sorted ["post", "tag"] = ["post", "tag"] :=
    List.mergeSort_of_pairwise (by decide)
  rw [synthesizePivot_of_sorted hpost htag hsorted (by decide),
    pivotName_of_sorted hpost htag hsorted]
  rfl

theorem tables_community : (inferFromDiagram drawnCommunity).tables = communityTables := by
  have hfree : ∀ r ∈ drawnCommunity.relationships, Unadopted drawnCommunity.tables r :=
    fun _ _ => unadopted_of_capitalized (by decide)
  have hmeant : meant drawnCommunity.tables drawnCommunity.relationships
      = drawnCommunity.relationships := by decide
  have hpivots : pivotsOf drawnCommunity.relationships = [synthesizePivot "Post" "Tag" none] := rfl
  rw [(inferFromDiagram_eq (by decide) (forall_mem_meant hfree)).1, hmeant, hpivots,
    synthesizePivot_posts]
  decide +kernel

theorem convertible_community : Convertible {} drawnCommunity := by
  have hnames : (inferFromDiagram drawnCommunity).storageNames
      = ["users", "profiles", "posts", "tags", "post_tag"] := by
    unfold Schema.storageNames
    rw [tables_community]
    decide
  constructor
  case system => rfl
  case indent => decide
  case entities => decide
  case ends => decide
  case keys => decide
  case apart => decide
  case shared =>
    intro first second custom first' second' custom' hr hs _
    simp only [drawnCommunity, List.mem_cons, reduceCtorEq, Relationship.manyToMany.injEq,
      List.not_mem_nil, or_false, false_or] at hr hs
    obtain ⟨rfl, rfl, rfl⟩ := hr
    obtain ⟨rfl, rfl, rfl⟩ := hs
    exact .refl _
  case pivots =>
    rw [tables_community]
    decide +kernel
  case words =>
    unfold Schema.pivotTables
    rw [tables_community]
    decide +kernel
  case skipped =>
    rw [tables_community]
    decide +kernel
  case unmarked =>
    rw [tables_community, hnames]
    decide +kernel

theorem relationships_through_migrations_community :
    ∃ files, (∀ d, Document.parse communityText = .ok d → Convertible {} d)
      ∧ migrationsOfDiagram {} ⟨2024, 3, 5, 14, 7, 9⟩ communityText = .ok files
      ∧ ∃ s s', schemaOfDiagram communityText = .ok s
        ∧ schemaOfMigrations {} (files.map GeneratedFile.content) [] = .ok s'
        ∧ ∀ k, k ∈ s'.relationships.map kindAndKey
          ↔ k ∈ (s.relationships.map plainly).map kindAndKey := by
  have hconvertible : ∀ d, Document.parse communityText = .ok d → Convertible {} d := by
    intro d hd
    rw [← Except.ok.inj (parse_communityText.symm.trans hd)]
    exact convertible_community
  have hschema : schemaOfDiagram communityText = .ok (inferFromDiagram drawnCommunity) := by
    unfold schemaOfDiagram
    rw [parse_communityText]
    rfl
  obtain ⟨files, hfiles⟩ : ∃ files,
      migrationsOfDiagram {} ⟨2024, 3, 5, 14, 7, 9⟩ communityText = .ok files := by
    refine exists_migrationsOfDiagram hschema ?_ ?_ <;>
      · rw [tables_community]
        decide +kernel
  exact ⟨files, hconvertible, hfiles, relationships_through_migrations hconvertible hfiles⟩

/-! ### Relationships that do not survive -/

/-- A diagram in Pascal case that is named by convention and draws all ends of its lines has
migrations, and they have other relationships. -/
def AltersRelationships (text : String) : Prop :=
  ∃ d files s s', Document.parse text = .ok d
    ∧ (∀ t ∈ d.tables, IsCapitalized t.name ∧ entityName (tableName t.name) = t.name)
    ∧ (∀ r ∈ d.relationships, ∀ name ∈ r.ends, name ∈ d.tables.map Table.name)
    ∧ migrationsOfDiagram {} ⟨2024, 3, 5, 14, 7, 9⟩ text = .ok files
    ∧ schemaOfDiagram text = .ok s
    ∧ schemaOfMigrations {} (files.map GeneratedFile.content) [] = .ok s'
    ∧ ¬∀ k, k ∈ s'.relationships.map kindAndKey ↔ k ∈ s.relationships.map kindAndKey

theorem altersRelationships_of_parse {text : String} {d : Document}
    (hparse : Document.parse text = .ok d)
    (hentities : ∀ t ∈ d.tables, IsCapitalized t.name ∧ entityName (tableName t.name) = t.name)
    (hends : ∀ r ∈ d.relationships, ∀ name ∈ r.ends, name ∈ d.tables.map Table.name)
    (htables : ∀ t ∈ (inferFromDiagram d).tables, t.isPivot = false ∧ IsName t.storageName
      ∧ (∀ c ∈ t.columns, c.name ≠ "") ∧ (∀ k ∈ keysOf t, k.2.table ≠ "" ∧ k.2.column ≠ "")
      ∧ ∀ s ∈ writtenStrings {} (some (inferFromDiagram d).storageNames) t, Unmarked s)
    (htime : ∀ i < (inferFromDiagram d).tables.length,
      (Timestamp.later? i ⟨2024, 3, 5, 14, 7, 9⟩).isSome = true)
    (k : Relationship.Kind × String)
    (hne : ¬(k ∈ (inferFromMigrations {} ((inferFromDiagram d).tables.map
        (written {} (inferFromDiagram d).storageNames))).relationships.map kindAndKey
      ↔ k ∈ (inferFromDiagram d).relationships.map kindAndKey)) : AltersRelationships text := by
  have hschema := schemaOfDiagram_of_parse hparse
  have hshapes : ∀ t ∈ (inferFromDiagram d).tables, ¬IsMisshapen t := by
    rintro t ht ⟨hpivot, -⟩
    rw [(htables t ht).1] at hpivot
    exact absurd hpivot (by simp)
  have hwritable : ∀ t ∈ (inferFromDiagram d).tables,
      Writable {} (some (inferFromDiagram d).storageNames) t := by
    intro t ht
    have htidy := (sound_inferFromDiagram (parsedDocument hparse)).2 t ht
    obtain ⟨-, hname, hcolumns, hkeys, hunmarked⟩ := htables t ht
    exact ⟨by decide, hname, hcolumns, htidy.distinct, hkeys, hunmarked⟩
  obtain ⟨files, hfiles⟩ := exists_migrationsOfDiagram hschema hshapes htime
  obtain ⟨s, hs, hwritten⟩ := writeTables_of_migrationsOfDiagram hfiles
  obtain rfl : inferFromDiagram d = s := Except.ok.inj (hschema.symm.trans hs)
  refine ⟨d, files, _, _, hparse, hentities, hends, hfiles, hschema, ?_, fun hall => hne (hall k)⟩
  rw [(contents_of_writeTables hwritten).1]
  exact schemaOfMigrations_contents hwritable

/-- A diagram without columns. -/
def sketched (names : List String) (relationships : List Relationship) : Document :=
  { tables := names.map fun name => { name }, relationships }

/-- A user has one profile. -/
def profileText : String :=
  "entity User
entity Profile
User ||--|| Profile
"

/-- An alias has entries; its keys lead to `alias`, which is not its table. -/
def aliasText : String :=
  "entity Alias
entity Entry
Alias ||--o\x7b Entry
"

/-- Items of orders, which have the name and the columns of a pivot. -/
def itemText : String :=
  "entity Order
entity Product
entity OrderItem
Order ||--o\x7b OrderItem
Product ||--o\x7b OrderItem
"

/-- Sessions of users; the framework has a table of this name. -/
def sessionText : String :=
  "entity User
entity Session
User ||--o\x7b Session
"

/-- An entity that answers to the name of another behind it. -/
def namesakeText : String :=
  "entity User
entity Orderitem
entity OrderItem
User ||--o\x7b OrderItem
"

set_option maxRecDepth 8000 in
/-- A one-to-one relationship does not come back as such. Others get lost if the key does not lead to
its table, if the child is taken for a pivot or for a table of the framework, or if another table
answers to the name of the child first. -/
theorem relationships_through_migrations_ne :
    AltersRelationships profileText ∧ AltersRelationships aliasText ∧ AltersRelationships itemText
      ∧ AltersRelationships sessionText ∧ AltersRelationships namesakeText := by
  refine ⟨
    altersRelationships_of_parse (d := sketched ["User", "Profile"] [.oneToOne "User" "Profile"])
      ?_ ?_ ?_ ?_ ?_ (.oneToOne, "User-Profile") ?_,
    altersRelationships_of_parse (d := sketched ["Alias", "Entry"] [.oneToMany "Alias" "Entry"])
      ?_ ?_ ?_ ?_ ?_ (.oneToMany, "Alias-Entry") ?_,
    altersRelationships_of_parse (d := sketched ["Order", "Product", "OrderItem"]
        [.oneToMany "Order" "OrderItem", .oneToMany "Product" "OrderItem"])
      ?_ ?_ ?_ ?_ ?_ (.oneToMany, "Order-OrderItem") ?_,
    altersRelationships_of_parse (d := sketched ["User", "Session"] [.oneToMany "User" "Session"])
      ?_ ?_ ?_ ?_ ?_ (.oneToMany, "User-Session") ?_,
    altersRelationships_of_parse (d := sketched ["User", "Orderitem", "OrderItem"]
        [.oneToMany "User" "OrderItem"])
      ?_ ?_ ?_ ?_ ?_ (.oneToMany, "User-OrderItem") ?_⟩ <;>
    decide +kernel

end Crowsfoot.Inference
