import Crowsfoot.Proofs.Inference.Accounts
import Crowsfoot.Proofs.Inference.Written
import Crowsfoot.Proofs.Naming.Entities

/-!
# Foreign keys lead to tables

Four conventions say which table a foreign key refers to: that for the name of its column, that for
the key of a child (`Table.ensureKey`), that for the keys of a pivot (`synthesizePivot`), and that for
the name a table is stored under. `constraints_of_singular_entities`: for a singular entity in Pascal
case they agree (`RefersTo`).

So the key that a line puts on its child leads to a table of the schema, and the migration of the
child has the constraint (`keyStatement_infix_contentOf`).
-/

namespace Crowsfoot.Inference

open Crowsfoot.Diagram Crowsfoot.Migration Crowsfoot.Naming

/-! ## References to entities -/

/-- A table has the key column of an entity, which refers to the table that the entity is stored
in. -/
def RefersTo (t : Table) (entity : String) : Prop :=
  ∃ c, t.column? (snake entity ++ keySuffix) = some c
    ∧ c.foreignKey = some { table := ({ name := entity } : Table).storageName }

section Entities

variable {entity : String} (hpascal : IsPascal entity) (hsingular : isSingular entity = true)
include hpascal hsingular

/-- The conventional reference to a model leads to the table of the entity. -/
theorem toModel_modelName :
    ForeignKey.toModel (modelName entity)
      = { table := ({ name := entity } : Table).storageName } := by
  have hdomain : ({ name := entity } : Table).storageName = tableName entity :=
    Table.storageName_of_domain rfl
  rw [ForeignKey.toModel, pluralize_modelName hpascal hsingular, hdomain]

theorem refersTo_iff {t : Table} :
    RefersTo t entity ↔ ∃ c, t.column? (foreignKeyName entity) = some c
      ∧ c.foreignKey = some (.toModel (modelName entity)) := by
  unfold RefersTo foreignKeyName
  rw [toModel_modelName hpascal hsingular, modelName_of_singular hsingular]

/-- A key that is ensured refers to its entity, unless the column has another one. -/
theorem refersTo_ensureKey {child : Table}
    (hfree : ∀ c, child.column? (foreignKeyName entity) = some c → c.foreignKey = none) :
    RefersTo (child.ensureKey entity) entity := by
  rw [refersTo_iff hpascal hsingular]
  unfold Table.column? at hfree ⊢
  rw [columns_ensureKey]
  by_cases hthere : modelName entity ++ keySuffix ∈ child.columns.map Column.name
  · obtain ⟨c, hc⟩ : ∃ c, findColumn? child.columns (foreignKeyName entity) = some c :=
      Table.exists_column? hthere
    refine ⟨c.withKey (.toModel (modelName entity)), ?_, ?_⟩
    · rw [if_pos hthere]
      unfold foreignKeyName at hc ⊢
      rw [findColumn?_modifyColumn (fun c => name_withKey c _), hc, Option.map_some]
    · rw [withKey_eq, hfree c hc, Option.none_or]
  · have hnone : findColumn? child.columns (foreignKeyName entity) = none := by
      unfold findColumn?
      refine List.find?_eq_none.mpr fun c hc hname => hthere ?_
      exact List.mem_map.mpr ⟨c, hc, beq_iff_eq.mp hname⟩
    refine ⟨.keyTo (modelName entity), ?_, rfl⟩
    rw [if_neg hthere]
    unfold findColumn? at hnone ⊢
    rw [List.find?_append, hnone, Option.none_or, List.find?_singleton]
    exact if_pos (beq_self_eq_true (foreignKeyName entity))

/-- Each of the keys of a pivot refers to its entity. -/
theorem refersTo_synthesizePivot {first second : String} (custom : Option String)
    (hend : entity = first ∨ entity = second) :
    RefersTo (synthesizePivot first second custom) entity := by
  have hmodel : modelName entity ∈ joinedModels first second :=
    mem_joinedModels.mpr (hend.imp (congrArg modelName) (congrArg modelName))
  rw [refersTo_iff hpascal hsingular]
  exact ⟨_, column?_synthesizePivot hmodel, rfl⟩

end Entities

/-! ## Constraints in migrations -/

/-- What a slot is filled with is part of the migration. -/
theorem section_infix_fillSkeleton {sections : Template.Sections} {name text : String}
    (hslot : .slot name ∈ skeleton) (htext : sections.lookup name = some text) :
    text.toList <:+: (fillSkeleton sections).toList := by
  have hpiece : pieceText sections (.slot name) = text.toList := by
    unfold pieceText
    dsimp only
    rw [htext, Option.getD_some]
  rw [toList_fillSkeleton_pieces, ← hpiece, List.flatMap_def]
  exact List.infix_of_mem_flatten (List.mem_map_of_mem hslot)

/-- A statement is part of the lines that it is written in. -/
theorem statement_infix_join (o : Options) {statement : String} {lines : List String}
    (h : statement ∈ lines) :
    statement.toList <:+: (String.join (lines.map (indented o))).toList := by
  have hline : statement.toList <:+: (indented o statement).toList := by
    unfold indented
    split
    · rename_i hempty
      rw [String.isEmpty_iff.mp hempty]
      exact List.nil_infix
    · rw [String.toList_append, String.toList_append, List.append_assoc]
      exact ⟨o.indent.toList, "\n".toList, List.append_assoc _ _ _⟩
  rw [String.toList_join, List.flatMap_map, List.flatMap_def]
  exact hline.trans (List.infix_of_mem_flatten (List.mem_map.mpr ⟨statement, h, rfl⟩))

/-- **A constraint whose target is known is part of the migration.** -/
theorem keyStatement_infix_contentOf {o : Options} {known : List String} {t : Table} {c : Column}
    {key : ForeignKey} (hc : c ∈ t.columns) (hkey : c.foreignKey = some key)
    (hknown : key.table ∈ known) :
    (keyStatement o c key).toList <:+: (contentOf o (some known) t).toList := by
  have hkeys : (c, key) ∈ knownKeys (some known) t := by
    refine List.mem_filter.mpr ⟨mem_keysOf.mpr ⟨hc, hkey⟩, ?_⟩
    exact List.contains_iff_mem.mpr hknown
  have hline : keyStatement o c key ∈ statementLines o (some known) t := by
    unfold statementLines
    rw [if_neg (by rw [List.isEmpty_iff]; exact List.ne_nil_of_mem hkeys)]
    refine List.mem_append_left _ (List.mem_append_right _ (List.mem_cons_of_mem _ ?_))
    exact List.mem_map.mpr ⟨_, hkeys, rfl⟩
  have hslot : .slot "columns" ∈ skeleton := by
    rw [skeleton_eq]
    simp only [List.mem_append, List.mem_cons, true_or, or_true]
  unfold contentOf
  exact (statement_infix_join o hline).trans (section_infix_fillSkeleton hslot rfl)

/-! ## Children in the schema of a diagram -/

/-- Naming the pivots of relationships leaves links alone. -/
theorem mem_links_of_named {rs : List Relationship} {parent child : String}
    (h : .oneToOne parent child ∈ rs.map named ∨ .oneToMany parent child ∈ rs.map named) :
    (parent, child) ∈ links rs := by
  obtain ⟨r, hr, hlink⟩ : ∃ r ∈ rs.map named, link? r = some (parent, child) :=
    h.elim (fun h => ⟨_, h, rfl⟩) fun h => ⟨_, h, rfl⟩
  obtain ⟨s, hs, rfl⟩ := List.mem_map.mp hr
  cases s with
  | oneToOne | oneToMany => exact List.mem_filterMap.mpr ⟨_, hs, hlink⟩
  | manyToMany => exact nomatch hlink

/-! ## Diagrams of singular entities -/

/-- **Foreign keys lead to the tables of their entities.** For a singular entity in Pascal case the
conventions agree: the table that a foreign key column is named for, the one that an ensured key
refers to and the one that the key of a pivot refers to are the table that the entity is stored in.
So in the schema of a diagram of such entities, the child of a line has the key column of its parent,
which refers to a table of the schema, and the migration of the child has the constraint. -/
theorem constraints_of_singular_entities :
    (∀ entity, IsPascal entity → isSingular entity = true →
      tableOfForeignKey (foreignKeyName entity) = ({ name := entity } : Table).storageName
        ∧ (∀ child : Table,
          (∀ c, child.column? (foreignKeyName entity) = some c → c.foreignKey = none) →
          RefersTo (child.ensureKey entity) entity)
        ∧ ∀ other custom, RefersTo (synthesizePivot entity other custom) entity
          ∧ RefersTo (synthesizePivot other entity custom) entity)
    ∧ ∀ text d s, Document.parse text = .ok d → schemaOfDiagram text = .ok s →
      (∀ t ∈ d.tables, IsPascal t.name ∧ isSingular t.name = true) →
      ∀ parent ∈ d.tables.map Table.name, ∀ child,
        .oneToOne parent child ∈ s.relationships ∨ .oneToMany parent child ∈ s.relationships →
        ∃ t c, s.table? child = some t ∧ t.column? (snake parent ++ keySuffix) = some c
          ∧ c.foreignKey = some { table := tableName parent }
          ∧ tableName parent ∈ s.storageNames
          ∧ ∀ o startedAt files, migrationsOfDiagram o startedAt text = .ok files →
            ∃ file ∈ files, file.table = t.storageName
              ∧ (keyStatement o c { table := tableName parent }).toList
                <:+: file.content.toList := by
  constructor
  · intro entity hpascal hsingular
    refine ⟨?_, fun child => refersTo_ensureKey hpascal hsingular, fun other custom =>
      ⟨refersTo_synthesizePivot hpascal hsingular custom (Or.inl rfl),
        refersTo_synthesizePivot hpascal hsingular custom (Or.inr rfl)⟩⟩
    rw [tableOfForeignKey_foreignKeyName, pluralize_modelName hpascal hsingular,
      Table.storageName_of_domain rfl]
  · intro text d s hparse hschema hnames parent hparent child hr
    obtain rfl : inferFromDiagram d = s :=
      Except.ok.inj ((schemaOfDiagram_of_parse hparse).symm.trans hschema)
    have hparsed := parsedDocument hparse
    have hdomain : ∀ t ∈ d.tables, t.isPivot = false := fun t ht => (hparsed.tables t ht).domain
    have hfree : ∀ r ∈ meant d.tables d.relationships, Unadopted d.tables r :=
      fun _ _ => unadopted_of_capitalized fun t ht => (hnames t ht).1.isCapitalized
    have hrelationships := (inferFromDiagram_eq hdomain hfree).2
    have hlink : (parent, child) ∈ links (meant d.tables d.relationships) := by
      rw [hrelationships] at hr
      exact mem_links_of_named hr
    obtain ⟨t, c, hfound, hc, hkey⟩ := exists_column_of_link hparsed hfree hlink
    obtain ⟨u, hu, rfl⟩ := List.mem_map.mp hparent
    obtain ⟨hpascal, hsingular⟩ := hnames u hu
    rw [foreignKeyName, modelName_of_singular hsingular] at hc
    rw [toModel_modelName hpascal hsingular, Table.storageName_of_domain rfl] at hkey
    have hknown := tableName_mem_storageNames hdomain hfree hparent
    refine ⟨t, c, hfound, hc, hkey, hknown, fun o startedAt files hfiles => ?_⟩
    obtain ⟨s, hs, hwritten⟩ := writeTables_of_migrationsOfDiagram hfiles
    obtain rfl : inferFromDiagram d = s := Except.ok.inj (hschema.symm.trans hs)
    obtain ⟨file, hfile, at_, rfl⟩ :=
      exists_file_of_writeTables hwritten (List.mem_of_find?_eq_some hfound)
    refine ⟨_, hfile, rfl, ?_⟩
    rw [fileOf_content]
    exact keyStatement_infix_contentOf (Table.column?_eq_some hc).1 hkey hknown

/-- Orders with their items. -/
def ordersText : String :=
  "entity Order
entity OrderItem
Order ||--o\x7b OrderItem
"

/-- What the text draws. -/
def drawnOrders : Document :=
  { tables := [{ name := "Order" }, { name := "OrderItem" }]
    relationships := [.oneToMany "Order" "OrderItem"] }

set_option maxRecDepth 8000 in
theorem parse_ordersText : Document.parse ordersText = .ok drawnOrders := by
  unfold Document.parse ordersText
  rw [String.toList_ofList]
  decide

theorem constraints_of_singular_entities_orders :
    tableOfForeignKey (foreignKeyName "OrderItem") = ({ name := "OrderItem" } : Table).storageName
      ∧ ∃ s files t c, schemaOfDiagram ordersText = .ok s
        ∧ migrationsOfDiagram {} ⟨2024, 3, 5, 14, 7, 9⟩ ordersText = .ok files
        ∧ s.table? "OrderItem" = some t ∧ t.column? (snake "Order" ++ keySuffix) = some c
        ∧ ∃ file ∈ files, file.table = t.storageName
          ∧ (keyStatement {} c { table := tableName "Order" }).toList <:+: file.content.toList := by
  have horder : IsPascal "Order" ∧ isSingular "Order" = true :=
    ⟨⟨["Order".toList], by decide⟩, by decide⟩
  have hitem : IsPascal "OrderItem" ∧ isSingular "OrderItem" = true :=
    ⟨⟨["Order".toList, "Item".toList], by decide⟩, by decide⟩
  have hnames : ∀ t ∈ drawnOrders.tables, IsPascal t.name ∧ isSingular t.name = true :=
    List.forall_mem_cons.mpr ⟨horder, List.forall_mem_singleton.mpr hitem⟩
  have hschema := schemaOfDiagram_of_parse parse_ordersText
  obtain ⟨files, hfiles⟩ : ∃ files,
      migrationsOfDiagram {} ⟨2024, 3, 5, 14, 7, 9⟩ ordersText = .ok files := by
    refine exists_migrationsOfDiagram hschema ?_ ?_ <;> decide
  obtain ⟨hconventions, hconstraints⟩ := constraints_of_singular_entities
  obtain ⟨t, c, hfound, hc, -, -, hwritten⟩ := hconstraints _ _ _ parse_ordersText hschema hnames
    "Order" (by decide) "OrderItem" (Or.inr (by decide))
  exact ⟨(hconventions "OrderItem" hitem.1 hitem.2).1, _, files, t, c, hschema, hfiles, hfound, hc,
    hwritten {} ⟨2024, 3, 5, 14, 7, 9⟩ files hfiles⟩

end Crowsfoot.Inference
