import Crowsfoot.Proofs.Inference.Sound

/-!
# What is inferred from generated migrations

The migration of a table creates `written` of it, and what is inferred from that can be said of the
table itself.

* `mem_references_written`: its references are those of the table that lead to known tables. A key
  keeps its column, whichever statement that column is made by.
* `mem_relationshipsOf_written`: a domain table contributes a one-to-many relationship for each of
  them. None is one-to-one, since no migration says that a key is unique by itself.
* `relationshipsOf_written_pivot`: the pivot of two entities contributes that they are joined.
* `contents_of_writeTables`: files that were written are those of their tables, one each.
-/

namespace Crowsfoot.Inference

open Crowsfoot.Migration Crowsfoot.Naming

/-- The table that the migration of a table creates, where tables of these names are known. -/
def written (o : Options) (known : List String) (t : Table) : CreatedTable :=
  writtenTable o (some known) t none

variable {o : Options} {known : List String} {t u : Table}

theorem name_written : (written o known t).name = t.storageName := rfl

theorem entityName_written : (written o known t).entityName = entityName t.storageName := by
  unfold CreatedTable.entityName
  rw [name_written]

/-! ## References -/

theorem mem_references {ref : String × String} :
    ref ∈ references u
      ↔ ∃ c ∈ u.columns, ∃ key, c.foreignKey = some key ∧ (c.name, key.table) = ref := by
  unfold references
  rw [List.mem_filterMap]
  simp only [Option.map_eq_some_iff]

theorem mem_keyFacts {fact : KeyFact} :
    fact ∈ keyFacts (some known) t
      ↔ ∃ c ∈ t.columns, ∃ key, c.foreignKey = some key ∧ key.table ∈ known
        ∧ { column := c.name, on := key.table, references := key.column } = fact := by
  unfold keyFacts knownKeys
  simp only [List.mem_map, List.mem_filter, isKnown, List.contains_iff_mem, Prod.exists,
    mem_keysOf, and_assoc]
  constructor
  · rintro ⟨c, key, hc, hkey, hknown, hfact⟩
    exact ⟨c, hc, key, hkey, hknown, hfact⟩
  · rintro ⟨c, hc, key, hkey, hknown, hfact⟩
    exact ⟨c, key, hc, hkey, hknown, hfact⟩

/-- What is erased is what is found first. -/
theorem eq_or_mem_eraseP {α : Type} {p : α → Bool} {xs : List α} {x y : α}
    (hfind : xs.find? p = some x) (hy : y ∈ xs) : y = x ∨ y ∈ xs.eraseP p := by
  induction xs with
  | nil => exact absurd hy (by simp)
  | cons z xs ih =>
    rw [List.find?_cons] at hfind
    cases hz : p z with
    | true =>
      rw [hz] at hfind
      rw [List.eraseP_cons_of_pos hz, ← Option.some.inj hfind]
      exact List.mem_cons.mp hy
    | false =>
      rw [hz] at hfind
      rw [List.eraseP_cons_of_neg (by simp [hz])]
      rcases List.mem_cons.mp hy with rfl | hy
      · exact Or.inr List.mem_cons_self
      · exact (ih hfind hy).imp_right (List.mem_cons_of_mem z)

/-- No column is lost: it is the primary key, is stated, or is provided. -/
theorem name_mem_writtenColumns {c : Column} (hc : c ∈ t.columns) :
    c.name ∈ (writtenColumns o t).map Column.name := by
  unfold writtenColumns
  rw [mem_names_foldl_addMissing, List.map_cons, List.map_map, List.mem_cons]
  by_cases hprovided : c.name ∈ providedColumns
  · right
    unfold providedColumns at hprovided
    simp only [List.mem_cons, List.not_mem_nil, or_false] at hprovided
    rcases hprovided with heq | heq | heq
    · exact List.mem_map.mpr ⟨timestampColumn "created_at", by simp [providedBy], heq.symm⟩
    · exact List.mem_map.mpr ⟨timestampColumn "updated_at", by simp [providedBy], heq.symm⟩
    · rw [heq, mem_names_providedBy_softDeletes, hasSoftDeletes_iff]
      exact Or.inl (heq ▸ List.mem_map_of_mem hc)
  · left
    have hothers : c ∈ t.columns.eraseP Column.primary →
        c ∈ (t.columns.eraseP Column.primary).filter fun c => !providedColumns.contains c.name :=
      fun h => List.mem_filter.mpr ⟨h, by simpa using hprovided⟩
    cases hp : t.primary? with
    | none =>
      have hall := List.find?_eq_none.mp hp
      by_cases hid : c.name = "id"
      · exact Or.inl (hid.trans (writtenPrimary_name_of_none hp).symm)
      · refine Or.inr (List.mem_map.mpr ⟨c, ?_, rfl⟩)
        unfold statedColumns
        rw [hp]
        refine List.mem_filter.mpr ⟨hothers ?_, by simpa using hid⟩
        rwa [List.eraseP_of_forall_not hall]
    | some p =>
      rw [writtenPrimary_name_of_some hp]
      rcases eq_or_mem_eraseP hp hc with rfl | herased
      · exact Or.inl rfl
      · refine Or.inr (List.mem_map.mpr ⟨c, ?_, rfl⟩)
        unfold statedColumns
        rw [hp]
        exact hothers herased

/-- **The references that are read back** are those to known tables. -/
theorem mem_references_written (hdistinct : (t.columns.map Column.name).Nodup)
    (hu : u.columns = (written o known t).columns) {ref : String × String} :
    ref ∈ references u ↔ ref ∈ references t ∧ ref.2 ∈ known := by
  have hcolumns : u.columns = (writtenColumns o t).map (withFact (keyFacts (some known) t)) := hu
  rw [mem_references, mem_references, hcolumns]
  constructor
  · rintro ⟨c, hc, key, hkey, rfl⟩
    obtain ⟨d, hd, rfl⟩ := List.mem_map.mp hc
    unfold withFact at hkey
    split at hkey
    · rename_i fact hfact
      have hname : fact.column = d.name := by simpa using List.find?_some hfact
      obtain ⟨e, he, key', hkey', hknown, rfl⟩ :=
        mem_keyFacts.mp (List.mem_of_find?_eq_some hfact)
      rw [withFact_name, ← Option.some.inj hkey]
      exact ⟨⟨e, he, key', hkey', Prod.ext hname rfl⟩, hknown⟩
    · rw [foreignKey_writtenColumns o t d hd] at hkey
      exact nomatch hkey
  · rintro ⟨⟨c, hc, key, hkey, rfl⟩, hknown⟩
    obtain ⟨d, hd, hname⟩ := List.mem_map.mp (name_mem_writtenColumns (o := o) hc)
    refine ⟨withFact (keyFacts (some known) t) d, List.mem_map_of_mem hd, ?_⟩
    have hthere := mem_keyFacts.mpr ⟨c, hc, key, hkey, hknown, rfl⟩
    cases hfind : (keyFacts (some known) t).find? fun fact => fact.column == d.name with
    | none =>
      exact absurd (List.find?_eq_none.mp hfind _ hthere) (by simp [hname])
    | some fact =>
      -- names are different, so the fact on the name is that of the column
      have hfact : fact.column = d.name := by simpa using List.find?_some hfind
      obtain ⟨e, he, key', hkey', -, rfl⟩ := mem_keyFacts.mp (List.mem_of_find?_eq_some hfind)
      obtain rfl : e = c := List.inj_on_of_nodup_map hdistinct he hc (hfact.trans hname)
      obtain rfl : key' = key := Option.some.inj (hkey'.symm.trans hkey)
      refine ⟨{ table := key'.table, column := key'.column }, ?_, ?_⟩
      · unfold withFact
        rw [hfind]
      · rw [withFact_name, hname]

/-! ## Domain tables -/

/-- A unique set of a generated migration has two columns. -/
theorem classify_uniqueSets (parent child column : String) :
    classify parent child column (uniqueSets t) = .oneToMany parent child := by
  have hnot : (uniqueSets t).contains [column] = false := by
    unfold uniqueSets
    split
    · rename_i hlength
      rw [List.contains_eq_mem, decide_eq_false_iff_not, List.mem_singleton]
      intro heq
      rw [← heq] at hlength
      exact absurd hlength (by simp)
    · rfl
  unfold classify
  rw [hnot, if_neg Bool.false_ne_true]

/-- A table without foreign keys has no references. -/
theorem references_eq_nil (h : t.keyColumns = []) : references t = [] := by
  unfold references
  rw [List.filterMap_eq_nil_iff]
  intro c hc
  unfold Table.keyColumns at h
  have := List.filter_eq_nil_iff.mp h c hc
  cases hkey : c.foreignKey with
  | none => rfl
  | some key => exact absurd (hkey ▸ rfl) this

/-- **A domain table contributes a one-to-many relationship** for each reference to a known table. -/
theorem mem_relationshipsOf_written (h : Tidy t) (hdomain : isPivot o (written o known t) = false)
    (hskip : isSkipped o (written o known t) = true → t.keyColumns = []) {r : Relationship} :
    r ∈ relationshipsOf o known (written o known t)
      ↔ ∃ ref ∈ references t, ref.2 ∈ known
        ∧ .oneToMany (entityName ref.2) (entityName t.storageName) = r := by
  unfold relationshipsOf
  by_cases hs : isSkipped o (written o known t) = true
  · rw [if_pos hs, references_eq_nil (hskip hs)]
    simp
  · have hsets : (written o known t).uniqueSets = uniqueSets t := rfl
    have hrefs : ∀ ref, ref ∈ references (tableOf o (written o known t))
        ↔ ref ∈ references t ∧ ref.2 ∈ known := by
      intro ref
      rw [tableOf_domain hdomain]
      exact mem_references_written h.distinct rfl
    have hkeyed : ∀ ref ∈ references t, isKeyName ref.1 = true := by
      intro ref href
      obtain ⟨c, hc, key, hkey, rfl⟩ := mem_references.mp href
      exact h.keys c hc (by rw [hkey]; simp)
    rw [if_neg hs]
    dsimp only
    rw [hdomain, if_neg Bool.false_ne_true, List.mem_map]
    simp only [hsets, classify_uniqueSets, entityName_written, List.mem_filter, hrefs,
      Bool.and_eq_true, List.contains_iff_mem]
    constructor
    · rintro ⟨ref, ⟨⟨href, hknown⟩, -⟩, hr⟩
      exact ⟨ref, href, hknown, hr⟩
    · rintro ⟨ref, href, hknown, hr⟩
      exact ⟨ref, ⟨⟨href, hknown⟩, hkeyed ref href, hknown⟩, hr⟩

/-! ## Pivots -/

/-- The references of a pivot that is read back as one are those of the pivot. -/
theorem references_written_pivot (hapart : KeysApart t)
    (hknown : knownKeys (some known) t = keysOf t)
    (hkeyed : ∀ c ∈ t.columns, c.hasKeyName = true → c.foreignKey ≠ none) (ht : t.isPivot = true)
    (hpivot : isPivot o (written o known t) = true) :
    references (tableOf o (written o known t)) = references t := by
  have hcolumns : (tableOf o (written o known t)).columns = (written o known t).columns := by
    rw [tableOf_pivot hpivot]
    exact map_conventionalKey_writtenTable hapart hknown hkeyed none
  have hrewrites : Rewrites o t (tableOf o (written o known t)) := by
    refine rewrites_of_columns hapart hknown none ?_ ?_ hcolumns
    · rw [tableOf_pivot hpivot, storageName_of_pivot, name_written]
    · rw [isPivot_tableOf, hpivot, ht]
  exact filterMap_of_rewrites hrewrites hapart (fun c hc => by rw [hc]; rfl) fun _ => rfl

section Pivots

variable {first second : String} {custom : Option String}

theorem storageName_synthesizePivot :
    (synthesizePivot first second custom).storageName = pivotName first second custom := rfl

theorem references_synthesizePivot :
    references (synthesizePivot first second custom)
      = (joinedModels first second).map fun model => (model ++ keySuffix, pluralize model) := by
  unfold references
  rw [columns_synthesizePivot, List.filterMap_cons_none rfl, List.filterMap_map,
    ← List.filterMap_eq_map]
  rfl

theorem keysApart_synthesizePivot : KeysApart (synthesizePivot first second custom) := by
  refine ⟨(tidy_synthesizePivot first second custom).distinct, ?_⟩
  intro c hc hkey
  rcases mem_columns_synthesizePivot.mp hc with rfl | ⟨model, -, rfl⟩
  · exact absurd rfl hkey
  · refine ⟨rfl, ?_⟩
    by_contra hsystem
    have hname : (Column.keyTo model).hasKeyName = true := isKeyName_keyName model
    rw [hasKeyName_of_isSystem (by simpa using hsystem)] at hname
    exact absurd hname (by simp)

theorem foreignKey_synthesizePivot {c : Column}
    (hc : c ∈ (synthesizePivot first second custom).columns) (hname : c.hasKeyName = true) :
    c.foreignKey ≠ none := by
  rcases mem_columns_synthesizePivot.mp hc with rfl | ⟨model, -, rfl⟩
  · exact absurd hname (by decide)
  · simp [Column.keyTo]

theorem keyNames_synthesizePivot :
    keyNames (synthesizePivot first second custom)
      = (joinedModels first second).map (· ++ keySuffix) := by
  rw [keyNames_eq, columns_synthesizePivot, List.filterMap_cons_none rfl, List.filterMap_map,
    ← List.filterMap_eq_map]
  apply List.filterMap_congr
  intro model _
  have hname : (Column.keyTo model).hasKeyName = true := isKeyName_keyName model
  simp only [Function.comp_apply, hname, if_true]
  rfl

/-- The two models of a pivot that can be written are different. -/
theorem joinedModels_of_shapely (h : ¬IsMisshapen (synthesizePivot first second custom)) :
    joinedModels first second = [modelName first, modelName second]
      ∨ joinedModels first second = [modelName second, modelName first] := by
  have hlength : (joinedModels first second).length = 2 := by
    by_contra hother
    refine h ⟨rfl, ?_⟩
    rwa [keyNames_synthesizePivot, List.length_map]
  unfold joinedModels at hlength ⊢
  dsimp only at hlength ⊢
  split
  · rename_i hsame
    rw [if_pos hsame] at hlength
    exact absurd hlength (by simp)
  · exact Text.sorted_pair _ _

/-- All keys of a pivot are stated, if the tables that they lead to are known. -/
theorem knownKeys_synthesizePivot
    (h : ∀ model ∈ joinedModels first second, pluralize model ∈ known) :
    knownKeys (some known) (synthesizePivot first second custom)
      = keysOf (synthesizePivot first second custom) := by
  unfold knownKeys
  rw [List.filter_eq_self]
  rintro ⟨c, key⟩ hk
  obtain ⟨hc, hkey⟩ := mem_keysOf.mp hk
  have href := mem_references.mpr ⟨c, hc, key, hkey, rfl⟩
  rw [references_synthesizePivot] at href
  obtain ⟨model, hmodel, heq⟩ := List.mem_map.mp href
  unfold isKnown
  rw [List.contains_iff_mem, ← (Prod.mk.inj heq).2]
  exact h model hmodel

/-- **The pivot of two entities contributes that they are joined**, in one order or the other. -/
theorem relationshipsOf_written_pivot
    (hpivot : isPivot o (written o known (synthesizePivot first second custom)) = true)
    (hskip : isSkipped o (written o known (synthesizePivot first second custom)) = false)
    (hshape : ¬IsMisshapen (synthesizePivot first second custom))
    (hknown : ∀ name ∈ [first, second], pluralize (modelName name) ∈ known) :
    ∃ a b, [a, b].Perm [first, second]
      ∧ relationshipsOf o known (written o known (synthesizePivot first second custom))
        = [.manyToMany (entityName (pluralize (modelName a))) (entityName (pluralize (modelName b)))
            (some (pivotName first second custom))] := by
  obtain ⟨a, b, hperm, hjoined⟩ : ∃ a b, [a, b].Perm [first, second]
      ∧ joinedModels first second = [modelName a, modelName b] := by
    rcases joinedModels_of_shapely hshape with heq | heq
    · exact ⟨first, second, .refl _, heq⟩
    · exact ⟨second, first, .swap _ _ _, heq⟩
  have hmodels : ∀ model ∈ joinedModels first second, pluralize model ∈ known := by
    intro model hmodel
    rw [hjoined] at hmodel
    simp only [List.mem_cons, List.not_mem_nil, or_false] at hmodel
    rcases hmodel with rfl | rfl
    · exact hknown a (hperm.subset List.mem_cons_self)
    · exact hknown b (hperm.subset (List.mem_cons_of_mem _ List.mem_cons_self))
  have hrefs : references (tableOf o (written o known (synthesizePivot first second custom)))
      = [(modelName a ++ keySuffix, pluralize (modelName a)),
          (modelName b ++ keySuffix, pluralize (modelName b))] := by
    have hsame := references_written_pivot keysApart_synthesizePivot
      (knownKeys_synthesizePivot hmodels) (fun c hc => foreignKey_synthesizePivot hc) rfl hpivot
    rw [hsame, references_synthesizePivot, hjoined]
    rfl
  refine ⟨a, b, hperm, ?_⟩
  have hboth : pluralize (modelName a) ∈ known ∧ pluralize (modelName b) ∈ known := by
    constructor
    · exact hmodels _ (hjoined ▸ List.mem_cons_self)
    · exact hmodels _ (hjoined ▸ List.mem_cons_of_mem _ List.mem_cons_self)
  unfold relationshipsOf
  rw [hskip, if_neg Bool.false_ne_true]
  dsimp only
  rw [hpivot, if_pos rfl, hrefs]
  unfold pivotRelationship
  simp only [List.all_cons, List.all_nil, List.contains_eq_mem, hboth, decide_true, Bool.and_self,
    if_true, List.filter_cons, isKeyName_keyName, List.filter_nil, List.map_cons, List.map_nil,
    name_written, storageName_synthesizePivot]

end Pivots

/-! ## Files -/

/-- Files that were written are those of their tables, which are shaped as they must. -/
theorem forall₂_writeTables {at? : Option Timestamp} {ts : List Table} {files : List GeneratedFile}
    (h : writeTables o known at? ts = .ok files) :
    List.Forall₂ (fun t file => ¬IsMisshapen t ∧ ∃ at_, fileOf o (some known) at_ t = file)
      ts files := by
  induction ts generalizing at? files with
  | nil =>
    obtain rfl : [] = files := Except.ok.inj (writeTables_nil.symm.trans h)
    exact .nil
  | cons t ts ih =>
    obtain ⟨at_, rfl, file, rest, hfile, hrest, rfl⟩ := writeTables_cons_eq_ok.mp h
    have hshape : ¬IsMisshapen t := by
      intro hbad
      rw [writeTable_eq_error.mpr ⟨hbad, rfl⟩] at hfile
      cases hfile
    rw [writeTable_eq] at hfile
    split at hfile
    · cases hfile
    · exact .cons ⟨hshape, at_, Except.ok.inj hfile⟩ (ih hrest)

/-- Every table has its file. -/
theorem exists_file_of_writeTables {at? : Option Timestamp} {ts : List Table}
    {files : List GeneratedFile} (h : writeTables o known at? ts = .ok files) {t : Table}
    (ht : t ∈ ts) : ∃ file ∈ files, ∃ at_, fileOf o (some known) at_ t = file := by
  have hfiles := forall₂_writeTables h
  clear h
  induction hfiles with
  | nil => exact absurd ht (by simp)
  | cons hfile _ ih =>
    rcases List.mem_cons.mp ht with rfl | ht
    · exact ⟨_, List.mem_cons_self, hfile.2⟩
    · obtain ⟨file, hmem, hfile⟩ := ih ht
      exact ⟨file, List.mem_cons_of_mem _ hmem, hfile⟩

theorem contents_of_writeTables {at? : Option Timestamp} {ts : List Table}
    {files : List GeneratedFile} (h : writeTables o known at? ts = .ok files) :
    files.map GeneratedFile.content = ts.map (contentOf o (some known))
      ∧ ∀ t ∈ ts, ¬IsMisshapen t := by
  have hfiles := forall₂_writeTables h
  clear h
  induction hfiles with
  | nil => exact ⟨rfl, by simp⟩
  | cons hfile _ ih =>
    obtain ⟨hshape, at_, rfl⟩ := hfile
    rw [List.map_cons, List.map_cons, ih.1, fileOf_content]
    exact ⟨rfl, List.forall_mem_cons.mpr ⟨hshape, ih.2⟩⟩

theorem tables_of_writeTables {at? : Option Timestamp} {ts : List Table}
    {files : List GeneratedFile} (h : writeTables o known at? ts = .ok files) :
    files.map GeneratedFile.table = ts.map Table.storageName := by
  have hfiles := forall₂_writeTables h
  clear h
  induction hfiles with
  | nil => rfl
  | cons hfile _ ih =>
    obtain ⟨-, at_, rfl⟩ := hfile
    rw [List.map_cons, List.map_cons, ih]
    rfl

/-- Where a diagram has migrations, these are the files of the tables of its schema. -/
theorem writeTables_of_migrationsOfDiagram {startedAt : Timestamp} {text : String}
    {files : List GeneratedFile} (h : migrationsOfDiagram o startedAt text = .ok files) :
    ∃ s, schemaOfDiagram text = .ok s
      ∧ writeTables o s.storageNames (some startedAt) s.tables = .ok files := by
  unfold migrationsOfDiagram at h
  obtain ⟨s, hs, h⟩ := bind_eq_ok.mp h
  have hwritten := mapError_eq_ok.mp h
  refine ⟨s, mapError_eq_ok.mp hs, ?_⟩
  unfold writeAll at hwritten
  split at hwritten
  · exact nomatch hwritten
  · exact hwritten

/-- A diagram has migrations if its tables are shaped as they must, and there is time. -/
theorem exists_migrationsOfDiagram {startedAt : Timestamp} {text : String} {s : Schema}
    (hs : schemaOfDiagram text = .ok s) (hshapes : ∀ t ∈ s.tables, ¬IsMisshapen t)
    (htime : ∀ i < s.tables.length, (startedAt.later? i).isSome = true) :
    ∃ files, migrationsOfDiagram o startedAt text = .ok files := by
  have hok : ∀ t ∈ s.tables, ∀ at_, writeTable o (some s.storageNames) at_ t
      = .ok (fileOf o (some s.storageNames) at_ t) := by
    intro t ht at_
    rw [writeTable_eq, if_neg]
    rw [Bool.and_eq_true, bne_iff_ne]
    exact hshapes t ht
  have hlasts : ∀ i < s.tables.length,
      ((some startedAt).bind (Timestamp.later? i)).isSome = true := htime
  obtain ⟨files, hfiles, -⟩ := writeTables_eq_ok hok hlasts
  have hwritten : writeAll o startedAt s = .ok files := by
    unfold writeAll
    rw [unpivoted?_of_sound (sound_schemaOfDiagram hs).1]
    exact hfiles
  exact ⟨files, bind_eq_ok.mpr ⟨s, mapError_eq_ok.mpr hs, mapError_eq_ok.mpr hwritten⟩⟩

/-- The migrations of the tables of a schema are read as what is written of them. -/
theorem schemaOfMigrations_contents {s : Schema}
    (h : ∀ t ∈ s.tables, Writable o (some s.storageNames) t) :
    schemaOfMigrations o (s.tables.map (contentOf o (some s.storageNames))) []
      = .ok (inferFromMigrations o (s.tables.map (written o s.storageNames))) := by
  have hread : readMigrations (s.tables.map (contentOf o (some s.storageNames))) []
      = .ok (s.tables.map (written o s.storageNames)) := by
    apply readMigrations_map
    intro t ht
    unfold written
    exact readMigration_contentOf (h t ht) none
  unfold schemaOfMigrations
  rw [hread]
  rfl

end Crowsfoot.Inference
