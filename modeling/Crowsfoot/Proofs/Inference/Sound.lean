import Crowsfoot.Conversion
import Crowsfoot.Proofs.Diagram.Parsing
import Crowsfoot.Proofs.Inference.FromDiagram
import Crowsfoot.Proofs.Migration.Failures
import Crowsfoot.Proofs.Migration.NormalForm
import Crowsfoot.Proofs.Naming.Scripts

/-!
# Inferred schemas are sound

Whatever migrations or diagrams say, the schema that is inferred from them is `Schema.Sound`.

* From migrations, `sound_schemaOfMigrations`: pivots join two tables as well (`Table.Joins`), since
  detection, validation and writing agree on what a pivot is. So such a schema is always written.
* From diagrams, `sound_schemaOfDiagram`: only columns named for a foreign key have one (`Tidy`).
  The lines act one after another, and `SoundAugmentation` is what each of them keeps
  (`SoundAugmentation.add`).
-/

namespace Crowsfoot

open Crowsfoot.Migration

/-! ## Tables that join two others -/

/-- A table has two key columns, which carry foreign keys, and nothing else of its own. -/
structure Table.Joins (t : Table) : Prop where
  two : t.columns.countP Column.hasKeyName = 2
  keyed : ∀ c ∈ t.columns, c.hasKeyName = true → c.foreignKey ≠ none
  system : ∀ c ∈ t.columns, c.hasKeyName = false → c.isSystem = true

theorem Table.Joins.hasPivotShape {t : Table} (h : t.Joins) :
    hasPivotShape t.columns systemColumns = true := by
  unfold Crowsfoot.hasPivotShape
  rw [Bool.and_eq_true, beq_iff_eq, List.all_eq_true]
  refine ⟨h.two, fun c hc => ?_⟩
  cases hn : c.hasKeyName with
  | true => rfl
  | false => exact h.system c hc hn

/-- Writing takes them for pivots. -/
theorem Table.Joins.not_isMisshapen {t : Table} (h : t.Joins) : ¬IsMisshapen t := by
  rintro ⟨-, hlength⟩
  apply hlength
  have hkeys : (t.keyColumns.filter Column.hasKeyName) = t.columns.filter Column.hasKeyName := by
    unfold Table.keyColumns
    rw [List.filter_filter]
    refine List.filter_congr fun c hc => ?_
    cases hn : c.hasKeyName with
    | false => rfl
    | true => rw [Bool.true_and, Option.isSome_iff_ne_none.mpr (h.keyed c hc hn)]
  unfold keyNames
  rw [List.length_map, hkeys, ← List.countP_eq_length_filter, h.two]

namespace Inference

/-! ## From migrations -/

variable {o : Options} {created : List CreatedTable}

/-- What is detected as a pivot joins two tables. -/
theorem joins_tableOf {p : CreatedTable} (hsystem : ∀ n ∈ o.systemColumns, n ∈ systemColumns)
    (hpivot : isPivot o p = true) : (tableOf o p).Joins := by
  have hshape : hasPivotShape p.columns o.systemColumns = true := by
    unfold isPivot isPivotTable at hpivot
    exact (Bool.and_eq_true_iff.mp hpivot).2
  unfold hasPivotShape at hshape
  rw [Bool.and_eq_true, beq_iff_eq, List.all_eq_true] at hshape
  obtain ⟨htwo, hothers⟩ := hshape
  refine ⟨?_, fun c hc hn => foreignKey_ne_none hpivot hc hn, ?_⟩
  · have hcount : (tableOf o p).columns.countP (Naming.isKeyName ∘ Column.name)
        = p.columns.countP (Naming.isKeyName ∘ Column.name) := by
      rw [← List.countP_map, ← List.countP_map, map_name_tableOf]
    exact hcount.trans htwo
  · intro c hc hn
    rw [tableOf_pivot hpivot] at hc
    obtain ⟨d, hd, rfl⟩ := List.mem_map.mp hc
    have hname := conventionalKey_name d
    have hother := hothers d hd
    rw [← hasKeyName_congr hname, hn, Bool.false_or, List.contains_iff_mem] at hother
    unfold Column.isSystem
    rw [hname, List.contains_iff_mem]
    exact hsystem d.name hother

theorem sound_inferFromMigrations (hread : ∀ p ∈ created, WellRead p) :
    (inferFromMigrations o created).Sound := by
  refine ⟨(Table.order_order _).symm, ?_, ?_⟩
  · intro t ht
    obtain ⟨p, hp, rfl⟩ := mem_tables.mp ht
    rw [map_name_tableOf]
    exact (hread p hp).distinct
  · intro first second pivot hr
    obtain ⟨p, hp, hr⟩ := List.mem_flatMap.mp hr
    obtain ⟨hpivot, rfl⟩ := eq_of_mem_relationshipsOf hr
    have hstored : (tableOf o p).storageName = p.name := by
      rw [tableOf_pivot hpivot, storageName_of_pivot]
    refine ⟨tableOf o p, mem_tables.mpr ⟨p, hp, rfl⟩, (isPivot_tableOf o p).trans hpivot, ?_, ?_⟩
    · rw [hstored]
      intro hempty
      exact (hread p hp).name.nonempty (by rw [hempty]; rfl)
    · rw [hstored]

/-- **Schemas from migrations are sound, and are written.** Tables are in order and have columns of
different names, pivots join two tables, and every many-to-many relationship has its pivot. So
validation finds no fault with their shape, and writing them can only run out of time. -/
theorem sound_schemaOfMigrations {contents sources : List String} {s : Schema}
    (hsystem : ∀ n ∈ o.systemColumns, n ∈ systemColumns)
    (h : schemaOfMigrations o contents sources = .ok s) :
    s.Sound ∧ (∀ t ∈ s.tables, t.isPivot = true → t.Joins)
      ∧ (∀ i ∈ s.issues, i.code ∈ ["MULTIPLE_PRIMARY", "FK_NAMING", "FK_UNRESOLVED"])
      ∧ ∀ o' startedAt e, writeAll o' startedAt s = .error e → e = .endOfTime := by
  unfold schemaOfMigrations at h
  obtain ⟨created, hcreated, h⟩ := bind_eq_ok.mp h
  obtain rfl : inferFromMigrations o created = s := Except.ok.inj h
  have hsound : (inferFromMigrations o created).Sound :=
    sound_inferFromMigrations (wellRead_readMigrations hcreated)
  have hjoins : ∀ t ∈ (inferFromMigrations o created).tables, t.isPivot = true → t.Joins := by
    intro t ht hpivot
    obtain ⟨p, -, rfl⟩ := mem_tables.mp ht
    exact joins_tableOf hsystem ((isPivot_tableOf o p).symm.trans hpivot)
  refine ⟨hsound, hjoins, ?_, ?_⟩
  · intro i hi
    rcases hsound.cases_issue hi with ⟨_, _, rfl⟩ | ⟨_, _, _, _, _, _, _, rfl⟩
      | ⟨t, ht, hpivot, hshape, -⟩ | ⟨_, _, rfl⟩
    · simp [Issue.code]
    · simp [Issue.code]
    · rw [(hjoins t ht hpivot).hasPivotShape] at hshape
      exact absurd hshape (by simp)
    · simp [Issue.code]
  · intro o' startedAt e he
    rcases writeAll_eq_error hsound he with htime | ⟨t, ht, hshape, -⟩
    · exact htime
    · exact absurd hshape (hjoins t ht hshape.1).not_isMisshapen

/-- Migrations that create orders, products and their pivot, which declares no foreign keys. -/
def ordersMigrations : List String :=
  ["Schema::create('orders', function ($table) \x7b$table->id();\x7d);",
    "Schema::create('products', function ($table) \x7b$table->id();\x7d);",
    "Schema::create('order_product', function ($table) \x7b
      $table->unsignedBigInteger('order_id');
      $table->unsignedBigInteger('product_id');\x7d);"]

/-- A primary key as `id()` declares it. -/
def idColumn : Column :=
  { name := "id", type := .bigint, nullable := false, primary := true }

/-- A foreign key column as `unsignedBigInteger` declares it. -/
def unsignedColumn (name : String) (foreignKey : Option ForeignKey) : Column :=
  { name, type := .bigint, nullable := false, unsigned := true, minimum := some 0, foreignKey }

/-- The tables that the migrations create. -/
def createdOrders : List CreatedTable :=
  [{ name := "orders", columns := [idColumn] }, { name := "products", columns := [idColumn] },
    { name := "order_product"
      columns := [unsignedColumn "order_id" none, unsignedColumn "product_id" none] }]

/-- The schema of the tables. -/
def orders : Schema :=
  { tables :=
      [{ name := "Order", columns := [idColumn] }, { name := "Product", columns := [idColumn] },
        { name := "order_product"
          columns :=
            [unsignedColumn "order_id" (some { table := "orders" }),
             unsignedColumn "product_id" (some { table := "products" })]
          isPivot := true }]
    relationships := [.manyToMany "Order" "Product" (some "order_product")] }

set_option maxRecDepth 8000 in
theorem schemaOfMigrations_orders : schemaOfMigrations {} ordersMigrations [] = .ok orders := by
  have hread : readMigrations ordersMigrations [] = .ok createdOrders := by
    apply readMigrations_of_forall₂
    refine .cons ?_ (.cons ?_ (.cons ?_ .nil)) <;>
      · rw [readMigration_ofList]
        decide +kernel
  have hinfer : inferFromMigrations {} createdOrders = orders := by decide
  unfold schemaOfMigrations
  rw [hread]
  exact congrArg Except.ok hinfer

theorem sound_schemaOfMigrations_orders :
    orders.Sound ∧ (∀ t ∈ orders.tables, t.isPivot = true → t.Joins)
      ∧ (∀ i ∈ orders.issues, i.code ∈ ["MULTIPLE_PRIMARY", "FK_NAMING", "FK_UNRESOLVED"])
      ∧ ∀ o' startedAt e, writeAll o' startedAt orders = .error e → e = .endOfTime :=
  sound_schemaOfMigrations (o := {}) (by decide) schemaOfMigrations_orders

/-! ## Keys and names -/

open Crowsfoot.Diagram Crowsfoot.Naming

/-- The columns of a table have different names, and only those named for a key have one. -/
structure Tidy (t : Table) : Prop where
  distinct : (t.columns.map Column.name).Nodup
  keys : ∀ c ∈ t.columns, c.foreignKey ≠ none → c.hasKeyName = true

variable {t : Table}

theorem Tidy.ensureKey (h : Tidy t) (parent : String) : Tidy (t.ensureKey parent) := by
  refine ⟨nodup_ensureKey h.distinct parent, fun c hc hsome => ?_⟩
  have hkey := isKeyName_keyName (modelName parent)
  rw [columns_ensureKey] at hc
  split at hc
  · rw [modifyColumn_eq_map h.distinct] at hc
    obtain ⟨d, hd, rfl⟩ := List.mem_map.mp hc
    by_cases hname : d.name = modelName parent ++ keySuffix
    · rw [if_pos hname]
      unfold Column.hasKeyName
      rw [name_withKey, hname]
      exact hkey
    · rw [if_neg hname] at hsome ⊢
      exact h.keys d hd hsome
  · rcases List.mem_append.mp hc with hc | hc
    · exact h.keys c hc hsome
    · rw [List.mem_singleton.mp hc]
      exact hkey

theorem Tidy.ensureKeys (h : Tidy t) (parents : List String) : Tidy (ensureKeys t parents) := by
  unfold Inference.ensureKeys
  induction parents generalizing t with
  | nil => exact h
  | cons parent parents ih => exact ih (h.ensureKey parent)

/-- Adopting is flagging and giving keys. -/
theorem adopt_eq (t : Table) (first second : String) :
    t.adopt first second
      = Inference.ensureKeys { t with isPivot := true } (joinedModels first second) :=
  rfl

theorem Tidy.adopt (h : Tidy t) (first second : String) : Tidy (t.adopt first second) := by
  have hflagged : Tidy { t with isPivot := true } := ⟨h.distinct, h.keys⟩
  rw [adopt_eq]
  exact hflagged.ensureKeys _

theorem name_adopt (t : Table) (first second : String) : (t.adopt first second).name = t.name := by
  rw [adopt_eq, name_ensureKeys]

theorem isPivot_adopt (t : Table) (first second : String) :
    (t.adopt first second).isPivot = true := by
  rw [adopt_eq, isPivot_ensureKeys]

theorem mem_joinedModels {first second model : String} :
    model ∈ joinedModels first second ↔ model = modelName first ∨ model = modelName second := by
  unfold joinedModels
  dsimp only
  split
  · rename_i hsame
    rw [List.mem_singleton, ← hsame, or_self]
  · have hperm : (Text.sorted [modelName first, modelName second]).Perm
        [modelName first, modelName second] := List.mergeSort_perm _ _
    rw [hperm.mem_iff, List.mem_pair]

theorem nodup_joinedModels (first second : String) : (joinedModels first second).Nodup := by
  unfold joinedModels
  dsimp only
  split
  · simp
  · rename_i hne
    rcases Text.sorted_pair (modelName first) (modelName second) with heq | heq <;> rw [heq]
    · simpa using hne
    · simpa using Ne.symm hne

theorem columns_synthesizePivot {first second : String} {custom : Option String} :
    (synthesizePivot first second custom).columns
      = { name := "id", type := .bigint, primary := true, nullable := false }
        :: (joinedModels first second).map Column.keyTo := rfl

section Sorted

variable {first second a b : String} (ha : modelName first = a) (hb : modelName second = b)
  (hsorted : Text.sorted [a, b] = [a, b])
include ha hb hsorted

theorem pivotName_of_sorted : pivotName first second none = a ++ "_" ++ b := by
  show "_".intercalate (Text.sorted [modelName first, modelName second]) = _
  rw [ha, hb, hsorted, String.intercalate_cons_cons, String.intercalate_singleton]

theorem joinedModels_of_sorted (hne : a ≠ b) : joinedModels first second = [a, b] := by
  unfold joinedModels
  dsimp only
  rw [ha, hb, if_neg hne, hsorted]

/-- The pivot of two models that are in order. -/
theorem synthesizePivot_of_sorted (hne : a ≠ b) (custom : Option String) :
    synthesizePivot first second custom
      = { name := pivotName first second custom
          columns := [idColumn, Column.keyTo a, Column.keyTo b]
          isPivot := true } := by
  unfold synthesizePivot
  rw [joinedModels_of_sorted ha hb hsorted hne]
  rfl

end Sorted

theorem mem_columns_synthesizePivot {first second : String} {custom : Option String} {c : Column} :
    c ∈ (synthesizePivot first second custom).columns
      ↔ c = { name := "id", type := .bigint, primary := true, nullable := false }
        ∨ ∃ model ∈ joinedModels first second, Column.keyTo model = c := by
  rw [columns_synthesizePivot, List.mem_cons, List.mem_map]

theorem tidy_synthesizePivot (first second : String) (custom : Option String) :
    Tidy (synthesizePivot first second custom) := by
  have hnames : (synthesizePivot first second custom).columns.map Column.name
      = "id" :: (joinedModels first second).map (· ++ keySuffix) := by
    rw [columns_synthesizePivot, List.map_cons, List.map_map]
    rfl
  constructor
  · rw [hnames, List.nodup_cons]
    constructor
    · intro hmem
      obtain ⟨model, -, heq⟩ := List.mem_map.mp hmem
      have hkey := isKeyName_keyName model
      rw [heq] at hkey
      exact absurd hkey (by decide)
    · exact (nodup_joinedModels first second).map fun _ _ => keyName_inj
  · intro c hc hsome
    rcases mem_columns_synthesizePivot.mp hc with rfl | ⟨model, -, rfl⟩
    · exact absurd rfl hsome
    · exact isKeyName_keyName model

/-- The key to a model that a pivot joins is found by its name. -/
theorem column?_synthesizePivot {first second model : String} {custom : Option String}
    (h : model ∈ joinedModels first second) :
    (synthesizePivot first second custom).column? (model ++ keySuffix)
      = some (Column.keyTo model) := by
  have hmem : Column.keyTo model ∈ (synthesizePivot first second custom).columns :=
    mem_columns_synthesizePivot.mpr (Or.inr ⟨_, h, rfl⟩)
  have hthere : model ++ keySuffix
      ∈ (synthesizePivot first second custom).columns.map Column.name :=
    List.mem_map.mpr ⟨_, hmem, rfl⟩
  obtain ⟨c, hfound⟩ := Table.exists_column? hthere
  obtain ⟨hc, hname⟩ := Table.column?_eq_some hfound
  rw [hfound]
  rcases mem_columns_synthesizePivot.mp hc with rfl | ⟨other, -, rfl⟩
  · have hid : "id" = model ++ keySuffix := hname
    have hkey := isKeyName_keyName model
    rw [← hid] at hkey
    exact absurd hkey (by decide)
  · have hsame : other ++ keySuffix = model ++ keySuffix := hname
    rw [keyName_inj hsame]

theorem tidy_parsed (h : ParsedTable t) : Tidy t := by
  refine ⟨h.distinct, fun c hc hsome => absurd ?_ hsome⟩
  rw [← (h.columns c hc).complete]
  rfl

theorem unkeyed_of_parsed {t : Table} (h : ParsedTable t) : Unkeyed t :=
  unkeyed_of_complete h.domain h.distinct fun c hc => (h.columns c hc).complete

/-! ## From diagrams -/

/-- Entities in Pascal case are not called like pivots. -/
theorem unadopted_of_capitalized {ts : List Table} (h : ∀ t ∈ ts, IsCapitalized t.name)
    {r : Relationship} : Unadopted ts r :=
  unadopted_of_pivotName fun _ _ _ _ t ht => (h t ht).ne_pivotName

theorem mem_modifyFirst {p : Table → Bool} {f : Table → Table} {ts : List Table} {u : Table}
    (h : u ∈ modifyFirst p f ts) : u ∈ ts ∨ ∃ t ∈ ts, p t = true ∧ u = f t := by
  induction ts with
  | nil => exact absurd h (by simp [modifyFirst])
  | cons t ts ih =>
    unfold modifyFirst at h
    split at h
    · rename_i hp
      rcases List.mem_cons.mp h with rfl | h
      · exact Or.inr ⟨t, List.mem_cons_self, hp, rfl⟩
      · exact Or.inl (List.mem_cons_of_mem t h)
    · rcases List.mem_cons.mp h with rfl | h
      · exact Or.inl List.mem_cons_self
      · rcases ih h with h | ⟨v, hv, hp, rfl⟩
        · exact Or.inl (List.mem_cons_of_mem t h)
        · exact Or.inr ⟨v, List.mem_cons_of_mem t hv, hp, rfl⟩

/-- Every table stays, or is changed. -/
theorem mem_modifyFirst_or {p : Table → Bool} {f : Table → Table} {ts : List Table} {t : Table}
    (h : t ∈ ts) : t ∈ modifyFirst p f ts ∨ f t ∈ modifyFirst p f ts := by
  induction ts with
  | nil => exact absurd h (by simp)
  | cons u ts ih =>
    unfold modifyFirst
    split
    · rcases List.mem_cons.mp h with rfl | h
      · exact Or.inr List.mem_cons_self
      · exact Or.inl (List.mem_cons_of_mem _ h)
    · rcases List.mem_cons.mp h with rfl | h
      · exact Or.inl List.mem_cons_self
      · exact (ih h).imp (List.mem_cons_of_mem u) (List.mem_cons_of_mem u)

/-- What a change does to a table, it does to one of them, and the others stay. -/
theorem forall₂_modifyFirst {R : Table → Table → Prop} (hsame : ∀ t, R t t) {p : Table → Bool}
    {f : Table → Table} (hf : ∀ t, p t = true → R t (f t)) (ts : List Table) :
    List.Forall₂ R ts (modifyFirst p f ts) := by
  induction ts with
  | nil => exact .nil
  | cons t ts ih =>
    unfold modifyFirst
    split
    · rename_i hp
      exact .cons (hf t hp) (List.forall₂_same.mpr fun u _ => hsame u)
    · exact .cons (hsame t) ih

/-- The first table of those looked for is changed. -/
theorem exists_mem_modifyFirst {p : Table → Bool} {f : Table → Table} {ts : List Table} {t : Table}
    (h : ts.find? p = some t) : f t ∈ modifyFirst p f ts := by
  induction ts with
  | nil => exact absurd h (by simp)
  | cons u ts ih =>
    unfold modifyFirst
    rw [List.find?_cons] at h
    split at h
    · rename_i hp
      rw [if_pos hp, Option.some.inj h]
      exact List.mem_cons_self
    · rename_i hp
      rw [if_neg (by simp [hp])]
      exact List.mem_cons_of_mem u (ih h)

/-- A pivot of this name is among the tables. -/
def HasPivot (ts : List Table) (name : String) : Prop :=
  ∃ t ∈ ts, t.isPivot = true ∧ t.name = name

/-- What lines keep: tidy tables, and a pivot for each many-to-many relationship. -/
structure SoundAugmentation (a : Augmentation) : Prop where
  tidy : ∀ t ∈ a.tables ++ a.pivots, Tidy t
  made : ∀ p ∈ a.pivots, p.isPivot = true
  joined : ∀ first second pivot, .manyToMany first second pivot ∈ a.relationships →
    ∃ name, name ≠ "" ∧ pivot = some name ∧ HasPivot (a.tables ++ a.pivots) name

section Lines

variable {a : Augmentation}

/-- Changing a table so that it keeps its name and stays a pivot does not lose pivots. -/
theorem HasPivot.modifyFirst {p : Table → Bool} {f : Table → Table} {ts ps : List Table}
    {name : String} (h : HasPivot (ts ++ ps) name) (hname : ∀ t, (f t).name = t.name)
    (hpivot : ∀ t, t.isPivot = true → (f t).isPivot = true) :
    HasPivot (modifyFirst p f ts ++ ps) name := by
  obtain ⟨t, ht, hflag, rfl⟩ := h
  rcases List.mem_append.mp ht with ht | ht
  · rcases mem_modifyFirst_or (p := p) (f := f) ht with ht | ht
    · exact ⟨t, List.mem_append_left _ ht, hflag, rfl⟩
    · exact ⟨f t, List.mem_append_left _ ht, hpivot t hflag, hname t⟩
  · exact ⟨t, List.mem_append_right _ ht, hflag, rfl⟩

theorem SoundAugmentation.modifyFirst (h : SoundAugmentation a) {p : Table → Bool}
    {f : Table → Table} (hname : ∀ t, (f t).name = t.name)
    (hpivot : ∀ t, t.isPivot = true → (f t).isPivot = true) (htidy : ∀ t, Tidy t → Tidy (f t))
    (log : Diagnostics) :
    SoundAugmentation { a with tables := Crowsfoot.modifyFirst p f a.tables, log } := by
  refine ⟨?_, h.made, ?_⟩
  · intro u hu
    rcases List.mem_append.mp hu with hu | hu
    · rcases mem_modifyFirst hu with hu | ⟨t, ht, -, rfl⟩
      · exact h.tidy u (List.mem_append_left _ hu)
      · exact htidy t (h.tidy t (List.mem_append_left _ ht))
    · exact h.tidy u (List.mem_append_right _ hu)
  · intro first second pivot hr
    obtain ⟨name, hne, hsome, hhas⟩ := h.joined first second pivot hr
    exact ⟨name, hne, hsome, hhas.modifyFirst hname hpivot⟩

theorem SoundAugmentation.link (h : SoundAugmentation a) (parent child : String) :
    SoundAugmentation (a.link parent child) :=
  h.modifyFirst (fun t => name_ensureKey t parent)
    (fun t ht => (isPivot_ensureKey t parent).trans ht) (fun _ ht => ht.ensureKey parent) a.log

/-- A tidy pivot more. -/
theorem SoundAugmentation.addPivot (h : SoundAugmentation a) {pivot : Table} (htidy : Tidy pivot)
    (hpivot : pivot.isPivot = true) :
    SoundAugmentation { a with pivots := a.pivots ++ [pivot] } := by
  refine ⟨?_, ?_, ?_⟩
  · intro t ht
    rw [← List.append_assoc] at ht
    rcases List.mem_append.mp ht with ht | ht
    · exact h.tidy t ht
    · rwa [List.mem_singleton.mp ht]
  · intro p hp
    rcases List.mem_append.mp hp with hp | hp
    · exact h.made p hp
    · rwa [List.mem_singleton.mp hp]
  · intro one other name hr
    obtain ⟨name, hne, hsome, t, ht, hhas⟩ := h.joined one other name hr
    refine ⟨name, hne, hsome, t, ?_, hhas⟩
    rw [← List.append_assoc]
    exact List.mem_append_left _ ht

/-- Joining two entities leaves their pivot, adopted, there before, or made up. -/
theorem SoundAugmentation.join (h : SoundAugmentation a) (first second : String)
    (custom : Option String) :
    SoundAugmentation (a.join first second custom)
      ∧ HasPivot ((a.join first second custom).tables ++ (a.join first second custom).pivots)
        (pivotName first second custom) := by
  have hmade : (synthesizePivot first second custom).name = pivotName first second custom := rfl
  unfold Augmentation.join
  dsimp only
  rw [hmade]
  split
  · rename_i drawn hfound
    refine ⟨h.modifyFirst (fun t => name_adopt t first second)
      (fun t _ => isPivot_adopt t first second) (fun _ ht => ht.adopt first second) _, ?_⟩
    refine ⟨drawn.adopt first second, List.mem_append_left _ (exists_mem_modifyFirst hfound),
      isPivot_adopt drawn first second, ?_⟩
    rw [name_adopt]
    simpa using List.find?_some hfound
  · split
    · rename_i hany
      refine ⟨⟨h.tidy, h.made, h.joined⟩, ?_⟩
      obtain ⟨p, hp, hname⟩ := List.any_eq_true.mp hany
      exact ⟨p, List.mem_append_right _ hp, h.made p hp, by simpa using hname⟩
    · refine ⟨h.addPivot (tidy_synthesizePivot first second custom) rfl,
        synthesizePivot first second custom, ?_, rfl, rfl⟩
      exact List.mem_append_right _ (List.mem_append_right _ (List.mem_singleton_self _))

/-- A relationship is kept with its pivot, if it needs one. -/
theorem SoundAugmentation.keep (h : SoundAugmentation a) {r : Relationship}
    (hr : ∀ first second pivot, r = .manyToMany first second pivot →
      ∃ name, name ≠ "" ∧ pivot = some name ∧ HasPivot (a.tables ++ a.pivots) name) :
    SoundAugmentation (a.keep r) := by
  refine ⟨h.tidy, h.made, ?_⟩
  intro first second pivot hmem
  rcases List.mem_append.mp hmem with hmem | hmem
  · exact h.joined first second pivot hmem
  · exact hr first second pivot (List.mem_singleton.mp hmem).symm

/-- **A line keeps the tables tidy**, and provides the pivot that it needs. -/
theorem SoundAugmentation.add (h : SoundAugmentation a) {r : Relationship}
    (hr : ParsedRelationship r) : SoundAugmentation (a.add r) := by
  have hmissing : ∀ first second, SoundAugmentation (a.recordMissing first second) :=
    fun _ _ => ⟨h.tidy, h.made, h.joined⟩
  cases r with
  | oneToOne parent child | oneToMany parent child =>
    unfold Augmentation.add
    dsimp only
    split
    · exact (h.link parent child).keep fun _ _ _ heq => nomatch heq
    · exact hmissing parent child
  | manyToMany first second custom =>
    unfold Augmentation.add
    dsimp only
    split
    · obtain ⟨hjoin, hhas⟩ := h.join first second custom
      apply hjoin.keep
      intro one other pivot heq
      obtain ⟨-, -, rfl⟩ := Relationship.manyToMany.inj heq
      exact ⟨_, pivotName_ne_empty fun label hlabel => hr.label first second label (by rw [hlabel]),
        rfl, hhas⟩
    · exact hmissing first second

theorem SoundAugmentation.addAll {rs : List Relationship} (hrs : ∀ r ∈ rs, ParsedRelationship r)
    (h : SoundAugmentation a) : SoundAugmentation (rs.foldl Augmentation.add a) := by
  induction rs generalizing a with
  | nil => exact h
  | cons r rs ih =>
    exact ih (fun s hs => hrs s (List.mem_cons_of_mem r hs)) (h.add (hrs r List.mem_cons_self))

end Lines

/-- The schema of a diagram is inferred from the document that is read. -/
theorem schemaOfDiagram_eq_ok {text : String} {s : Schema} :
    schemaOfDiagram text = .ok s ↔ ∃ d, Document.parse text = .ok d ∧ inferFromDiagram d = s := by
  unfold schemaOfDiagram
  rw [bind_eq_ok]
  constructor
  · rintro ⟨d, hd, hs⟩
    exact ⟨d, hd, Except.ok.inj hs⟩
  · rintro ⟨d, hd, rfl⟩
    exact ⟨d, hd, rfl⟩

theorem schemaOfDiagram_of_parse {text : String} {d : Document}
    (h : Document.parse text = .ok d) : schemaOfDiagram text = .ok (inferFromDiagram d) :=
  schemaOfDiagram_eq_ok.mpr ⟨d, h, rfl⟩

theorem sound_inferFromDiagram {d : Document} (h : ParsedDocument d) :
    (inferFromDiagram d).Sound ∧ ∀ t ∈ (inferFromDiagram d).tables, Tidy t := by
  have hstart : SoundAugmentation { tables := d.tables } := by
    refine ⟨?_, by simp, by simp⟩
    intro t ht
    rw [List.append_nil] at ht
    exact tidy_parsed (h.tables t ht)
  have hend : SoundAugmentation (augment d) := hstart.addAll h.relationships
  have htidy : ∀ t ∈ (inferFromDiagram d).tables, Tidy t :=
    fun t ht => hend.tidy t (Table.mem_order.mp ht)
  refine ⟨⟨(Table.order_order _).symm, fun t ht => (htidy t ht).distinct, ?_⟩, htidy⟩
  intro first second pivot hr
  obtain ⟨name, hne, rfl, t, ht, hpivot, rfl⟩ := hend.joined first second pivot hr
  have hstored : t.storageName = t.name := by
    unfold Table.storageName
    rw [if_pos hpivot]
  exact ⟨t, Table.mem_order.mpr ht, hpivot, hstored ▸ hne, by rw [hstored]⟩

/-- **Schemas from diagrams are sound**, whatever is drawn and in whatever order. Tables are in
order, columns of a table have different names, only columns named for a foreign key have one, and
every many-to-many relationship has its pivot. So validation finds no fault with these, and writing
never misses a pivot. -/
theorem sound_schemaOfDiagram {text : String} {s : Schema} (h : schemaOfDiagram text = .ok s) :
    s.Sound
      ∧ (∀ t ∈ s.tables, ∀ c ∈ t.columns, c.foreignKey ≠ none → c.hasKeyName = true)
      ∧ (∀ i ∈ s.issues,
        i.code ∉ ["PIVOT_ORDER", "DUPLICATE_COLUMN", "FK_NAMING", "PIVOT_MISSING"])
      ∧ ∀ o startedAt first second pivot,
        writeAll o startedAt s ≠ .error (.missingPivot first second pivot) := by
  unfold schemaOfDiagram at h
  obtain ⟨d, hd, h⟩ := bind_eq_ok.mp h
  obtain rfl : inferFromDiagram d = s := Except.ok.inj h
  obtain ⟨hsound, htidy⟩ := sound_inferFromDiagram (parsedDocument hd)
  refine ⟨hsound, fun t ht => (htidy t ht).keys, ?_, ?_⟩
  · intro i hi
    rcases hsound.cases_issue hi with ⟨_, _, rfl⟩ | ⟨t, ht, c, hc, key, hkey, hname, -⟩
      | ⟨_, _, _, _, rfl⟩ | ⟨_, _, rfl⟩
    · simp [Issue.code]
    · rw [(htidy t ht).keys c hc (by simp [hkey])] at hname
      exact absurd hname (by simp)
    · simp [Issue.code]
    · simp [Issue.code]
  · intro o startedAt first second pivot he
    rcases writeAll_eq_error hsound he with heq | ⟨_, _, _, heq⟩ <;> exact nomatch heq

/-- A diagram that draws a pivot, asks for it twice, and refers to an entity that is not there. -/
def enrolmentText : String :=
  "entity Student \x7b
  * id : bigint
\x7d
entity Course \x7b
\x7d
entity enrolment \x7b
  student_id : bigint
  grade : int
\x7d
Student \x7do--o\x7b Course : Enrolment
Course \x7do--o\x7b Student : enrolment
Teacher ||--o\x7b Course
"

/-- What the text draws. -/
def drawnEnrolment : Document :=
  { tables :=
      [{ name := "Student"
         columns := [{ name := "id", type := .bigint, nullable := false, primary := true }] },
       { name := "Course" },
       { name := "enrolment"
         columns := [{ name := "student_id", type := .bigint }, { name := "grade", type := .int }] }]
    relationships :=
      [.manyToMany "Student" "Course" (some "Enrolment"),
       .manyToMany "Course" "Student" (some "enrolment"), .oneToMany "Teacher" "Course"] }

set_option maxRecDepth 8000 in
theorem schemaOfDiagram_enrolmentText :
    schemaOfDiagram enrolmentText = .ok (inferFromDiagram drawnEnrolment) := by
  apply schemaOfDiagram_of_parse
  unfold Document.parse enrolmentText
  rw [String.toList_ofList]
  decide

theorem sound_schemaOfDiagram_enrolment :
    ∃ s, schemaOfDiagram enrolmentText = .ok s ∧ s.Sound
      ∧ (∀ t ∈ s.tables, ∀ c ∈ t.columns, c.foreignKey ≠ none → c.hasKeyName = true)
      ∧ (∀ i ∈ s.issues,
        i.code ∉ ["PIVOT_ORDER", "DUPLICATE_COLUMN", "FK_NAMING", "PIVOT_MISSING"])
      ∧ ∀ o startedAt first second pivot,
        writeAll o startedAt s ≠ .error (.missingPivot first second pivot) :=
  ⟨_, schemaOfDiagram_enrolmentText, sound_schemaOfDiagram schemaOfDiagram_enrolmentText⟩

end Inference

end Crowsfoot
