import Crowsfoot.Conversion
import Crowsfoot.Proofs.Inference.FromMigrations
import Crowsfoot.Proofs.Migration.Reading
import Crowsfoot.Proofs.Migration.Rewriting

/-!
# Generated migrations are a normal form

`regenerate` reads migrations and writes the migrations of their schema. Where it leads to migrations
at all, it leads from these to themselves (`regenerate_regenerate`): same tables in the same order,
same file names, same contents. `Regenerable` says which migrations this is about.

The tables of the second schema rewrite those of the first (`rewrites_reread`): a pivot is recognised
as a pivot again, and every other table as none (`isPivot_reread`).
-/

namespace Crowsfoot

/-- The time a number of seconds later. -/
def Timestamp.later? : Nat → Timestamp → Option Timestamp
  | 0, t => some t
  | n + 1, t => t.next?.bind (later? n)

/-- The migrations of the schema of migrations. -/
def regenerate (o : Options) (startedAt : Timestamp) (contents : List String) :
    Except ConversionError (List Migration.GeneratedFile) := do
  let s ← (schemaOfMigrations o contents []).mapError .read
  (Migration.writeAll o startedAt s).mapError .write

namespace Migration

open Crowsfoot.Inference

/-! ## Pivots are recognised again -/

section Pivots

variable {o : Options} {known : Option (List String)} {t : Table} {q : String → Bool}

theorem countP_eraseP {p r : Column → Bool} {columns : List Column} {c : Column}
    (h : columns.find? p = some c) :
    columns.countP r = (columns.eraseP p).countP r + if r c = true then 1 else 0 := by
  induction columns with
  | nil => exact absurd h (by simp)
  | cons d columns ih =>
    rw [List.find?_cons] at h
    cases hp : p d with
    | true =>
      rw [hp] at h
      rw [List.eraseP_cons_of_pos hp, List.countP_cons, Option.some.inj h]
    | false =>
      rw [hp] at h
      rw [List.eraseP_cons_of_neg (by simp [hp]), List.countP_cons, List.countP_cons, ih h]
      omega

theorem countP_filter_of_false {p r : Column → Bool} {columns : List Column}
    (h : ∀ c ∈ columns, p c = false → r c = false) :
    (columns.filter p).countP r = columns.countP r := by
  rw [List.countP_filter]
  apply List.countP_congr
  intro c hc
  cases hp : p c with
  | true => simp
  | false => simp [h c hc hp]

/-- Names other than those of system columns are as many among the stated columns as among all but
the primary key. -/
theorem countP_statedColumns (hq : ∀ n ∈ systemColumns, q n = false) :
    (statedColumns t).countP (q ∘ Column.name)
      = (t.columns.eraseP Column.primary).countP (q ∘ Column.name) := by
  have hothers : ((t.columns.eraseP Column.primary).filter fun c =>
      !providedColumns.contains c.name).countP (q ∘ Column.name)
        = (t.columns.eraseP Column.primary).countP (q ∘ Column.name) := by
    apply countP_filter_of_false
    intro c _ hc
    have hm : c.name ∈ providedColumns := by simpa using hc
    exact hq c.name (List.mem_cons_of_mem "id" hm)
  unfold statedColumns
  dsimp only
  split
  · rw [countP_filter_of_false, hothers]
    intro c _ hc
    have hid : c.name = "id" := by simpa using hc
    exact hq c.name (hid ▸ List.mem_cons_self)
  · exact hothers

/-- What is written has the same names, apart from those of system columns. -/
theorem countP_writtenTable (hq : ∀ n ∈ systemColumns, q n = false) (source : Option String) :
    (writtenTable o known t source).columns.countP (q ∘ Column.name)
      = t.columns.countP (q ∘ Column.name) := by
  obtain ⟨added, heq, hadded⟩ := exists_foldl_addMissing
    (writtenPrimary t :: (statedColumns t).map writtenColumn) (providedBy o t)
  have hnames : (q ∘ Column.name) ∘ withFact (keyFacts known t) = q ∘ Column.name := by
    funext c
    exact congrArg q (withFact_name _ c)
  have hstated : ((statedColumns t).map writtenColumn).countP (q ∘ Column.name)
      = (t.columns.eraseP Column.primary).countP (q ∘ Column.name) := by
    rw [List.countP_map]
    exact countP_statedColumns hq
  have hprovided : added.countP (q ∘ Column.name) = 0 := by
    rw [List.countP_eq_zero]
    intro c hc
    have hname := hq c.name (List.mem_cons_of_mem "id" (mem_providedBy (hadded c hc)).1)
    simp [hname]
  have hprimary : t.columns.countP (q ∘ Column.name)
      = (t.columns.eraseP Column.primary).countP (q ∘ Column.name)
        + if (q ∘ Column.name) (writtenPrimary t) = true then 1 else 0 := by
    cases hp : t.primary? with
    | none =>
      have hid : q (writtenPrimary t).name = false := by
        rw [writtenPrimary_name_of_none hp]
        exact hq "id" List.mem_cons_self
      rw [List.eraseP_of_forall_not (List.find?_eq_none.mp hp), Function.comp_apply, hid]
      rfl
    | some c =>
      have hname : (q ∘ Column.name) (writtenPrimary t) = (q ∘ Column.name) c :=
        congrArg q (writtenPrimary_name_of_some hp)
      rw [countP_eraseP hp, hname]
  show ((writtenColumns o t).map (withFact (keyFacts known t))).countP _ = _
  unfold writtenColumns
  rw [List.countP_map, hnames, heq, List.countP_append, List.countP_cons, hstated, hprovided,
    hprimary, Nat.add_zero]

/-- **The columns that are read back have the shape of a pivot** if and only if those that were
written have it. -/
theorem hasPivotShape_writtenTable (source : Option String) :
    hasPivotShape (writtenTable o known t source).columns systemColumns
      = hasPivotShape t.columns systemColumns := by
  rw [hasPivotShape_eq, hasPivotShape_eq, countP_writtenTable (by decide),
    countP_writtenTable (by decide)]

end Pivots

/-! ## Migrations that can be regenerated -/

/-- What regenerated migrations ask of the tables that were read, and of the options. -/
structure Regenerable (o : Options) (created : List CreatedTable) : Prop where
  system : o.systemColumns = systemColumns
  indent : ∀ c ∈ o.indent.toList, Text.isBlank c = true
  /-- Tables other than pivots are called by convention. -/
  names : ∀ p ∈ created, isPivot o p = false → Naming.tableName p.entityName = p.name
  /-- Every foreign key, also a conventional one of a pivot, points at a created table. -/
  targets : ∀ p ∈ created, ∀ k ∈ keysOf (tableOf o p), k.2.table ∈ created.map CreatedTable.name
  apart : ∀ p ∈ created, ∀ k ∈ keysOf (tableOf o p), k.1.primary = false ∧ k.1.isSystem = false
  columns : ∀ p ∈ created, ∀ c ∈ p.columns, c.name ≠ ""
  unmarked : ∀ p ∈ created,
    ∀ s ∈ writtenStrings o (some (inferFromMigrations o created).storageNames) (tableOf o p),
      Unmarked s

section Tables

variable {o : Options} {created : List CreatedTable} {p : CreatedTable}

theorem mem_keysOf {t : Table} {c : Column} {key : ForeignKey} :
    (c, key) ∈ keysOf t ↔ c ∈ t.columns ∧ c.foreignKey = some key := by
  unfold keysOf
  rw [List.mem_filterMap]
  constructor
  · rintro ⟨d, hd, h⟩
    obtain ⟨key', hkey, heq⟩ := Option.map_eq_some_iff.mp h
    obtain ⟨rfl, rfl⟩ := Prod.mk.inj heq
    exact ⟨hd, hkey⟩
  · rintro ⟨hc, hkey⟩
    exact ⟨c, hc, by rw [hkey]; rfl⟩

theorem Regenerable.storageName (h : Regenerable o created) (hp : p ∈ created) :
    (tableOf o p).storageName = p.name := by
  cases hpivot : isPivot o p with
  | true => rw [tableOf_pivot hpivot, storageName_of_pivot]
  | false => rw [tableOf_domain hpivot, storageName_of_domain, h.names p hp hpivot]

theorem Regenerable.mem_storageNames (h : Regenerable o created) {name : String} :
    name ∈ (inferFromMigrations o created).storageNames ↔ name ∈ created.map CreatedTable.name := by
  unfold Schema.storageNames
  rw [List.mem_map, List.mem_map]
  constructor
  · rintro ⟨t, ht, rfl⟩
    obtain ⟨p, hp, rfl⟩ := mem_tables.mp ht
    exact ⟨p, hp, (h.storageName hp).symm⟩
  · rintro ⟨p, hp, rfl⟩
    exact ⟨tableOf o p, mem_tables.mpr ⟨p, hp, rfl⟩, h.storageName hp⟩

/-- The keys are all written. -/
theorem Regenerable.knownKeys (h : Regenerable o created) (hp : p ∈ created) :
    knownKeys (some (inferFromMigrations o created).storageNames) (tableOf o p)
      = keysOf (tableOf o p) := by
  unfold Migration.knownKeys
  rw [List.filter_eq_self]
  intro k hk
  unfold isKnown
  rw [List.contains_iff_mem, h.mem_storageNames]
  exact h.targets p hp k hk

theorem Regenerable.keysApart (h : Regenerable o created) (hread : ∀ p ∈ created, WellRead p)
    (hp : p ∈ created) : KeysApart (tableOf o p) := by
  refine ⟨by rw [map_name_tableOf]; exact (hread p hp).distinct, ?_⟩
  intro c hc hkey
  obtain ⟨key, hkey⟩ := Option.ne_none_iff_exists'.mp hkey
  exact h.apart p hp (c, key) (mem_keysOf.mpr ⟨hc, hkey⟩)

/-- A key of a table that was read refers to a column with a name, and so does a conventional one. -/
theorem column_ne_empty_of_mem_keysOf (hread : WellRead p) {k : Column × ForeignKey}
    (hk : k ∈ keysOf (tableOf o p)) : k.2.column ≠ "" := by
  obtain ⟨c, key⟩ := k
  obtain ⟨hc, hkey⟩ := mem_keysOf.mp hk
  unfold tableOf at hc
  split at hc
  · obtain ⟨d, hd, rfl⟩ := List.mem_map.mp hc
    unfold conventionalKey Column.withKey at hkey
    split at hkey
    · split at hkey
      · rw [← Option.some.inj hkey]
        exact (by decide : "id" ≠ "")
      · exact hread.keys d hd key hkey
    · exact hread.keys d hd key hkey
  · exact hread.keys c hc key hkey

theorem Regenerable.writable (h : Regenerable o created) (hread : ∀ p ∈ created, WellRead p)
    (hp : p ∈ created) :
    Writable o (some (inferFromMigrations o created).storageNames) (tableOf o p) := by
  refine ⟨h.indent, ?_, ?_, (h.keysApart hread hp).distinct, ?_, h.unmarked p hp⟩
  · rw [h.storageName hp]
    exact (hread p hp).name
  · intro c hc
    have hname : c.name ∈ p.columns.map Column.name :=
      map_name_tableOf o p ▸ List.mem_map_of_mem hc
    obtain ⟨d, hd, heq⟩ := List.mem_map.mp hname
    rw [← heq]
    exact h.columns p hp d hd
  · intro k hk
    refine ⟨?_, column_ne_empty_of_mem_keysOf (hread p hp) hk⟩
    obtain ⟨q, hq, heq⟩ := List.mem_map.mp (h.targets p hp k hk)
    rw [← heq]
    intro hempty
    have := (hread q hq).name.isEmpty_eq_false
    rw [hempty] at this
    exact absurd this (by decide)

/-! ## Tables are rewritten -/

/-- The table that the migration of a created table creates. -/
def reread (o : Options) (created : List CreatedTable) (t : Table) : CreatedTable :=
  writtenTable o (some (inferFromMigrations o created).storageNames) t none

theorem isPivot_reread (h : Regenerable o created) (hp : p ∈ created) :
    isPivot o (reread o created (tableOf o p)) = isPivot o p := by
  have hname : (reread o created (tableOf o p)).name = p.name := h.storageName hp
  have hcount : ∀ q : String → Bool, (tableOf o p).columns.countP (q ∘ Column.name)
      = p.columns.countP (q ∘ Column.name) := by
    intro q
    rw [← List.countP_map, ← List.countP_map, map_name_tableOf]
  have hshape : hasPivotShape (reread o created (tableOf o p)).columns systemColumns
      = hasPivotShape p.columns systemColumns := by
    unfold reread
    rw [hasPivotShape_writtenTable, hasPivotShape_eq, hasPivotShape_eq, hcount, hcount]
  unfold isPivot isPivotTable
  rw [h.system, hname, hshape]

theorem hasKeyName_congr {c d : Column} (h : c.name = d.name) : c.hasKeyName = d.hasKeyName := by
  unfold Column.hasKeyName
  rw [h]

theorem conventionalKey_eq_self {c : Column} (h : c.hasKeyName = true → c.foreignKey ≠ none) :
    conventionalKey c = c := by
  unfold conventionalKey Column.withKey
  cases hn : c.hasKeyName with
  | false => rfl
  | true =>
    cases hk : c.foreignKey with
    | none => exact absurd hk (h hn)
    | some key => simp

/-- Every column of a pivot that is named for a key has one. -/
theorem foreignKey_ne_none (hpivot : isPivot o p = true) {c : Column}
    (hc : c ∈ (tableOf o p).columns) (hn : c.hasKeyName = true) : c.foreignKey ≠ none := by
  unfold tableOf at hc
  rw [if_pos hpivot] at hc
  obtain ⟨d, -, rfl⟩ := List.mem_map.mp hc
  have hd : d.hasKeyName = true := (hasKeyName_congr (conventionalKey_name d)).symm.trans hn
  unfold conventionalKey Column.withKey
  rw [if_pos hd]
  cases hk : d.foreignKey with
  | none => simp
  | some key => simp [hk]

theorem hasKeyName_of_isSystem {c : Column} (h : c.isSystem = true) : c.hasKeyName = false := by
  have hall : ∀ n ∈ systemColumns, Naming.isKeyName n = false := by decide
  exact hall c.name (List.contains_iff_mem.mp h)

/-- Where every column that is named for a key has one, the columns that are read back have their
keys already. -/
theorem map_conventionalKey_writtenTable {known : Option (List String)} {t : Table}
    (h : KeysApart t) (hknown : Migration.knownKeys known t = keysOf t)
    (hkeyed : ∀ c ∈ t.columns, c.hasKeyName = true → c.foreignKey ≠ none)
    (source : Option String) :
    (writtenTable o known t source).columns.map conventionalKey
      = (writtenTable o known t source).columns := by
  obtain ⟨added, hcolumns, hadded⟩ := columns_writtenTable (o := o) h hknown source
  refine (List.map_congr_left fun c hc => conventionalKey_eq_self fun hn => ?_).trans
    (List.map_id _)
  rw [hcolumns] at hc
  rcases List.mem_cons.mp hc with rfl | hc
  · rcases writtenPrimary_apart t with hs | ⟨d, hd, hprimary, hname⟩
    · rw [hasKeyName_of_isSystem hs] at hn
      exact absurd hn (by simp)
    · have hdn : d.hasKeyName = true := (hasKeyName_congr hname).trans hn
      have := h.apart d hd (hkeyed d hd hdn)
      rw [hprimary] at this
      exact absurd this.1 (by simp)
  · rcases List.mem_append.mp hc with hc | hc
    · obtain ⟨d, hd, rfl⟩ := List.mem_map.mp hc
      have hkey : d.foreignKey ≠ none := hkeyed d (mem_of_mem_statedColumns hd) hn
      exact hkey
    · have hs := isSystem_of_provided (mem_providedBy (hadded c hc)).1
      rw [hasKeyName_of_isSystem hs] at hn
      exact absurd hn (by simp)

/-- **A table that is read back stands for the table that was written.** -/
theorem rewrites_reread (h : Regenerable o created) (hread : ∀ p ∈ created, WellRead p)
    (hp : p ∈ created) :
    Rewrites o (tableOf o p) (tableOf o (reread o created (tableOf o p))) := by
  have hpivot := isPivot_reread h hp
  have hname : (reread o created (tableOf o p)).name = p.name := h.storageName hp
  refine rewrites_of_columns (h.keysApart hread hp) (h.knownKeys hp) none ?_ ?_ ?_
  · rw [h.storageName hp]
    cases hp' : isPivot o p with
    | true => rw [tableOf_pivot (hpivot.trans hp'), storageName_of_pivot, hname]
    | false =>
      have hentity : (reread o created (tableOf o p)).entityName = p.entityName := by
        unfold CreatedTable.entityName
        rw [hname]
      rw [tableOf_domain (hpivot.trans hp'), storageName_of_domain, hentity, h.names p hp hp']
  · rw [isPivot_tableOf, isPivot_tableOf, hpivot]
  · cases hp' : isPivot o p with
    | true =>
      rw [tableOf_pivot (hpivot.trans hp')]
      exact map_conventionalKey_writtenTable (h.keysApart hread hp) (h.knownKeys hp)
        (fun c hc => foreignKey_ne_none hp' hc) none
    | false =>
      rw [tableOf_domain (hpivot.trans hp')]
      rfl

/-! ## Files -/

/-- A pivot has two keys, and both are written. -/
theorem length_keyNames_tableOf (hpivot : isPivot o p = true) :
    (keyNames (tableOf o p)).length = 2 := by
  have hnames : (keyNames (tableOf o p)).length
      = (tableOf o p).columns.countP (Naming.isKeyName ∘ Column.name) := by
    unfold keyNames Table.keyColumns
    rw [List.length_map, List.filter_filter, ← List.countP_eq_length_filter]
    apply List.countP_congr
    intro c hc
    rw [Bool.and_eq_true]
    refine ⟨fun hn => hn.1, fun hn => ⟨hn, ?_⟩⟩
    exact Option.isSome_iff_ne_none.mpr (foreignKey_ne_none hpivot hc hn)
  have hcount : p.columns.countP (Naming.isKeyName ∘ Column.name) = 2 := by
    unfold isPivot isPivotTable at hpivot
    rw [hasPivotShape_eq] at hpivot
    simp only [Bool.and_eq_true, beq_iff_eq] at hpivot
    exact hpivot.2.1
  rw [hnames, ← List.countP_map, map_name_tableOf, List.countP_map, hcount]

/-- A table that migrations create can be written. -/
theorem writeTable_tableOf (o : Options) (p : CreatedTable) (known : Option (List String))
    (at_ : Timestamp) :
    writeTable o known at_ (tableOf o p) = .ok (fileOf o known at_ (tableOf o p)) := by
  rw [writeTable_eq, if_neg]
  rw [Bool.and_eq_true, isPivot_tableOf, not_and]
  intro hpivot
  rw [length_keyNames_tableOf hpivot]
  simp

/-- Tables that can be written are written, as far as there is time. -/
theorem writeTables_eq_ok {known : List String} {ts : List Table} {at? : Option Timestamp}
    (hok : ∀ t ∈ ts, ∀ at_, writeTable o (some known) at_ t = .ok (fileOf o (some known) at_ t))
    (htime : ∀ i < ts.length, (at?.bind (Timestamp.later? i)).isSome = true) :
    ∃ files, writeTables o known at? ts = .ok files
      ∧ files.map GeneratedFile.content = ts.map (contentOf o (some known)) := by
  induction ts generalizing at? with
  | nil => exact ⟨[], by cases at? <;> rfl, rfl⟩
  | cons t ts ih =>
    have hfirst := htime 0 (Nat.zero_lt_succ _)
    cases hat : at? with
    | none =>
      rw [hat] at hfirst
      exact absurd hfirst (by simp)
    | some at_ =>
      have hnext : ∀ i < ts.length, (at_.next?.bind (Timestamp.later? i)).isSome = true := by
        intro i hi
        have := htime (i + 1) (Nat.succ_lt_succ hi)
        rw [hat, Option.bind_some, Timestamp.later?] at this
        exact this
      obtain ⟨files, hfiles, hcontents⟩ :=
        ih (fun s hs => hok s (List.mem_cons_of_mem t hs)) hnext
      refine ⟨fileOf o (some known) at_ t :: files, ?_, ?_⟩
      · unfold writeTables
        rw [hok t List.mem_cons_self at_, hfiles]
        rfl
      · rw [List.map_cons, List.map_cons, hcontents, fileOf_content]

/-- Tables with the same migrations are written alike. -/
theorem writeTables_map {known : List String} {g : Table → Table} {ts : List Table}
    (h : ∀ t ∈ ts, ∀ at_, writeTable o (some known) at_ (g t) = writeTable o (some known) at_ t)
    (at? : Option Timestamp) : writeTables o known at? (ts.map g) = writeTables o known at? ts := by
  induction ts generalizing at? with
  | nil => rfl
  | cons t ts ih =>
    cases at? with
    | none => rfl
    | some at_ =>
      rw [List.map_cons]
      unfold writeTables
      rw [h t List.mem_cons_self, ih fun s hs => h s (List.mem_cons_of_mem t hs)]

/-- Contents without labels. -/
theorem labelled_nil (contents : List String) :
    labelled contents [] = contents.map fun content => (content, none) := by
  unfold labelled
  rw [List.map_nil, List.nil_append]
  induction contents with
  | nil => rfl
  | cons content contents ih =>
    rw [List.length_cons, List.replicate_succ, List.zip_cons_cons, ih, List.map_cons]

/-- A migration is read by its characters. -/
theorem readMigration_ofList (cs : List Char) (source : Option String) :
    readMigration (String.ofList cs) source
      = (creationsIn (Builder.withoutComments cs)).mapM fun c =>
        CreatedTable.ofBody c.name c.body source := by
  unfold readMigration
  rw [String.toList_ofList]

/-- Migrations that create one table each are read as these tables. -/
theorem readMigrations_map {α : Type} {xs : List α} {f : α → String} {g : α → CreatedTable}
    (h : ∀ x ∈ xs, readMigration (f x) none = .ok [g x]) :
    readMigrations (xs.map f) [] = .ok (xs.map g) := by
  have hread : ((xs.map f).map fun content => (content, (none : Option String))).mapM
        (fun labelled => readMigration labelled.1 labelled.2)
      = .ok (xs.map fun x => [g x]) := by
    rw [List.map_map, List.mapM_map]
    exact mapM_eq_ok h
  have hflat : (xs.map fun x => [g x]).flatten = xs.map g := by
    rw [← List.flatMap_def, List.map_eq_flatMap]
  unfold readMigrations
  rw [labelled_nil]
  exact (congrArg (Except.map List.flatten) hread).trans (congrArg Except.ok hflat)

/-- Migrations are read one by one. -/
theorem readMigrations_of_forall₂ {contents : List String} {created : List CreatedTable}
    (h : List.Forall₂ (fun content t => readMigration content none = .ok [t]) contents created) :
    readMigrations contents [] = .ok created := by
  obtain ⟨hlength, hall⟩ := List.forall₂_iff_zip.mp h
  have hread : ∀ x ∈ contents.zip created, readMigration x.1 none = .ok [x.2] :=
    fun x hx => hall (a := x.1) (b := x.2) hx
  have hzip := readMigrations_map hread
  rwa [List.map_fst_zip (le_of_eq hlength), List.map_snd_zip (le_of_eq hlength.symm)] at hzip

theorem regenerate_eq {contents : List String} {startedAt : Timestamp}
    (hcreated : readMigrations contents [] = .ok created) :
    regenerate o startedAt contents
      = (writeTables o (inferFromMigrations o created).storageNames (some startedAt)
          (inferFromMigrations o created).tables).mapError .write := by
  have hs : schemaOfMigrations o contents [] = .ok (inferFromMigrations o created) := by
    unfold schemaOfMigrations
    rw [hcreated]
    rfl
  unfold regenerate writeAll
  rw [hs]
  simp only [Except.mapError, bind, Except.bind, unpivoted?_inferFromMigrations]

/-- The schema of the migrations of a schema has its tables rewritten, in the same order. -/
theorem tables_reread (h : Regenerable o created) :
    (inferFromMigrations o ((inferFromMigrations o created).tables.map (reread o created))).tables
      = (inferFromMigrations o created).tables.map fun t => tableOf o (reread o created t) := by
  have hpivots : ∀ t ∈ created.map (tableOf o),
      (tableOf o (reread o created t)).isPivot = t.isPivot := by
    intro t ht
    obtain ⟨p, hp, rfl⟩ := List.mem_map.mp ht
    rw [isPivot_tableOf, isPivot_tableOf, isPivot_reread h hp]
  have horder := Table.order_map_order hpivots
  show Table.order (((inferFromMigrations o created).tables.map _).map _) = _
  rw [List.map_map]
  exact horder

/-- **Generated migrations are a normal form.** Where every table but the pivots is called by
convention, and every foreign key points at a created table and is on no primary or system column,
migrations lead to migrations that lead to themselves: the same tables in the same order, with the
same file names and the same contents. -/
theorem regenerate_regenerate {contents : List String} (startedAt : Timestamp)
    (hcreated : readMigrations contents [] = .ok created) (h : Regenerable o created)
    (htime : ∀ i < created.length, (startedAt.later? i).isSome = true) :
    ∃ files, regenerate o startedAt contents = .ok files
      ∧ regenerate o startedAt (files.map GeneratedFile.content) = .ok files := by
  have hread := wellRead_readMigrations hcreated
  have hlength : (inferFromMigrations o created).tables.length = created.length := by
    show (Table.order _).length = _
    rw [Table.length_order, List.length_map]
  have hok : ∀ t ∈ (inferFromMigrations o created).tables, ∀ at_,
      writeTable o (some (inferFromMigrations o created).storageNames) at_ t
        = .ok (fileOf o (some (inferFromMigrations o created).storageNames) at_ t) := by
    intro t ht at_
    obtain ⟨p, -, rfl⟩ := mem_tables.mp ht
    exact writeTable_tableOf o p _ at_
  have hlasts : ∀ i < (inferFromMigrations o created).tables.length,
      ((some startedAt).bind (Timestamp.later? i)).isSome = true := by
    rw [hlength]
    exact htime
  obtain ⟨files, hfiles, hcontents⟩ := writeTables_eq_ok hok hlasts
  have hreread : readMigrations (files.map GeneratedFile.content) []
      = .ok ((inferFromMigrations o created).tables.map (reread o created)) := by
    rw [hcontents]
    apply readMigrations_map
    intro t ht
    obtain ⟨p, hp, rfl⟩ := mem_tables.mp ht
    unfold reread
    rw [readMigration_contentOf (h.writable hread hp) none]
  have hrewrites : ∀ t ∈ (inferFromMigrations o created).tables,
      Rewrites o t (tableOf o (reread o created t)) ∧ KeysApart t := by
    intro t ht
    obtain ⟨p, hp, rfl⟩ := mem_tables.mp ht
    exact ⟨rewrites_reread h hread hp, h.keysApart hread hp⟩
  have hnames : (inferFromMigrations o
      ((inferFromMigrations o created).tables.map (reread o created))).storageNames
        = (inferFromMigrations o created).storageNames := by
    unfold Schema.storageNames
    rw [tables_reread h, List.map_map]
    exact List.map_congr_left fun t ht => (hrewrites t ht).1.storageName
  refine ⟨files, ?_, ?_⟩
  · rw [regenerate_eq hcreated, hfiles]
    rfl
  · rw [regenerate_eq hreread, hnames, tables_reread h, writeTables_map, hfiles]
    · rfl
    · intro t ht at_
      exact writeTable_of_rewrites (hrewrites t ht).1 (hrewrites t ht).2 at_

end Tables

/-- A migration that creates the notes, each of which may answer another. -/
def notesMigration : String :=
  "Schema::create('notes', function ($table) \x7b$table->foreignId('note_id')->nullable()
    ->constrained();\x7d);"

/-- The table that `notesMigration` creates. -/
def notes : CreatedTable :=
  { name := "notes"
    columns := [{ name := "note_id", type := .bigint, foreignKey := some { table := "notes" } }]
    keys := [{ column := "note_id", on := "notes" }] }

set_option maxRecDepth 8000 in
theorem readMigrations_notes : readMigrations [notesMigration] [] = .ok [notes] := by
  have hread : readMigration notesMigration none = .ok [notes] := by
    unfold notesMigration
    rw [readMigration_ofList]
    decide +kernel
  exact readMigrations_of_forall₂ (.cons hread .nil)

theorem regenerate_regenerate_notes :
    ∃ files, regenerate {} ⟨2024, 3, 5, 14, 7, 9⟩ [notesMigration] = .ok files
      ∧ regenerate {} ⟨2024, 3, 5, 14, 7, 9⟩ (files.map GeneratedFile.content) = .ok files := by
  have h : Regenerable {} [notes] :=
    { system := rfl
      indent := by decide
      names := by decide +kernel
      targets := by decide +kernel
      apart := by decide +kernel
      columns := by decide
      unmarked := by decide +kernel }
  exact regenerate_regenerate _ readMigrations_notes h (by decide)

end Migration

end Crowsfoot
