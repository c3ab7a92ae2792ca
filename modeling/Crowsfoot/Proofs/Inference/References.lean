import Mathlib.Data.List.Forall2
import Crowsfoot.Proofs.Inference.FromMigrations

/-!
# The references of migrations

Migrations refer from columns to tables. `accounts_of_migrations` says where each reference is found
in the schema, and that nothing else is there:

* A foreign key of a domain table is a relationship, an unresolved reference, or, if its column is
  not named for a key, neither (`ColumnAccount`).
* The two keys of a pivot are one relationship together. If some key of it leads nowhere there is
  no relationship, and each such key is an unresolved reference (`TableAccount`).

What a table contributes depends on the names of all tables, but not on their order. So in another
order the schema has the same tables, relationships and unresolved references in another order.
-/

namespace Crowsfoot.Inference

open Crowsfoot.Migration Crowsfoot.Naming

/-! ## Accounts -/

/-- What a table or a column contributes to a schema. -/
structure Account where
  relationships : List Relationship := []
  unresolved : List Unresolved := []
  deriving Repr, DecidableEq

/-- The contributions of several, one after another. -/
def Account.total (accounts : List Account) : Account :=
  { relationships := accounts.flatMap Account.relationships
    unresolved := accounts.flatMap Account.unresolved }

/-- The foreign key of a column of a pivot: the declared one, or by convention that of its name. -/
def pivotKey? (c : Column) : Option ForeignKey :=
  c.foreignKey.or (if c.hasKeyName then some { table := tableOfForeignKey c.name } else none)

section Accounts

variable (o : Options) (known : List String) (t : CreatedTable) (c : Column)

/-- How the foreign key of a column of a domain table is accounted for; the cases exclude each
other. -/
inductive ColumnAccount : Account → Prop
  | keyless (h : c.foreignKey = none) : ColumnAccount {}
  | unnamed {key : ForeignKey} (hkey : c.foreignKey = some key) (hknown : key.table ∈ known)
      (hname : c.hasKeyName = false) : ColumnAccount {}
  | oneToOne {key : ForeignKey} (hkey : c.foreignKey = some key) (hknown : key.table ∈ known)
      (hname : c.hasKeyName = true) (hunique : [c.name] ∈ t.uniqueSets) :
      ColumnAccount { relationships := [.oneToOne (entityName key.table) (entityName t.name)] }
  | oneToMany {key : ForeignKey} (hkey : c.foreignKey = some key) (hknown : key.table ∈ known)
      (hname : c.hasKeyName = true) (hunique : [c.name] ∉ t.uniqueSets) :
      ColumnAccount { relationships := [.oneToMany (entityName key.table) (entityName t.name)] }
  | unresolved {key : ForeignKey} (hkey : c.foreignKey = some key) (hknown : key.table ∉ known) :
      ColumnAccount
        { unresolved := [{ table := t.name, column := c.name, references := key.table }] }

/-- How a column of a pivot that has no relationship is accounted for. -/
inductive LooseAccount : Account → Prop
  | resolved (h : ∀ key ∈ pivotKey? c, key.table ∈ known) : LooseAccount {}
  | unresolved {key : ForeignKey} (hkey : pivotKey? c = some key) (hknown : key.table ∉ known) :
      LooseAccount
        { unresolved := [{ table := t.name, column := c.name, references := key.table }] }

/-- How the foreign keys of a table are accounted for; the cases exclude each other. -/
inductive TableAccount : Account → Prop
  | skipped (h : t.name ∈ o.skipTables) : TableAccount {}
  | domain (hkept : t.name ∉ o.skipTables) (hpivot : isPivot o t = false) {accounts : List Account}
      (hcolumns : List.Forall₂ (ColumnAccount known t) t.columns accounts) :
      TableAccount (.total accounts)
  | joined (hkept : t.name ∉ o.skipTables) (hpivot : isPivot o t = true) {a b : Column}
      (hkeys : t.columns.filter Column.hasKeyName = [a, b]) {first second : ForeignKey}
      (ha : pivotKey? a = some first) (hb : pivotKey? b = some second)
      (hknown : ∀ c ∈ t.columns, ∀ key ∈ pivotKey? c, key.table ∈ known) :
      TableAccount
        { relationships :=
            [.manyToMany (entityName first.table) (entityName second.table) (some t.name)] }
  | loose (hkept : t.name ∉ o.skipTables) (hpivot : isPivot o t = true)
      (hmissing : ∃ c ∈ t.columns, ∃ key ∈ pivotKey? c, key.table ∉ known)
      {accounts : List Account}
      (hcolumns : List.Forall₂ (LooseAccount known t) t.columns accounts) :
      TableAccount (.total accounts)

end Accounts

variable {o : Options} {known : List String} {t : CreatedTable}

/-! ## References of columns -/

/-- The columns with foreign keys among some columns, and the tables they refer to. -/
def referencesIn (columns : List Column) : List (String × String) :=
  columns.filterMap fun c => c.foreignKey.map fun key => (c.name, key.table)

/-- The relationships of a domain table for some references. -/
def relationshipsIn (known : List String) (t : CreatedTable) (refs : List (String × String)) :
    List Relationship :=
  (refs.filter fun r => isKeyName r.1 && known.contains r.2).map fun r =>
    classify (entityName r.2) t.entityName r.1 t.uniqueSets

/-- The unresolved references of a table for some references. -/
def unresolvedIn (known : List String) (t : CreatedTable) (refs : List (String × String)) :
    List Unresolved :=
  (refs.filter fun r => !known.contains r.2).map fun r =>
    { table := t.name, column := r.1, references := r.2 }

/-- What comes of some references comes of those of each column. -/
theorem map_filter_referencesIn {β : Type} (p : String × String → Bool) (f : String × String → β)
    (columns : List Column) :
    ((referencesIn columns).filter p).map f
      = columns.flatMap fun c => ((referencesIn [c]).filter p).map f := by
  unfold referencesIn
  induction columns with
  | nil => rfl
  | cons c columns ih =>
    rw [List.flatMap_cons, ← ih, ← List.map_append, ← List.filter_append, ← List.filterMap_append,
      List.singleton_append]

theorem relationshipsIn_eq_flatMap (columns : List Column) :
    relationshipsIn known t (referencesIn columns)
      = columns.flatMap fun c => relationshipsIn known t (referencesIn [c]) :=
  map_filter_referencesIn _ _ columns

theorem unresolvedIn_eq_flatMap (columns : List Column) :
    unresolvedIn known t (referencesIn columns)
      = columns.flatMap fun c => unresolvedIn known t (referencesIn [c]) :=
  map_filter_referencesIn _ _ columns

/-! ## Domain tables -/

/-- What a column of a domain table contributes. -/
def columnAccount (known : List String) (t : CreatedTable) (c : Column) : Account :=
  { relationships := relationshipsIn known t (referencesIn [c])
    unresolved := unresolvedIn known t (referencesIn [c]) }

theorem columnAccount_accounts (known : List String) (t : CreatedTable) (c : Column) :
    ColumnAccount known t c (columnAccount known t c) := by
  unfold columnAccount relationshipsIn unresolvedIn referencesIn
  cases hkey : c.foreignKey with
  | none => simpa [hkey] using .keyless hkey
  | some key =>
    by_cases hknown : key.table ∈ known
    · cases hname : c.hasKeyName with
      | false =>
        have hname' : isKeyName c.name = false := hname
        simpa [hkey, hknown, hname'] using .unnamed hkey hknown hname
      | true =>
        have hname' : isKeyName c.name = true := hname
        by_cases hunique : [c.name] ∈ t.uniqueSets
        · simpa [hkey, hknown, hname', classify, hunique, CreatedTable.entityName]
            using .oneToOne hkey hknown hname hunique
        · simpa [hkey, hknown, hname', classify, hunique, CreatedTable.entityName]
            using .oneToMany hkey hknown hname hunique
    · simpa [hkey, hknown] using .unresolved hkey hknown

/-- The columns of a domain table contribute what the table does. -/
theorem total_columnAccount (columns : List Column) :
    Account.total (columns.map (columnAccount known t))
      = { relationships := relationshipsIn known t (referencesIn columns)
          unresolved := unresolvedIn known t (referencesIn columns) } := by
  unfold Account.total
  rw [List.flatMap_map, List.flatMap_map, relationshipsIn_eq_flatMap, unresolvedIn_eq_flatMap]
  rfl

/-! ## Pivots -/

theorem foreignKey_conventionalKey (c : Column) :
    (conventionalKey c).foreignKey = pivotKey? c := by
  unfold conventionalKey Column.withKey pivotKey?
  cases hname : c.hasKeyName with
  | false => simp
  | true => cases hkey : c.foreignKey <;> simp [hkey]

/-- The references of a pivot are the keys of its columns. -/
theorem referencesIn_conventionalKey (columns : List Column) :
    referencesIn (columns.map conventionalKey)
      = columns.filterMap fun c => (pivotKey? c).map fun key => (c.name, key.table) := by
  unfold referencesIn
  rw [List.filterMap_map]
  refine List.filterMap_congr fun c _ => ?_
  rw [Function.comp_apply, foreignKey_conventionalKey, conventionalKey_name]

/-- What a column of a pivot without relationship contributes. -/
def looseAccount (known : List String) (t : CreatedTable) (c : Column) : Account :=
  { unresolved := unresolvedIn known t (referencesIn [conventionalKey c]) }

theorem looseAccount_accounts (known : List String) (t : CreatedTable) (c : Column) :
    LooseAccount known t c (looseAccount known t c) := by
  have hrefs := referencesIn_conventionalKey [c]
  rw [List.map_singleton] at hrefs
  unfold looseAccount unresolvedIn
  rw [hrefs]
  cases hkey : pivotKey? c with
  | none => simpa [hkey] using .resolved (by simp [hkey])
  | some key =>
    by_cases hknown : key.table ∈ known
    · simpa [hkey, hknown] using .resolved (by simpa [hkey] using hknown)
    · simpa [hkey, hknown] using .unresolved hkey hknown

theorem total_looseAccount (columns : List Column) :
    Account.total (columns.map (looseAccount known t))
      = { unresolved := unresolvedIn known t (referencesIn (columns.map conventionalKey)) } := by
  unfold Account.total
  rw [List.flatMap_map, List.flatMap_map, unresolvedIn_eq_flatMap, List.flatMap_map]
  congr 1
  exact List.flatMap_eq_nil_iff.mpr fun c _ => rfl

/-- A column that is named for a key has one in a pivot. -/
theorem exists_pivotKey {c : Column} (h : c.hasKeyName = true) : ∃ key, pivotKey? c = some key := by
  unfold pivotKey?
  rw [if_pos h]
  cases c.foreignKey with
  | none => exact ⟨_, rfl⟩
  | some key => exact ⟨key, rfl⟩

/-- The references of key columns, one for each. -/
theorem filter_references_pivot {columns : List Column} :
    (referencesIn (columns.map conventionalKey)).filter (fun r => isKeyName r.1)
      = (columns.filter Column.hasKeyName).filterMap fun c =>
          (pivotKey? c).map fun key => (c.name, key.table) := by
  rw [referencesIn_conventionalKey, List.filter_filterMap, List.filterMap_filter]
  refine List.filterMap_congr fun c _ => ?_
  cases hkey : pivotKey? c with
  | none => simp
  | some key =>
    rw [Option.map_some, Option.filter_some]
    rfl

/-- A pivot has two columns that are named for keys. -/
theorem exists_keyColumns (h : isPivot o t = true) :
    ∃ a b, t.columns.filter Column.hasKeyName = [a, b] := by
  unfold isPivot isPivotTable hasPivotShape at h
  simp only [Bool.and_eq_true, beq_iff_eq] at h
  rw [List.countP_eq_length_filter] at h
  exact List.length_eq_two.mp h.2.1

/-! ## Tables -/

/-- What a table contributes. -/
def accountOf (o : Options) (known : List String) (t : CreatedTable) : Account :=
  { relationships := relationshipsOf o known t, unresolved := unresolvedOf o known t }

theorem relationshipsOf_kept (h : t.name ∉ o.skipTables) :
    relationshipsOf o known t
      = if isPivot o t then pivotRelationship known t (references (tableOf o t))
        else relationshipsIn known t (references (tableOf o t)) := by
  unfold relationshipsOf isSkipped
  rw [if_neg (by simpa using h)]
  rfl

theorem unresolvedOf_kept (h : t.name ∉ o.skipTables) :
    unresolvedOf o known t = unresolvedIn known t (references (tableOf o t)) := by
  unfold unresolvedOf isSkipped
  rw [if_neg (by simpa using h)]
  rfl

/-- A pivot has its relationship, or loose ends. -/
theorem tableAccount_pivot (hkept : t.name ∉ o.skipTables) (hpivot : isPivot o t = true) :
    TableAccount o known t (accountOf o known t) := by
  have hrefs : references (tableOf o t) = referencesIn (t.columns.map conventionalKey) := by
    rw [tableOf_pivot hpivot]
    rfl
  unfold accountOf
  rw [relationshipsOf_kept hkept, unresolvedOf_kept hkept, if_pos hpivot, hrefs]
  unfold pivotRelationship
  have hiff :
      ((referencesIn (t.columns.map conventionalKey)).all fun r => known.contains r.2) = true
      ↔ ∀ c ∈ t.columns, ∀ key ∈ pivotKey? c, key.table ∈ known := by
    rw [referencesIn_conventionalKey, List.all_eq_true]
    simp only [List.mem_filterMap, Option.map_eq_some_iff, List.contains_iff_mem]
    constructor
    · intro h c hc key hkey
      exact h (c.name, key.table) ⟨c, hc, key, hkey, rfl⟩
    · rintro h _ ⟨c, hc, key, hkey, rfl⟩
      exact h c hc key hkey
  by_cases hknown : ∀ c ∈ t.columns, ∀ key ∈ pivotKey? c, key.table ∈ known
  · obtain ⟨a, b, hkeys⟩ := exists_keyColumns hpivot
    have hnamed : ∀ c ∈ [a, b], c.hasKeyName = true := fun c hc => by
      rw [← hkeys] at hc
      exact (List.mem_filter.mp hc).2
    obtain ⟨first, ha⟩ := exists_pivotKey (hnamed a (by simp))
    obtain ⟨second, hb⟩ := exists_pivotKey (hnamed b (by simp))
    have hnone : unresolvedIn known t (referencesIn (t.columns.map conventionalKey)) = [] := by
      unfold unresolvedIn
      rw [List.map_eq_nil_iff, List.filter_eq_nil_iff]
      intro r hr
      simpa using List.all_eq_true.mp (hiff.mpr hknown) r hr
    rw [if_pos (hiff.mpr hknown), filter_references_pivot, hkeys, hnone]
    simp only [List.filterMap_cons, ha, hb, Option.map_some, List.filterMap_nil, List.map_cons,
      List.map_nil]
    exact .joined hkept hpivot hkeys ha hb hknown
  · rw [if_neg (fun h => hknown (hiff.mp h)), ← total_looseAccount]
    refine .loose hkept hpivot (by simpa using hknown) ?_
    rw [List.forall₂_map_right_iff, List.forall₂_same]
    exact fun c _ => looseAccount_accounts known t c

/-- **Every reference of a table is accounted for.** -/
theorem tableAccount (o : Options) (known : List String) (t : CreatedTable) :
    TableAccount o known t (accountOf o known t) := by
  by_cases hkept : t.name ∈ o.skipTables
  · have hskipped : isSkipped o t = true := by simpa [isSkipped] using hkept
    unfold accountOf relationshipsOf unresolvedOf
    rw [if_pos hskipped, if_pos hskipped]
    exact .skipped hkept
  · cases hpivot : isPivot o t with
    | true => exact tableAccount_pivot hkept hpivot
    | false =>
      have hrefs : references (tableOf o t) = referencesIn t.columns := by
        rw [tableOf_domain hpivot]
        rfl
      unfold accountOf
      rw [relationshipsOf_kept hkept, unresolvedOf_kept hkept, hpivot, if_neg Bool.false_ne_true,
        hrefs, ← total_columnAccount]
      refine .domain hkept hpivot ?_
      rw [List.forall₂_map_right_iff, List.forall₂_same]
      exact fun c _ => columnAccount_accounts known t c

/-! ## Schemas -/

/-- A schema consists of created tables in order and of what they contribute. -/
structure Collects (o : Options) (account : CreatedTable → Account) (created : List CreatedTable)
    (s : Schema) : Prop where
  domain : s.domainTables = (created.filter fun t => !isPivot o t).map (tableOf o)
  pivots : s.pivotTables = (created.filter fun t => isPivot o t).map (tableOf o)
  order : s.tables = s.domainTables ++ s.pivotTables
  relationships : s.relationships = created.flatMap fun t => (account t).relationships
  unresolved : s.unresolved = created.flatMap fun t => (account t).unresolved

theorem collects_inferFromMigrations (o : Options) (created : List CreatedTable) :
    Collects o (accountOf o (created.map CreatedTable.name)) created
      (inferFromMigrations o created) := by
  have hpivots : (fun t : Table => t.isPivot) ∘ tableOf o = fun t => isPivot o t :=
    funext fun t => isPivot_tableOf o t
  have hdomains : (fun t : Table => !t.isPivot) ∘ tableOf o = fun t => !isPivot o t :=
    funext fun t => congrArg (!·) (isPivot_tableOf o t)
  have hparts : (inferFromMigrations o created).domainTables
        = (created.map (tableOf o)).filter (fun t => !t.isPivot)
      ∧ (inferFromMigrations o created).pivotTables
        = (created.map (tableOf o)).filter fun t => t.isPivot :=
    Table.filter_append (fun t ht => by simpa using (List.mem_filter.mp ht).2)
      (fun t ht => (List.mem_filter.mp ht).2)
  refine ⟨?_, ?_, ?_, rfl, rfl⟩
  · rw [hparts.1, List.filter_map, hdomains]
  · rw [hparts.2, List.filter_map, hpivots]
  · rw [hparts.1, hparts.2]
    rfl

/-- Two schemas have different orders of domain tables, pivots, relationships and unresolved
references, and nothing else. -/
structure Reordered (s s' : Schema) : Prop where
  domain : s.domainTables.Perm s'.domainTables
  pivots : s.pivotTables.Perm s'.pivotTables
  relationships : s.relationships.Perm s'.relationships
  unresolved : s.unresolved.Perm s'.unresolved

theorem Collects.reordered {account : CreatedTable → Account} {created others : List CreatedTable}
    {s s' : Schema} (h : Collects o account created s) (h' : Collects o account others s')
    (hperm : created.Perm others) : Reordered s s' := by
  refine ⟨?_, ?_, ?_, ?_⟩
  · rw [h.domain, h'.domain]
    exact (hperm.filter _).map _
  · rw [h.pivots, h'.pivots]
    exact (hperm.filter _).map _
  · rw [h.relationships, h'.relationships]
    exact hperm.flatMap_right _
  · rw [h.unresolved, h'.unresolved]
    exact hperm.flatMap_right _

/-- What a table contributes depends on which tables are known, not on their order. -/
theorem accountOf_congr {others : List String} (h : ∀ name, name ∈ known ↔ name ∈ others) :
    accountOf o known = accountOf o others := by
  have hcontains : known.contains = others.contains := by
    funext name
    rw [Bool.eq_iff_iff, List.contains_iff_mem, List.contains_iff_mem, h]
  unfold accountOf relationshipsOf unresolvedOf pivotRelationship
  rw [hcontains]

/-- **Every reference in migrations is accounted for exactly once, in any order of the tables.**
Each table contributes on its own, what `TableAccount` says given the names of all tables; the
schema has these contributions in the order of the tables, and nothing else. So another order of the
tables reorders domain tables, pivots, relationships and unresolved references, each among
themselves. -/
theorem accounts_of_migrations (o : Options) {created others : List CreatedTable}
    (hperm : created.Perm others) :
    ∃ account : CreatedTable → Account,
      (∀ t, TableAccount o (created.map CreatedTable.name) t (account t))
        ∧ Collects o account created (inferFromMigrations o created)
        ∧ Collects o account others (inferFromMigrations o others)
        ∧ Reordered (inferFromMigrations o created) (inferFromMigrations o others) := by
  have hcreated := collects_inferFromMigrations o created
  have hothers := collects_inferFromMigrations o others
  rw [accountOf_congr fun name => (hperm.map CreatedTable.name).mem_iff.symm] at hothers
  exact ⟨accountOf o (created.map CreatedTable.name), tableAccount o _, hcreated, hothers,
    hcreated.reordered hothers hperm⟩

/-- A column with a foreign key to a table. -/
def referring (name table : String) : Column :=
  { name, type := .bigint, foreignKey := some { table } }

/-- Created tables with references of all sorts: posts have one author each, a cover that is no key
by its name, and a topic that is not there; one pivot is whole, one leads nowhere, and sessions take
no part. -/
def createdPosts : List CreatedTable :=
  [{ name := "posts"
     columns :=
       [referring "author_id" "users", referring "cover" "users", referring "topic_id" "topics"]
     uniqueSets := [["author_id"]] },
   { name := "role_user", columns := [{ name := "role_id" }, referring "user_id" "users"] },
   { name := "post_tag", columns := [referring "post_id" "posts", { name := "tag_id" }] },
   { name := "sessions"
     columns := [referring "user_id" "users", referring "device_id" "devices"] },
   { name := "roles", columns := [referring "owner_id" "users"] },
   { name := "users" }]

example :
    (inferFromMigrations {} createdPosts).relationships
        = [.oneToOne "User" "Post", .manyToMany "Role" "User" (some "role_user"),
          .oneToMany "User" "Role"]
      ∧ (inferFromMigrations {} createdPosts).unresolved
        = [⟨"posts", "topic_id", "topics"⟩, ⟨"post_tag", "tag_id", "tags"⟩] := by
  decide

theorem accounts_of_migrations_posts :
    createdPosts.Perm createdPosts.reverse
      ∧ ∃ account : CreatedTable → Account,
        (∀ t, TableAccount {} (createdPosts.map CreatedTable.name) t (account t))
          ∧ Collects {} account createdPosts (inferFromMigrations {} createdPosts)
          ∧ Collects {} account createdPosts.reverse (inferFromMigrations {} createdPosts.reverse)
          ∧ Reordered (inferFromMigrations {} createdPosts)
            (inferFromMigrations {} createdPosts.reverse) :=
  have hperm : createdPosts.Perm createdPosts.reverse := (List.reverse_perm _).symm
  ⟨hperm, accounts_of_migrations {} hperm⟩

end Crowsfoot.Inference
