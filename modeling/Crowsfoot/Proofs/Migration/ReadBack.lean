import Crowsfoot.Proofs.Migration.Body
import Crowsfoot.Proofs.Schema.Tables

/-!
# Generated migrations are read back

`readMigration_writeTable`: the migration of a table creates one table, `writtenTable`. Its columns
are the primary key, the columns that have a statement of their own, and those that the skeleton
and the soft deletes provide where they are not there yet; its keys are those whose target is known,
each on the column of its name.

The statements of a body act in turn: columns are added unless their name is taken (`addMissing`),
and keys are attached in the end (`foldl_attachKey`).

`ofBody_columnStatement`: the statement of a column alone is a body that creates this column.
-/

namespace Crowsfoot.Migration

open Crowsfoot.Builder Crowsfoot.Text

/-! ## What is written -/

/-- The columns with one more, unless its name is taken. -/
def addMissing (columns : List Column) (c : Column) : List Column :=
  if (findColumn? columns c.name).isSome then columns else columns ++ [c]

/-- A nullable timestamp. -/
def timestampColumn (name : String) : Column :=
  { name, type := .timestamp }

/-- The columns that the skeleton and the soft deletes provide. -/
def providedBy (o : Options) (t : Table) : List Column :=
  [timestampColumn "created_at", timestampColumn "updated_at"]
    ++ if hasSoftDeletes o t then [timestampColumn softDeleteColumn] else []

/-- The keys of a table whose target is known. -/
def keyFacts (known : Option (List String)) (t : Table) : List KeyFact :=
  (knownKeys known t).map fun k => { column := k.1.name, on := k.2.table, references := k.2.column }

/-- The set of columns that is unique: that of the two keys. -/
def uniqueSets (t : Table) : List (List String) :=
  if (keyNames t).length = 2 then [keyNames t] else []

/-- A column with the key that is declared on its name. -/
def withFact (facts : List KeyFact) (c : Column) : Column :=
  match facts.find? fun fact => fact.column == c.name with
  | some fact => { c with foreignKey := some { table := fact.on, column := fact.references } }
  | none => c

/-- The columns that the migration of a table states, before their keys. -/
def writtenColumns (o : Options) (t : Table) : List Column :=
  (providedBy o t).foldl addMissing (writtenPrimary t :: (statedColumns t).map writtenColumn)

/-- The table that the migration of a table creates. -/
def writtenTable (o : Options) (known : Option (List String)) (t : Table)
    (source : Option String) : CreatedTable :=
  { name := t.storageName
    columns := (writtenColumns o t).map (withFact (keyFacts known t))
    keys := keyFacts known t
    uniqueSets := uniqueSets t
    source }

/-! ## The clauses of a table -/

section Clauses

variable {o : Options} {known : Option (List String)} {t : Table}

/-- The clauses of several chains, in their order. -/
def clausesOfLinks (chains : List (List Link)) : List Clause :=
  chains.flatMap fun ls => Clause.ofChain (ls.map Link.call)

theorem clausesOfLinks_append (xss yss : List (List Link)) :
    clausesOfLinks (xss ++ yss) = clausesOfLinks xss ++ clausesOfLinks yss :=
  List.flatMap_append

theorem clausesOfLinks_map {α : Type} {f : α → List Link} {g : α → Clause} {xs : List α}
    (h : ∀ x ∈ xs, Clause.ofChain ((f x).map Link.call) = [g x]) :
    clausesOfLinks (xs.map f) = xs.map g := by
  induction xs with
  | nil => rfl
  | cons x xs ih =>
    have hrest := ih fun y hy => h y (List.mem_cons_of_mem x hy)
    unfold clausesOfLinks at hrest ⊢
    rw [List.map_cons, List.flatMap_cons, h x List.mem_cons_self, hrest]
    rfl

theorem clausesOfLinks_uniqueChains :
    clausesOfLinks (uniqueChains t) = (uniqueSets t).map .uniqueSet := by
  unfold uniqueChains uniqueSets
  split
  · rename_i hlength
    have hne : keyNames t ≠ [] := by
      intro he
      rw [he] at hlength
      exact absurd hlength (by decide)
    have hstated : ∀ names ∈ [keyNames t],
        Clause.ofChain ((uniqueLinks names).map Link.call) = [.uniqueSet names] := by
      intro names hnames
      rw [List.mem_singleton.mp hnames, ofChain_unique hne]
    exact clausesOfLinks_map hstated
  · rfl

theorem clausesOfLinks_provided :
    clausesOfLinks ([[{ method := "timestamps" }]] ++ softDeleteChains o t)
      = (providedBy o t).map .declare := by
  have htimestamps : clausesOfLinks [[{ method := "timestamps" }]]
      = [.declare (timestampColumn "created_at"), .declare (timestampColumn "updated_at")] := by
    unfold clausesOfLinks
    rw [List.flatMap_cons, List.map_cons, ofChain_cons (s := .timestamps) (by decide)]
    rfl
  have hdeleted : clausesOfLinks [[{ method := "softDeletes" }]]
      = [.declare (timestampColumn softDeleteColumn)] := by
    unfold clausesOfLinks
    rw [List.flatMap_cons, List.map_cons, ofChain_cons (s := .softDeletes) (by decide)]
    rfl
  unfold softDeleteChains providedBy
  rw [clausesOfLinks_append, htimestamps]
  split
  · rw [hdeleted]
    rfl
  · rfl

/-- The statements of a table state its columns, its keys and its unique set. -/
theorem clausesOfLinks_tableLinks (hcolumns : ∀ c ∈ t.columns, c.name ≠ "")
    (hkeys : ∀ k ∈ keysOf t, k.2.table ≠ "" ∧ k.2.column ≠ "") :
    clausesOfLinks (tableLinks o known t)
      = (writtenPrimary t :: (statedColumns t).map writtenColumn).map .declare
        ++ ((keyFacts known t).map .refer ++ ((uniqueSets t).map .uniqueSet
        ++ (providedBy o t).map .declare)) := by
  have hprimary : clausesOfLinks [primaryLinks t] = [.declare (writtenPrimary t)] := by
    unfold clausesOfLinks
    rw [List.flatMap_cons, ofChain_primary hcolumns]
    rfl
  have hstated : clausesOfLinks ((statedColumns t).map declarationLinks)
      = ((statedColumns t).map writtenColumn).map .declare := by
    rw [List.map_map]
    exact clausesOfLinks_map fun c _ => ofChain_declaration c
  have hfacts : clausesOfLinks ((knownKeys known t).map fun k => keyLinks o k.1 k.2)
      = (keyFacts known t).map .refer := by
    unfold keyFacts
    rw [List.map_map]
    refine clausesOfLinks_map fun k hk => ?_
    have hkey := hkeys k (List.mem_filter.mp hk).1
    exact ofChain_key o k.1 hkey.1 hkey.2
  unfold tableLinks
  rw [List.append_assoc _ _ (softDeleteChains o t)]
  simp only [clausesOfLinks_append, hprimary, hstated, hfacts, clausesOfLinks_uniqueChains]
  rw [← clausesOfLinks_append, clausesOfLinks_provided]
  simp only [List.append_assoc, List.map_cons, List.cons_append, List.nil_append]

end Clauses

/-! ## Stating the clauses -/

section State

open CreatedTable

theorem stateAll_append (t : CreatedTable) (xs ys : List Clause) :
    t.stateAll (xs ++ ys) = (t.stateAll xs).stateAll ys :=
  List.foldl_append

theorem state_declare (t : CreatedTable) (c : Column) :
    t.state (.declare c) = { t with columns := addMissing t.columns c } := by
  unfold CreatedTable.state addMissing CreatedTable.declares CreatedTable.column?
  dsimp only
  split <;> rfl

/-- The columns after one more clause. -/
def columnsAfter (columns : List Column) : Clause → List Column
  | .declare c => addMissing columns c
  | .primary name =>
    modifyColumn name (fun c => { c with primary := true, nullable := false }) columns
  | .indexed name => modifyColumn name (fun c => { c with index := true }) columns
  | .refer _ | .uniqueSet _ | .unsupported _ => columns

/-- The key that a clause declares. -/
def Clause.fact? : Clause → Option KeyFact
  | .refer fact => some fact
  | _ => none

/-- The columns whose values a clause makes unique together. -/
def Clause.names? : Clause → Option (List String)
  | .uniqueSet names => some names
  | _ => none

/-- **Clauses act on the columns, the keys and the unique sets apart.** -/
theorem stateAll_eq (t : CreatedTable) (clauses : List Clause) :
    t.stateAll clauses
      = { t with
          columns := clauses.foldl columnsAfter t.columns
          keys := t.keys ++ clauses.filterMap Clause.fact?
          uniqueSets := t.uniqueSets ++ clauses.filterMap Clause.names? } := by
  unfold stateAll
  induction clauses generalizing t with
  | nil => simp
  | cons clause clauses ih =>
    rw [List.foldl_cons, ih, List.foldl_cons]
    cases clause with
    | declare c => rw [state_declare]; rfl
    | refer fact => simp [state, columnsAfter, Clause.fact?, Clause.names?, List.filterMap_cons]
    | uniqueSet names =>
      simp [state, columnsAfter, Clause.fact?, Clause.names?, List.filterMap_cons]
    | _ => rfl

theorem stateAll_declare (t : CreatedTable) (cs : List Column) :
    t.stateAll (cs.map .declare) = { t with columns := cs.foldl addMissing t.columns } := by
  have hfact : Clause.fact? ∘ Clause.declare = fun _ => none := rfl
  have hnames : Clause.names? ∘ Clause.declare = fun _ => none := rfl
  rw [stateAll_eq, List.foldl_map, List.filterMap_map, List.filterMap_map, hfact, hnames]
  simp [columnsAfter]

theorem stateAll_refer (t : CreatedTable) (facts : List KeyFact) :
    t.stateAll (facts.map .refer) = { t with keys := t.keys ++ facts } := by
  have hfact : Clause.fact? ∘ Clause.refer = some := rfl
  have hnames : Clause.names? ∘ Clause.refer = fun _ => none := rfl
  rw [stateAll_eq, List.foldl_map, List.filterMap_map, List.filterMap_map, hfact, hnames]
  simp [columnsAfter]

theorem stateAll_uniqueSet (t : CreatedTable) (sets : List (List String)) :
    t.stateAll (sets.map .uniqueSet) = { t with uniqueSets := t.uniqueSets ++ sets } := by
  have hfact : Clause.fact? ∘ Clause.uniqueSet = fun _ => none := rfl
  have hnames : Clause.names? ∘ Clause.uniqueSet = some := rfl
  rw [stateAll_eq, List.foldl_map, List.filterMap_map, List.filterMap_map, hfact, hnames]
  simp [columnsAfter]

end State

/-! ## Columns by name -/

theorem findColumn?_isSome_iff {columns : List Column} {name : String} :
    (findColumn? columns name).isSome = true ↔ name ∈ columns.map Column.name := by
  unfold findColumn?
  rw [List.find?_isSome, List.mem_map]
  simp

theorem addMissing_of_fresh {columns : List Column} {c : Column}
    (h : c.name ∉ columns.map Column.name) : addMissing columns c = columns ++ [c] := by
  unfold addMissing
  rw [if_neg fun hsome => h (findColumn?_isSome_iff.mp hsome)]

theorem addMissing_of_mem {columns : List Column} {c : Column}
    (h : c.name ∈ columns.map Column.name) : addMissing columns c = columns := by
  unfold addMissing
  rw [if_pos (findColumn?_isSome_iff.mpr h)]

/-- A column is there already, or it is added behind the others. -/
theorem addMissing_cases (columns : List Column) (c : Column) :
    addMissing columns c = columns
      ∨ c.name ∉ columns.map Column.name ∧ addMissing columns c = columns ++ [c] := by
  by_cases hc : c.name ∈ columns.map Column.name
  · exact Or.inl (addMissing_of_mem hc)
  · exact Or.inr ⟨hc, addMissing_of_fresh hc⟩

theorem forall_mem_addMissing {P : Column → Prop} {columns : List Column} {c : Column}
    (h : ∀ d ∈ columns, P d) (hc : P c) : ∀ d ∈ addMissing columns c, P d := by
  rcases addMissing_cases columns c with he | ⟨-, he⟩
  · rwa [he]
  · rw [he]
    exact List.forall_mem_append.mpr ⟨h, List.forall_mem_singleton.mpr hc⟩

/-- Names stay different. -/
theorem nodup_addMissing {columns : List Column} (h : (columns.map Column.name).Nodup)
    (c : Column) : ((addMissing columns c).map Column.name).Nodup := by
  rcases addMissing_cases columns c with he | ⟨hfresh, he⟩
  · rwa [he]
  · rw [he, List.map_append, List.map_singleton, List.nodup_append]
    refine ⟨h, by simp, ?_⟩
    rintro a ha b hb rfl
    exact hfresh (List.mem_singleton.mp hb ▸ ha)

theorem mem_foldl_addMissing {columns cs : List Column} {c : Column}
    (h : c ∈ cs.foldl addMissing columns) : c ∈ columns ∨ c ∈ cs := by
  induction cs generalizing columns with
  | nil => exact Or.inl h
  | cons d cs ih =>
    have hstep : ∀ e ∈ addMissing columns d, e ∈ columns ∨ e ∈ d :: cs :=
      forall_mem_addMissing (fun _ => Or.inl) (Or.inr List.mem_cons_self)
    rcases ih h with h | h
    · exact hstep c h
    · exact Or.inr (List.mem_cons_of_mem d h)

/-- Columns of different names are all added. -/
theorem foldl_addMissing_of_nodup {columns cs : List Column}
    (h : ((columns ++ cs).map Column.name).Nodup) : cs.foldl addMissing columns = columns ++ cs := by
  induction cs generalizing columns with
  | nil => simp
  | cons c cs ih =>
    have hfresh : c.name ∉ columns.map Column.name := by
      rw [List.map_append, List.map_cons] at h
      exact fun hm => (List.nodup_append.mp h).2.2 _ hm _ List.mem_cons_self rfl
    have hrest : (((columns ++ [c]) ++ cs).map Column.name).Nodup := by
      rwa [List.append_assoc, List.singleton_append]
    rw [List.foldl_cons, addMissing_of_fresh hfresh, ih hrest, List.append_assoc,
      List.singleton_append]

theorem nodup_foldl_addMissing {columns : List Column} (h : (columns.map Column.name).Nodup)
    (cs : List Column) : ((cs.foldl addMissing columns).map Column.name).Nodup := by
  induction cs generalizing columns with
  | nil => exact h
  | cons c cs ih =>
    rw [List.foldl_cons]
    exact ih (nodup_addMissing h c)

/-! ## Attaching the keys -/

/-- A column after one more key fact. -/
def attach (c : Column) (fact : KeyFact) : Column :=
  if c.name = fact.column then c.withKey { table := fact.on, column := fact.references } else c

theorem attach_name (c : Column) (fact : KeyFact) : (attach c fact).name = c.name := by
  unfold attach Column.withKey
  split
  · split <;> rfl
  · rfl

theorem withFact_name (facts : List KeyFact) (c : Column) : (withFact facts c).name = c.name := by
  unfold withFact
  split <;> rfl

/-- Where names are different, a key goes to the column of its name. -/
theorem attachKey_eq_map {columns : List Column} (h : (columns.map Column.name).Nodup)
    (fact : KeyFact) : CreatedTable.attachKey columns fact = columns.map (attach · fact) :=
  modifyColumn_eq_map h

theorem foldl_attachKey {columns : List Column} (h : (columns.map Column.name).Nodup)
    (facts : List KeyFact) :
    facts.foldl CreatedTable.attachKey columns = columns.map fun c => facts.foldl attach c := by
  induction facts generalizing columns with
  | nil => simp
  | cons fact facts ih =>
    have hnames : ((columns.map (attach · fact)).map Column.name).Nodup := by
      rw [List.map_map]
      have hsame : (Column.name ∘ fun c => attach c fact) = Column.name := by
        funext c
        exact attach_name c fact
      rwa [hsame]
    rw [List.foldl_cons, attachKey_eq_map h, ih hnames, List.map_map]
    rfl

theorem foldl_attach_of_isSome {c : Column} (h : c.foreignKey.isSome = true)
    (facts : List KeyFact) : facts.foldl attach c = c := by
  induction facts with
  | nil => rfl
  | cons fact facts ih =>
    have hstep : attach c fact = c := by
      unfold attach Column.withKey
      cases hk : c.foreignKey with
      | none => rw [hk] at h; exact absurd h (by simp)
      | some key => simp
    rw [List.foldl_cons, hstep, ih]

/-- The first fact on a column's name is the one that counts. -/
theorem foldl_attach {c : Column} (h : c.foreignKey = none) (facts : List KeyFact) :
    facts.foldl attach c = withFact facts c := by
  induction facts with
  | nil => rfl
  | cons fact facts ih =>
    unfold withFact
    rw [List.foldl_cons, List.find?_cons]
    by_cases hc : c.name = fact.column
    · have hstep : attach c fact
          = { c with foreignKey := some { table := fact.on, column := fact.references } } := by
        unfold attach Column.withKey
        rw [if_pos hc, h]
        rfl
      rw [hstep, foldl_attach_of_isSome rfl, hc]
      simp
    · have hstep : attach c fact = c := by
        unfold attach
        rw [if_neg hc]
      have hne : (fact.column == c.name) = false := by
        simpa using fun he => hc he.symm
      rw [hstep, ih, hne]
      rfl

/-! ## The written columns -/

section WrittenColumns

variable {o : Options} {known : Option (List String)} {t : Table}

/-- What is found first is not among the rest, if names are different. -/
theorem not_mem_eraseP {columns : List Column} {p : Column → Bool} {c : Column}
    (hfind : columns.find? p = some c) (h : (columns.map Column.name).Nodup) :
    c.name ∉ (columns.eraseP p).map Column.name := by
  induction columns with
  | nil => exact absurd hfind (by simp)
  | cons d columns ih =>
    rw [List.map_cons, List.nodup_cons] at h
    rw [List.find?_cons] at hfind
    cases hp : p d with
    | true =>
      rw [hp] at hfind
      rw [List.eraseP_cons_of_pos hp, ← Option.some.inj hfind]
      exact h.1
    | false =>
      rw [hp] at hfind
      have hc : c ∈ columns := List.mem_of_find?_eq_some hfind
      have hne : c.name ≠ d.name := fun he => h.1 (he ▸ List.mem_map_of_mem hc)
      rw [List.eraseP_cons_of_neg (by simp [hp]), List.map_cons, List.mem_cons, not_or]
      exact ⟨hne, ih hfind h.2⟩

theorem statedColumns_sublist (t : Table) :
    List.Sublist (statedColumns t) (t.columns.eraseP Column.primary) := by
  unfold statedColumns
  dsimp only
  split
  · exact List.filter_sublist.trans List.filter_sublist
  · exact List.filter_sublist

theorem writtenPrimary_name_of_none (h : t.primary? = none) : (writtenPrimary t).name = "id" := by
  unfold writtenPrimary
  rw [h]
  rfl

theorem writtenPrimary_name_of_some {c : Column} (h : t.primary? = some c) :
    (writtenPrimary t).name = c.name := by
  unfold writtenPrimary
  rw [h]
  dsimp only
  split <;> rfl

/-- The primary key and the stated columns have different names. -/
theorem nodup_writtenColumns (h : (t.columns.map Column.name).Nodup) :
    ((writtenPrimary t :: (statedColumns t).map writtenColumn).map Column.name).Nodup := by
  have hnames : ((statedColumns t).map writtenColumn).map Column.name
      = (statedColumns t).map Column.name := by
    rw [List.map_map]
    rfl
  have hsub := (statedColumns_sublist t).map Column.name
  have hnodup : ((statedColumns t).map Column.name).Nodup :=
    h.sublist (hsub.trans (List.eraseP_sublist.map Column.name))
  rw [List.map_cons, List.nodup_cons, hnames]
  refine ⟨?_, hnodup⟩
  cases hp : t.primary? with
  | none =>
    rw [writtenPrimary_name_of_none hp]
    intro hm
    obtain ⟨c, hc, hid⟩ := List.mem_map.mp hm
    unfold statedColumns at hc
    rw [hp] at hc
    have := (List.mem_filter.mp hc).2
    simp [hid] at this
  | some c =>
    rw [writtenPrimary_name_of_some hp]
    exact fun hm => not_mem_eraseP hp h (hsub.subset hm)

theorem foreignKey_writtenPrimary (t : Table) : (writtenPrimary t).foreignKey = none := by
  unfold writtenPrimary
  split
  · rfl
  · split <;> rfl

/-- No column is stated with a key. -/
theorem foreignKey_writtenColumns (o : Options) (t : Table) :
    ∀ c ∈ writtenColumns o t, c.foreignKey = none := by
  intro c hc
  rcases mem_foldl_addMissing hc with hc | hc
  · rcases List.mem_cons.mp hc with rfl | hc
    · exact foreignKey_writtenPrimary t
    · obtain ⟨d, -, rfl⟩ := List.mem_map.mp hc
      rfl
  · unfold providedBy at hc
    rcases List.mem_append.mp hc with hc | hc
    · simp only [List.mem_cons, List.not_mem_nil, or_false] at hc
      rcases hc with rfl | rfl <;> rfl
    · split at hc
      · rw [List.mem_singleton.mp hc]
        rfl
      · exact absurd hc (by simp)

/-! ## Reading -/

/-- What a migration needs to be read back. -/
structure Writable (o : Options) (known : Option (List String)) (t : Table) : Prop where
  indent : ∀ c ∈ o.indent.toList, isBlank c = true
  name : IsName t.storageName
  columns : ∀ c ∈ t.columns, c.name ≠ ""
  distinct : (t.columns.map Column.name).Nodup
  keys : ∀ k ∈ keysOf t, k.2.table ≠ "" ∧ k.2.column ≠ ""
  unmarked : ∀ s ∈ writtenStrings o known t, Unmarked s

/-- The content of the migration of a table, if its keys allow one. -/
def contentOf (o : Options) (known : Option (List String)) (t : Table) : String :=
  fillSkeleton (sections o t (statementLines o known t))

/-- The content of a migration is read as the table that it is written for. -/
theorem readMigration_contentOf (h : Writable o known t) (source : Option String) :
    readMigration (contentOf o known t) source = .ok [writtenTable o known t source] := by
  have hclauses : (tableLinks o known t).flatMap (fun ls => Clause.ofChain (ls.map Link.call))
      = _ := clausesOfLinks_tableLinks h.columns h.keys
  unfold contentOf
  rw [readMigration_body h.indent h.name h.unmarked source, hclauses, stateAll_append,
    stateAll_append, stateAll_append, stateAll_declare, stateAll_refer, stateAll_uniqueSet,
    stateAll_declare]
  have hbase : (writtenPrimary t :: (statedColumns t).map writtenColumn).foldl addMissing []
      = writtenPrimary t :: (statedColumns t).map writtenColumn :=
    foldl_addMissing_of_nodup (nodup_writtenColumns h.distinct)
  have hnodup : ((writtenColumns o t).map Column.name).Nodup :=
    nodup_foldl_addMissing (nodup_writtenColumns h.distinct) (providedBy o t)
  have hattached : (keyFacts known t).foldl CreatedTable.attachKey (writtenColumns o t)
      = (writtenColumns o t).map (withFact (keyFacts known t)) := by
    rw [foldl_attachKey hnodup]
    exact List.map_congr_left fun c hc => foldl_attach (foreignKey_writtenColumns o t c hc) _
  unfold writtenTable CreatedTable.attachKeys
  unfold writtenColumns at hattached ⊢
  simp only [hbase, List.nil_append, hattached]

/-- The migration of a table, if its keys allow one. -/
def fileOf (o : Options) (known : Option (List String)) (at_ : Timestamp) (t : Table) :
    GeneratedFile :=
  { table := t.storageName
    filename := filename t.storageName at_
    content := contentOf o known t }

theorem fileOf_content (at_ : Timestamp) :
    (fileOf o known at_ t).content = contentOf o known t := by
  rw [fileOf]

/-- Writing fails only for a pivot without exactly two keys. -/
theorem writeTable_eq (at_ : Timestamp) :
    writeTable o known at_ t
      = if t.isPivot && (keyNames t).length != 2 then
          .error (.pivotShape t.storageName (keyNames t))
        else .ok (fileOf o known at_ t) := by
  unfold writeTable tableContent
  cases hs : statements o known t with
  | error e =>
    unfold statements at hs
    dsimp only at hs
    split at hs
    · rename_i hshape
      rw [if_pos hshape, ← Except.error.inj hs]
      rfl
    · exact absurd hs (by simp)
  | ok ss =>
    have hshape : ¬ (t.isPivot && (keyNames t).length != 2) = true := by
      intro hshape
      unfold statements at hs
      dsimp only at hs
      rw [if_pos hshape] at hs
      exact absurd hs (by simp)
    rw [if_neg hshape, statements_eq_ok hs]
    rfl

/-- **Generated migrations are read back.** The migration of a table creates one table under the
name it is stored under: with the primary key, then the stated columns, then the timestamps and the
soft deletes where they are not there yet; with the keys whose target is known, each on its column;
and with the unique set of the two keys, if there are two. -/
theorem readMigration_writeTable {at_ : Timestamp} {file : GeneratedFile} (h : Writable o known t)
    (hw : writeTable o known at_ t = .ok file) (source : Option String) :
    readMigration file.content source = .ok [writtenTable o known t source] := by
  rw [writeTable_eq] at hw
  split at hw
  · exact absurd hw (by simp)
  · rw [← Except.ok.inj hw, fileOf_content, readMigration_contentOf h source]

end WrittenColumns

/-- The pivot of orders and products, with columns of its own. -/
def orderProduct : Table :=
  { name := "order_product"
    columns :=
      [{ name := "order_id", type := .bigint, nullable := false,
         foreignKey := some { table := "orders" } },
       { name := "product_id", type := .bigint, nullable := false,
         foreignKey := some { table := "products" } },
       { name := "state", type := .enum, enumValues := ["open", "it's sent"] },
       { name := "note", size := some 80, comment := some "printed; \x7bonce\x7d" },
       { name := "created_at", type := .timestamp }]
    isPivot := true }

theorem readMigration_writeTable_orderProduct :
    ∃ file, writeTable {} (some ["orders"]) ⟨2024, 3, 5, 14, 7, 9⟩ orderProduct = .ok file
      ∧ readMigration file.content none
        = .ok [writtenTable {} (some ["orders"]) orderProduct none] := by
  have hwritten : Writable {} (some ["orders"]) orderProduct :=
    { indent := by decide
      name := by decide
      columns := by decide
      distinct := by decide
      keys := by decide
      unmarked := by decide +kernel }
  have hw : writeTable {} (some ["orders"]) ⟨2024, 3, 5, 14, 7, 9⟩ orderProduct
      = .ok (fileOf {} (some ["orders"]) ⟨2024, 3, 5, 14, 7, 9⟩ orderProduct) := by
    rw [writeTable_eq, if_neg (by decide +kernel)]
  exact ⟨_, hw, readMigration_writeTable hwritten hw none⟩

/-! ## One column -/

/-- **The statement of a column decodes to the column**, whatever strings and integers are in it:
there are no keys and no unique sets, and the column has what a statement can say of it, which is
its name, its type with the parameters that this type takes, its sign, its comment, and whether it
is nullable. -/
theorem ofBody_columnStatement (name : String) (c : Column) (source : Option String) :
    CreatedTable.ofBody name (columnStatement c) source
      = .ok { name, columns := [writtenColumn c], source } := by
  have hparts : ∀ p ∈ [Part.statement (declarationLinks c)], p.WellFormed :=
    List.forall_mem_singleton.mpr (isName_declarationLinks c)
  have htext : (columnStatement c).toList
      = [Part.statement (declarationLinks c)].flatMap Part.write := by
    unfold columnStatement
    rw [declaration_eq]
    simp [Part.write]
  have hclauses : CreatedTable.clausesOf (CreatedTable.chains (columnStatement c).toList)
      = .ok (Clause.ofChain ((declarationLinks c).map Link.call) ++ []) := by
    rw [htext, clausesOf_parts hparts]
    rfl
  unfold CreatedTable.ofBody
  rw [hclauses, ofChain_declaration]
  rfl

end Crowsfoot.Migration
