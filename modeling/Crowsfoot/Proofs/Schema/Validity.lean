import Mathlib.Algebra.GroupWithZero.Nat
import Mathlib.Data.Fintype.Fin
import Crowsfoot.Proofs.Schema.Issues

/-!
# Validation is exact

`Schema.Valid` lists what is asked of a schema, each invariant on its own and without the order in
which the validator comes by it. `issues_eq_nil`: no issue is reported exactly if all of them hold.

Two kinds of issue depend on what stands before a table or a column, and are counted:

* `countP_tableIssues_order`: one `PIVOT_ORDER` for each domain table behind a pivot (`Follows`).
* `countP_columnIssues`: one `DUPLICATE_COLUMN` for each column whose name is there before, so as
  many as there are more columns than names.

The inductions are on the lists that the validator runs through, with what it has seen before them.
That nothing is out of order or there twice, if nothing is reported, follows from the numbers.
-/

namespace Crowsfoot

/-- Whether an issue has a code. -/
def Issue.hasCode (code : String) (i : Issue) : Bool :=
  i.code == code

/-! ## Repeated columns -/

/-- One more name that is not excluded. -/
theorem card_insert_sdiff {name : String} {names excluded : Finset String} (h : name ∉ excluded) :
    (insert name names \ excluded).card = (names \ insert name excluded).card + 1 := by
  rw [Finset.insert_sdiff_of_notMem names h, Finset.sdiff_insert, ← Finset.erase_insert_eq_erase,
    Finset.card_erase_add_one (Finset.mem_insert_self name _)]

theorem countP_columnIssues_cons (table : String) (seen : List String) (c : Column)
    (columns : List Column) :
    (columnIssues table seen (c :: columns)).countP (Issue.hasCode "DUPLICATE_COLUMN")
      = (if c.name ∈ seen then 1 else 0)
        + (columnIssues table (c.name :: seen) columns).countP
          (Issue.hasCode "DUPLICATE_COLUMN") := by
  have hname : (if seen.contains c.name then [Issue.duplicateColumn table c.name] else []).countP
      (Issue.hasCode "DUPLICATE_COLUMN") = if c.name ∈ seen then 1 else 0 := by
    by_cases hseen : c.name ∈ seen
    · rw [if_pos (List.contains_iff_mem.mpr hseen), if_pos hseen]
      rfl
    · rw [if_neg (mt List.contains_iff_mem.mp hseen), if_neg hseen]
      rfl
  rw [columnIssues, List.countP_append, List.countP_append, hname]
  cases c.foreignKey with
  | none => rfl
  | some key => cases c.hasKeyName <;> rfl

/-- **A column is reported for its name exactly if the name is there before.** The others are as
many as there are new names. -/
theorem countP_columnIssues (table : String) (seen : List String) (columns : List Column) :
    (columnIssues table seen columns).countP (Issue.hasCode "DUPLICATE_COLUMN")
        + ((columns.map Column.name).toFinset \ seen.toFinset).card
      = columns.length := by
  induction columns generalizing seen with
  | nil => simp [columnIssues]
  | cons c columns ih =>
    have hrest := ih (c.name :: seen)
    rw [List.toFinset_cons] at hrest
    rw [countP_columnIssues_cons, List.map_cons, List.toFinset_cons, List.length_cons]
    by_cases hseen : c.name ∈ seen
    · have hmem : c.name ∈ seen.toFinset := List.mem_toFinset.mpr hseen
      rw [Finset.insert_eq_of_mem hmem] at hrest
      rw [if_pos hseen, Finset.insert_sdiff_of_mem _ hmem]
      omega
    · have hmem : c.name ∉ seen.toFinset := mt List.mem_toFinset.mp hseen
      rw [if_neg hseen, card_insert_sdiff hmem]
      omega

/-- Columns that are not reported have different names, and keys only where names allow them. -/
theorem columnIssues_eq_nil {table : String} {columns : List Column} :
    columnIssues table [] columns = []
      ↔ (columns.map Column.name).Nodup
        ∧ ∀ c ∈ columns, c.foreignKey ≠ none → c.hasKeyName = true := by
  constructor
  · intro h
    refine ⟨?_, fun c hc hsome => ?_⟩
    · have hcount := countP_columnIssues table [] columns
      rw [h, List.countP_nil, List.toFinset_nil, Finset.sdiff_empty, Nat.zero_add,
        ← List.length_map (f := Column.name)] at hcount
      exact Multiset.toFinset_card_eq_card_iff_nodup.mp hcount
    · obtain ⟨key, hkey⟩ := Option.ne_none_iff_exists'.mp hsome
      by_contra hname
      have hmem : Issue.keyNaming table c.name key.table ∈ columnIssues table [] columns :=
        mem_columnIssues.mpr (Or.inr ⟨c, hc, key, hkey, by simpa using hname, rfl⟩)
      rw [h] at hmem
      exact nomatch hmem
  · rintro ⟨hdistinct, hkeys⟩
    rw [List.eq_nil_iff_forall_not_mem]
    intro i hi
    obtain ⟨c, hc, key, hkey, hname, -⟩ := eq_keyNaming_of_mem_columnIssues hdistinct hi
    rw [hkeys c hc (by simp [hkey])] at hname
    exact nomatch hname

/-! ## Tables -/

/-- What a table reports about its columns' names is what its columns report. -/
theorem Table.countP_issues_duplicate (t : Table) :
    t.issues.countP (Issue.hasCode "DUPLICATE_COLUMN")
      = t.columns.length - (t.columns.map Column.name).toFinset.card := by
  have hcount := countP_columnIssues t.storageName [] t.columns
  rw [List.toFinset_nil, Finset.sdiff_empty] at hcount
  unfold Table.issues
  dsimp only
  rw [List.countP_append, List.countP_append]
  have hprimary : ∀ {b : Prop} [Decidable b] {names : List String},
      (if b then [Issue.multiplePrimary t.storageName names] else []).countP
        (Issue.hasCode "DUPLICATE_COLUMN") = 0 := by
    intro b _ names
    split <;> rfl
  have hshape : ∀ {b : Prop} [Decidable b] {keys extra : List String},
      (if b then [Issue.pivotShape t.storageName keys extra] else []).countP
        (Issue.hasCode "DUPLICATE_COLUMN") = 0 := by
    intro b _ keys extra
    split <;> rfl
  rw [hprimary, hshape]
  omega

/-- No table reports by itself that it is out of order. -/
theorem Table.countP_issues_order (t : Table) :
    t.issues.countP (Issue.hasCode "PIVOT_ORDER") = 0 := by
  rw [List.countP_eq_zero]
  intro i hi
  rcases Table.mem_issues.mp hi with ⟨-, rfl⟩ | hcolumn | ⟨-, -, rfl⟩
  · simp [Issue.hasCode, Issue.code]
  · rcases mem_columnIssues.mp hcolumn with ⟨_, _, _, -, -, rfl⟩ | ⟨_, -, _, -, -, rfl⟩ <;>
      simp [Issue.hasCode, Issue.code]
  · simp [Issue.hasCode, Issue.code]

theorem Table.issues_eq_nil {t : Table} :
    t.issues = []
      ↔ t.columns.countP Column.primary ≤ 1 ∧ columnIssues t.storageName [] t.columns = []
        ∧ (t.isPivot = true → hasPivotShape t.columns systemColumns = true) := by
  simp only [List.eq_nil_iff_forall_not_mem, Table.mem_issues]
  constructor
  · intro h
    refine ⟨?_, fun i hi => h i (Or.inr (Or.inl hi)), fun hpivot => ?_⟩
    · by_contra hmany
      exact h _ (Or.inl ⟨by omega, rfl⟩)
    · by_contra hshape
      exact h _ (Or.inr (Or.inr ⟨hpivot, by simpa using hshape, rfl⟩))
  · rintro ⟨hprimary, hcolumns, hshape⟩ i (⟨hmany, -⟩ | hi | ⟨hpivot, hfalse, -⟩)
    · omega
    · exact hcolumns i hi
    · rw [hshape hpivot] at hfalse
      exact nomatch hfalse

/-! ## Tables in order -/

/-- The table at a position is a domain table and has a pivot before it, among these tables or, if
so it is said, before all of them. -/
def Follows (afterPivot : Bool) (ts : List Table) (i : Fin ts.length) : Prop :=
  ts[i].isPivot = false ∧ (afterPivot = true ∨ ∃ j < i, ts[j].isPivot = true)

instance (afterPivot : Bool) (ts : List Table) : DecidablePred (Follows afterPivot ts) :=
  fun i => inferInstanceAs (Decidable (ts[i].isPivot = false ∧ _))

section Follows

variable {afterPivot : Bool} {t : Table} {ts : List Table}

theorem follows_zero :
    Follows afterPivot (t :: ts) ⟨0, Nat.succ_pos _⟩ ↔ t.isPivot = false ∧ afterPivot = true := by
  have hnone : ¬∃ j < (⟨0, Nat.succ_pos _⟩ : Fin (t :: ts).length), (t :: ts)[j].isPivot = true :=
    fun ⟨j, hj, _⟩ => Nat.not_lt_zero j hj
  exact and_congr_right fun _ => or_iff_left hnone

theorem follows_succ {i : Fin ts.length} :
    Follows afterPivot (t :: ts) i.succ ↔ Follows (afterPivot || t.isPivot) ts i := by
  have hbefore : (∃ j < i.succ, (t :: ts)[j].isPivot = true)
      ↔ t.isPivot = true ∨ ∃ j < i, ts[j].isPivot = true := by
    constructor
    · rintro ⟨⟨_ | j, hj⟩, hlt, hpivot⟩
      · exact Or.inl hpivot
      · exact Or.inr ⟨⟨j, Nat.lt_of_succ_lt_succ hj⟩, Nat.lt_of_succ_lt_succ hlt, hpivot⟩
    · rintro (hpivot | ⟨j, hlt, hpivot⟩)
      · exact ⟨⟨0, Nat.succ_pos _⟩, Nat.succ_pos _, hpivot⟩
      · exact ⟨j.succ, Nat.succ_lt_succ hlt, hpivot⟩
  unfold Follows
  rw [Bool.or_eq_true, or_assoc]
  exact and_congr_right fun _ => or_congr_right hbefore

end Follows

/-- **A domain table is reported for its place exactly if a pivot is before it.** -/
theorem countP_tableIssues_order (afterPivot : Bool) (ts : List Table) :
    (tableIssues afterPivot ts).countP (Issue.hasCode "PIVOT_ORDER")
      = Finset.card {i | Follows afterPivot ts i} := by
  induction ts generalizing afterPivot with
  | nil => rfl
  | cons t ts ih =>
    have hfirst : (if afterPivot && !t.isPivot then [Issue.pivotOrder t.storageName] else []).countP
        (Issue.hasCode "PIVOT_ORDER")
          = if Follows afterPivot (t :: ts) ⟨0, Nat.succ_pos _⟩ then 1 else 0 := by
      simp only [follows_zero]
      cases afterPivot <;> cases t.isPivot <;> rfl
    have hcard := Fin.card_filter_univ_succ' (n := ts.length) (Follows afterPivot (t :: ts))
    have hrest : Finset.card {i : Fin ts.length | Follows afterPivot (t :: ts) i.succ}
        = Finset.card {i | Follows (afterPivot || t.isPivot) ts i} :=
      congrArg Finset.card (Finset.filter_congr fun _ _ => follows_succ)
    rw [tableIssues, List.countP_append, List.countP_append, Table.countP_issues_order, ih, hfirst,
      ← hrest, Nat.add_zero]
    exact hcard.symm

/-- What tables report about the names of columns is what each reports. -/
theorem countP_tableIssues_duplicate (afterPivot : Bool) (ts : List Table) :
    (tableIssues afterPivot ts).countP (Issue.hasCode "DUPLICATE_COLUMN")
      = (ts.map fun t => t.columns.length - (t.columns.map Column.name).toFinset.card).sum := by
  induction ts generalizing afterPivot with
  | nil => rfl
  | cons t ts ih =>
    have hplace : (if afterPivot && !t.isPivot then [Issue.pivotOrder t.storageName] else []).countP
        (Issue.hasCode "DUPLICATE_COLUMN") = 0 := by
      split <;> rfl
    rw [tableIssues, List.countP_append, List.countP_append, hplace, Nat.zero_add,
      Table.countP_issues_duplicate, ih, List.map_cons, List.sum_cons]

theorem tableIssues_eq_nil {ts : List Table} :
    tableIssues false ts = []
      ↔ (∀ t ∈ ts, t.issues = [])
        ∧ ts.Pairwise fun t u => t.isPivot = true → u.isPivot = true := by
  constructor
  · intro h
    constructor
    · intro t ht
      rw [List.eq_nil_iff_forall_not_mem] at h ⊢
      exact fun i hi => h i (mem_tableIssues.mpr (Or.inl ⟨t, ht, hi⟩))
    · have hcount := countP_tableIssues_order false ts
      rw [h, List.countP_nil, eq_comm, Finset.card_eq_zero, Finset.filter_eq_empty_iff] at hcount
      rw [List.pairwise_iff_getElem]
      intro i j hi hj hlt hpivot
      by_contra hdomain
      exact hcount (Finset.mem_univ ⟨j, hj⟩)
        ⟨by simpa using hdomain, Or.inr ⟨⟨i, hi⟩, hlt, hpivot⟩⟩
  · rintro ⟨heach, hordered⟩
    rw [List.eq_nil_iff_forall_not_mem]
    intro i hi
    rcases mem_tableIssues.mp hi with ⟨t, ht, hit⟩ | ⟨before, t, after, rfl, hdomain, hseen, -⟩
    · rw [heach t ht] at hit
      exact nomatch hit
    · obtain ⟨p, hp, hpivot⟩ := hseen.resolve_left Bool.false_ne_true
      have htrue := (List.pairwise_append.mp hordered).2.2 p hp t List.mem_cons_self hpivot
      rw [hdomain] at htrue
      exact nomatch htrue

/-! ## Schemas -/

namespace Schema

/-- A schema that keeps all invariants. -/
structure Valid (s : Schema) : Prop where
  /-- A table has at most one primary column. -/
  primary : ∀ t ∈ s.tables, t.columns.countP Column.primary ≤ 1
  /-- The columns of a table have different names. -/
  distinct : ∀ t ∈ s.tables, (t.columns.map Column.name).Nodup
  /-- Only columns named for a foreign key have one. -/
  keys : ∀ t ∈ s.tables, ∀ c ∈ t.columns, c.foreignKey ≠ none → c.hasKeyName = true
  /-- A pivot has the columns by which pivots are detected. -/
  shape : ∀ t ∈ s.tables, t.isPivot = true → hasPivotShape t.columns systemColumns = true
  /-- Behind a pivot there are only pivots. -/
  ordered : s.tables.Pairwise fun t u => t.isPivot = true → u.isPivot = true
  /-- A many-to-many relationship tells the storage name of a pivot. -/
  joined : ∀ first second pivot, .manyToMany first second pivot ∈ s.relationships →
    ∃ t ∈ s.tables, t.isPivot = true ∧ t.storageName ≠ "" ∧ pivot = some t.storageName
  /-- Nothing is unresolved. -/
  resolved : s.unresolved = []

variable {s : Schema}

theorem relationshipIssues_eq_nil :
    s.relationships.flatMap s.relationshipIssues = []
      ↔ ∀ first second pivot, .manyToMany first second pivot ∈ s.relationships →
        ∃ t ∈ s.tables, t.isPivot = true ∧ t.storageName ≠ "" ∧ pivot = some t.storageName := by
  rw [List.flatMap_eq_nil_iff]
  constructor
  · intro h first second pivot hr
    rw [← isSome_pivotOf?]
    by_contra hnone
    have hmem := mem_relationshipIssues.mpr
      ⟨first, second, pivot, rfl, Bool.eq_false_iff.mpr hnone, rfl⟩
    rw [h _ hr] at hmem
    exact nomatch hmem
  · intro h r hr
    rw [List.eq_nil_iff_forall_not_mem]
    intro i hi
    obtain ⟨first, second, pivot, rfl, hnone, -⟩ := mem_relationshipIssues.mp hi
    rw [isSome_pivotOf?.mpr (h first second pivot hr)] at hnone
    exact nomatch hnone

/-- Nothing is reported exactly if all invariants are kept. -/
theorem issues_eq_nil : s.issues = [] ↔ s.Valid := by
  unfold issues
  rw [List.append_eq_nil_iff, List.append_eq_nil_iff, tableIssues_eq_nil, relationshipIssues_eq_nil,
    List.map_eq_nil_iff]
  constructor
  · rintro ⟨⟨⟨htables, hordered⟩, hjoined⟩, hresolved⟩
    have heach := fun t ht => Table.issues_eq_nil.mp (htables t ht)
    have hcolumns := fun t ht => columnIssues_eq_nil.mp (heach t ht).2.1
    exact ⟨fun t ht => (heach t ht).1, fun t ht => (hcolumns t ht).1, fun t ht => (hcolumns t ht).2,
      fun t ht => (heach t ht).2.2, hordered, hjoined, hresolved⟩
  · intro h
    have heach : ∀ t ∈ s.tables, t.issues = [] := fun t ht =>
      Table.issues_eq_nil.mpr ⟨h.primary t ht,
        columnIssues_eq_nil.mpr ⟨h.distinct t ht, h.keys t ht⟩, h.shape t ht⟩
    exact ⟨⟨⟨heach, h.ordered⟩, h.joined⟩, h.resolved⟩

/-- Relationships and references are reported under codes of their own. -/
theorem countP_issues {code : String} (hpivot : code ≠ "PIVOT_MISSING")
    (hreference : code ≠ "FK_UNRESOLVED") :
    s.issues.countP (Issue.hasCode code)
      = (tableIssues false s.tables).countP (Issue.hasCode code) := by
  have hpivots :
      (s.relationships.flatMap s.relationshipIssues).countP (Issue.hasCode code) = 0 := by
    rw [List.countP_eq_zero]
    intro i hi
    obtain ⟨r, -, hi⟩ := List.mem_flatMap.mp hi
    obtain ⟨_, _, _, -, -, rfl⟩ := mem_relationshipIssues.mp hi
    simpa [Issue.hasCode, Issue.code] using hpivot.symm
  have hreferences : (s.unresolved.map Issue.unresolved).countP (Issue.hasCode code) = 0 := by
    rw [List.countP_eq_zero]
    intro i hi
    obtain ⟨_, -, rfl⟩ := List.mem_map.mp hi
    simpa [Issue.hasCode, Issue.code] using hreference.symm
  unfold issues
  rw [List.countP_append, List.countP_append, hpivots, hreferences, Nat.add_zero]

/-- **Validation is exact.** Nothing is reported if and only if all invariants are kept. A domain
table is reported to be out of order once for each that has some pivot before it, and of the columns
of a table as many are reported to be there twice as there are more columns than names. -/
theorem validation_exact (s : Schema) :
    (s.issues = [] ↔ s.Valid)
      ∧ s.issues.countP (Issue.hasCode "PIVOT_ORDER")
        = Finset.card {i : Fin s.tables.length |
          s.tables[i].isPivot = false ∧ ∃ j < i, s.tables[j].isPivot = true}
      ∧ s.issues.countP (Issue.hasCode "DUPLICATE_COLUMN")
        = (s.tables.map fun t =>
          t.columns.length - (t.columns.map Column.name).toFinset.card).sum := by
  refine ⟨issues_eq_nil, ?_, ?_⟩
  · have hnothing : ∀ i : Fin s.tables.length, Follows false s.tables i
        ↔ s.tables[i].isPivot = false ∧ ∃ j < i, s.tables[j].isPivot = true :=
      fun i => and_congr_right fun _ => or_iff_right Bool.false_ne_true
    rw [countP_issues (by decide) (by decide), countP_tableIssues_order]
    exact congrArg Finset.card (Finset.filter_congr fun i _ => hnothing i)
  · rw [countP_issues (by decide) (by decide), countP_tableIssues_duplicate]

/-- The validator decides validity. -/
instance (s : Schema) : Decidable s.Valid :=
  decidable_of_iff (s.issues = []) issues_eq_nil

/-- Two domain tables behind a pivot, and a name that three columns have. -/
example :
    let s : Schema := { tables := [{ name := "post_tag", isPivot := true }, { name := "Post" },
      { name := "Tag"
        columns := [{ name := "a" }, { name := "b" }, { name := "a" }, { name := "a" }] }] }
    ¬s.Valid ∧ s.issues.countP (Issue.hasCode "PIVOT_ORDER") = 2
      ∧ s.issues.countP (Issue.hasCode "DUPLICATE_COLUMN") = 2 := by
  decide

end Schema

end Crowsfoot
