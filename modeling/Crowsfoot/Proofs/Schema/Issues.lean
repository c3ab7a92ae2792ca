import Mathlib.Tactic.Tauto
import Crowsfoot.Inference.Pivot
import Crowsfoot.Proofs.Schema.Tables
import Crowsfoot.Schema.Issue

/-!
# What the issues of a schema mean

`mem_columnIssues`, `Table.mem_issues` and `mem_tableIssues` say when an issue is reported, along the
recursion of the validator: what has been seen before a column or a table is the part of the list
before it. A pivot is reported for its shape exactly if detection would not take it for a pivot
(`hasPivotShape_eq_false`).

`Schema.Sound` is what every inference guarantees: tables are in order, columns of a table have
different names, and many-to-many relationships have their pivots. Three kinds of issue do not occur
then (`Schema.Sound.cases_issue`).
-/

namespace Crowsfoot

/-! ## Columns -/

/-- What one column adds to the issues of those behind it. -/
theorem mem_columnIssues_cons {table : String} {seen : List String} {d : Column}
    {columns : List Column} {i : Issue} :
    i ∈ columnIssues table seen (d :: columns)
      ↔ (d.name ∈ seen ∧ i = .duplicateColumn table d.name)
        ∨ (∃ key, d.foreignKey = some key ∧ d.hasKeyName = false
          ∧ i = .keyNaming table d.name key.table)
        ∨ i ∈ columnIssues table (d.name :: seen) columns := by
  rw [columnIssues, List.mem_append, List.mem_append, List.mem_ite_nil_right,
    List.contains_iff_mem, List.mem_singleton, or_assoc]
  cases d.foreignKey with
  | none => simp
  | some key => cases d.hasKeyName <;> simp

/-- **The issues of columns**: a name that is there before, or a foreign key on a column that is not
named for one. -/
theorem mem_columnIssues {table : String} {seen : List String} {columns : List Column} {i : Issue} :
    i ∈ columnIssues table seen columns
      ↔ (∃ before c after, columns = before ++ c :: after
          ∧ (c.name ∈ seen ∨ c.name ∈ before.map Column.name)
          ∧ i = .duplicateColumn table c.name)
        ∨ ∃ c ∈ columns, ∃ key, c.foreignKey = some key ∧ c.hasKeyName = false
          ∧ i = .keyNaming table c.name key.table := by
  induction columns generalizing seen with
  | nil => simp [columnIssues]
  | cons d columns ih =>
    -- the column is the first of its part of the list, or stands before that of the others
    have hsplit : (∃ before c after, d :: columns = before ++ c :: after
          ∧ (c.name ∈ seen ∨ c.name ∈ before.map Column.name) ∧ i = .duplicateColumn table c.name)
        ↔ (d.name ∈ seen ∧ i = .duplicateColumn table d.name)
          ∨ ∃ before c after, columns = before ++ c :: after
            ∧ (c.name ∈ d.name :: seen ∨ c.name ∈ before.map Column.name)
            ∧ i = .duplicateColumn table c.name := by
      constructor
      · rintro ⟨before, c, after, heq, hname, rfl⟩
        cases before with
        | nil =>
          obtain ⟨rfl, -⟩ := List.cons.inj heq
          exact Or.inl ⟨hname.resolve_right (by simp), rfl⟩
        | cons e before =>
          obtain ⟨rfl, rfl⟩ := List.cons.inj heq
          refine Or.inr ⟨before, c, after, rfl, ?_, rfl⟩
          simp only [List.map_cons, List.mem_cons] at hname ⊢
          tauto
      · rintro (⟨hname, rfl⟩ | ⟨before, c, after, rfl, hname, rfl⟩)
        · exact ⟨[], d, columns, rfl, Or.inl hname, rfl⟩
        · refine ⟨d :: before, c, after, rfl, ?_, rfl⟩
          simp only [List.map_cons, List.mem_cons] at hname ⊢
          tauto
    rw [mem_columnIssues_cons, ih, hsplit]
    simp only [List.mem_cons, exists_eq_or_imp]
    rw [← or_assoc, or_or_or_comm]

/-- Columns of different names are only reported for their foreign keys. -/
theorem eq_keyNaming_of_mem_columnIssues {table : String} {columns : List Column} {i : Issue}
    (hdistinct : (columns.map Column.name).Nodup) (h : i ∈ columnIssues table [] columns) :
    ∃ c ∈ columns, ∃ key, c.foreignKey = some key ∧ c.hasKeyName = false
      ∧ i = .keyNaming table c.name key.table := by
  rcases mem_columnIssues.mp h with ⟨before, c, after, rfl, hname, -⟩ | hkey
  · rw [List.map_append, List.map_cons, List.nodup_append] at hdistinct
    have hname := hname.resolve_left (by simp)
    exact absurd rfl (hdistinct.2.2 c.name hname c.name List.mem_cons_self)
  · exact hkey

/-! ## Tables -/

/-- Validation and detection agree on what shape a pivot has. -/
theorem hasPivotShape_eq_false {t : Table} :
    hasPivotShape t.columns systemColumns = false
      ↔ ((t.columns.filter Column.hasKeyName).map Column.name).length ≠ 2
        ∨ (t.ownColumns.filter fun c => !c.hasKeyName) ≠ [] := by
  have hothers : (t.ownColumns.filter fun c => !c.hasKeyName) = []
      ↔ (t.columns.all fun c => c.hasKeyName || systemColumns.contains c.name) = true := by
    unfold Table.ownColumns
    rw [List.filter_filter, List.filter_eq_nil_iff, List.all_eq_true]
    refine forall₂_congr fun c _ => ?_
    unfold Column.isSystem
    cases c.hasKeyName <;> cases systemColumns.contains c.name <;> simp
  unfold hasPivotShape
  rw [List.length_map, ← List.countP_eq_length_filter, Bool.and_eq_false_iff, beq_eq_false_iff_ne,
    ne_eq, ne_eq, hothers, Bool.not_eq_true]

/-- **The issues of a table on its own.** -/
theorem Table.mem_issues {t : Table} {i : Issue} :
    i ∈ t.issues
      ↔ (1 < t.columns.countP Column.primary ∧ i = .multiplePrimary t.storageName
            ((t.columns.filter Column.primary).map Column.name))
        ∨ i ∈ columnIssues t.storageName [] t.columns
        ∨ t.isPivot = true ∧ hasPivotShape t.columns systemColumns = false
          ∧ i = .pivotShape t.storageName ((t.columns.filter Column.hasKeyName).map Column.name)
            ((t.ownColumns.filter fun c => !c.hasKeyName).map Column.name) := by
  have hshape : (t.isPivot && (((t.columns.filter Column.hasKeyName).map Column.name).length != 2
        || !((t.ownColumns.filter fun c => !c.hasKeyName).map Column.name).isEmpty)) = true
      ↔ t.isPivot = true ∧ hasPivotShape t.columns systemColumns = false := by
    rw [hasPivotShape_eq_false, Bool.and_eq_true, Bool.or_eq_true, bne_iff_ne, Bool.not_eq_true',
      List.isEmpty_map, ← Bool.not_eq_true, List.isEmpty_iff]
  unfold Table.issues
  dsimp only
  rw [List.mem_append, List.mem_append, List.mem_ite_nil_right, List.mem_ite_nil_right, hshape,
    List.mem_singleton, List.mem_singleton, List.length_map, ← List.countP_eq_length_filter,
    or_assoc, and_assoc]

/-- **The issues of tables in order**: those of each, and the domain tables behind a pivot. -/
theorem mem_tableIssues {afterPivot : Bool} {ts : List Table} {i : Issue} :
    i ∈ tableIssues afterPivot ts
      ↔ (∃ t ∈ ts, i ∈ t.issues)
        ∨ ∃ before t after, ts = before ++ t :: after ∧ t.isPivot = false
          ∧ (afterPivot = true ∨ ∃ p ∈ before, p.isPivot = true)
          ∧ i = .pivotOrder t.storageName := by
  induction ts generalizing afterPivot with
  | nil => simp [tableIssues]
  | cons u ts ih =>
    have horder : (i ∈ if afterPivot && !u.isPivot then [Issue.pivotOrder u.storageName] else [])
        ↔ u.isPivot = false ∧ afterPivot = true ∧ i = .pivotOrder u.storageName := by
      rw [List.mem_ite_nil_right, Bool.and_eq_true, Bool.not_eq_true', List.mem_singleton]
      tauto
    have hsplit : (∃ before t after, u :: ts = before ++ t :: after ∧ t.isPivot = false
          ∧ (afterPivot = true ∨ ∃ p ∈ before, p.isPivot = true) ∧ i = .pivotOrder t.storageName)
        ↔ (u.isPivot = false ∧ afterPivot = true ∧ i = .pivotOrder u.storageName)
          ∨ ∃ before t after, ts = before ++ t :: after ∧ t.isPivot = false
            ∧ ((afterPivot || u.isPivot) = true ∨ ∃ p ∈ before, p.isPivot = true)
            ∧ i = .pivotOrder t.storageName := by
      rw [Bool.or_eq_true]
      constructor
      · rintro ⟨before, t, after, heq, hdomain, hseen, rfl⟩
        cases before with
        | nil =>
          obtain ⟨rfl, -⟩ := List.cons.inj heq
          exact Or.inl ⟨hdomain, hseen.resolve_right (by simp), rfl⟩
        | cons v before =>
          obtain ⟨rfl, rfl⟩ := List.cons.inj heq
          refine Or.inr ⟨before, t, after, rfl, hdomain, ?_, rfl⟩
          simp only [List.mem_cons, exists_eq_or_imp] at hseen
          tauto
      · rintro (⟨hdomain, hseen, rfl⟩ | ⟨before, t, after, rfl, hdomain, hseen, rfl⟩)
        · exact ⟨[], u, ts, rfl, hdomain, Or.inl hseen, rfl⟩
        · refine ⟨u :: before, t, after, rfl, hdomain, ?_, rfl⟩
          simp only [List.mem_cons, exists_eq_or_imp]
          tauto
    rw [tableIssues, List.mem_append, List.mem_append, horder, ih, hsplit]
    simp only [List.mem_cons, exists_eq_or_imp]
    rw [or_comm (a := _ ∧ _), or_or_or_comm]

/-! ## Schemas -/

namespace Schema

variable {s : Schema} {i : Issue}

/-- The pivot of a relationship is there if its name is not empty and a pivot is stored under it. -/
theorem isSome_pivotOf? {pivot : Option String} :
    (s.pivotOf? pivot).isSome = true
      ↔ ∃ t ∈ s.tables, t.isPivot = true ∧ t.storageName ≠ "" ∧ pivot = some t.storageName := by
  cases pivot with
  | none => simp [pivotOf?]
  | some name =>
    unfold pivotOf? pivot?
    dsimp only
    by_cases hempty : name = ""
    · rw [if_pos (by simpa using hempty), hempty]
      simp only [Option.isSome_none, Bool.false_eq_true, false_iff]
      rintro ⟨t, -, -, hne, heq⟩
      exact hne (Option.some.inj heq).symm
    · rw [if_neg (by simpa using hempty), List.find?_isSome]
      constructor
      · rintro ⟨t, ht, hfound⟩
        rw [Bool.and_eq_true, beq_iff_eq] at hfound
        obtain ⟨hpivot, rfl⟩ := hfound
        exact ⟨t, ht, hpivot, hempty, rfl⟩
      · rintro ⟨t, ht, hpivot, -, heq⟩
        exact ⟨t, ht, by simp [hpivot, Option.some.inj heq]⟩

theorem mem_relationshipIssues {r : Relationship} :
    i ∈ s.relationshipIssues r
      ↔ ∃ first second pivot, r = .manyToMany first second pivot
        ∧ (s.pivotOf? pivot).isSome = false ∧ i = .pivotMissing first second pivot := by
  cases r with
  | oneToOne | oneToMany => simp [relationshipIssues]
  | manyToMany first second pivot =>
    unfold relationshipIssues
    dsimp only
    rw [List.mem_ite_nil_right, List.mem_singleton, ← Option.isSome_eq_false_iff]
    constructor
    · rintro ⟨hnone, rfl⟩
      exact ⟨first, second, pivot, rfl, hnone, rfl⟩
    · rintro ⟨_, _, _, heq, hnone, rfl⟩
      obtain ⟨rfl, rfl, rfl⟩ := Relationship.manyToMany.inj heq
      exact ⟨hnone, rfl⟩

/-- **The issues of a schema**: those of its tables, missing pivots, and what is unresolved. -/
theorem mem_issues :
    i ∈ s.issues
      ↔ i ∈ tableIssues false s.tables
        ∨ (∃ first second pivot, .manyToMany first second pivot ∈ s.relationships
          ∧ (s.pivotOf? pivot).isSome = false ∧ i = .pivotMissing first second pivot)
        ∨ ∃ u ∈ s.unresolved, i = .unresolved u := by
  have hpivots : (i ∈ s.relationships.flatMap s.relationshipIssues)
      ↔ ∃ first second pivot, .manyToMany first second pivot ∈ s.relationships
        ∧ (s.pivotOf? pivot).isSome = false ∧ i = .pivotMissing first second pivot := by
    simp only [List.mem_flatMap, mem_relationshipIssues]
    constructor
    · rintro ⟨_, hr, first, second, pivot, rfl, hnone, hi⟩
      exact ⟨first, second, pivot, hr, hnone, hi⟩
    · rintro ⟨first, second, pivot, hr, hnone, hi⟩
      exact ⟨_, hr, first, second, pivot, rfl, hnone, hi⟩
  have hunresolved : i ∈ s.unresolved.map Issue.unresolved ↔ ∃ u ∈ s.unresolved, i = .unresolved u := by
    simp only [List.mem_map, eq_comm]
  unfold issues
  rw [List.mem_append, List.mem_append, hpivots, hunresolved, or_assoc]

/-- What inference guarantees. -/
structure Sound (s : Schema) : Prop where
  /-- Domain tables go before pivots. -/
  arranged : s.tables = s.domainTables ++ s.pivotTables
  /-- The columns of a table have different names. -/
  distinct : ∀ t ∈ s.tables, (t.columns.map Column.name).Nodup
  /-- A many-to-many relationship tells the storage name of a pivot. -/
  joined : ∀ first second pivot, .manyToMany first second pivot ∈ s.relationships →
    ∃ t ∈ s.tables, t.isPivot = true ∧ t.storageName ≠ "" ∧ pivot = some t.storageName

/-- No domain table stands behind a pivot. -/
theorem Sound.isPivot_of_mem_before (h : s.Sound) {before after : List Table} {t p : Table}
    (hsplit : s.tables = before ++ t :: after) (hp : p ∈ before) (hpivot : p.isPivot = true) :
    t.isPivot = true := by
  have hpairs : s.tables.Pairwise fun t u => t.isPivot = true → u.isPivot = true := by
    rw [h.arranged, List.pairwise_append]
    refine ⟨List.pairwise_of_forall_mem_list ?_, List.pairwise_of_forall_mem_list ?_, ?_⟩
    · intro t ht u _ htrue
      have hdomain : (!t.isPivot) = true := (List.mem_filter.mp ht).2
      rw [htrue] at hdomain
      exact absurd hdomain (by simp)
    · exact fun t _ u hu _ => (List.mem_filter.mp hu).2
    · exact fun t _ u hu _ => (List.mem_filter.mp hu).2
  rw [hsplit, List.pairwise_append] at hpairs
  exact hpairs.2.2 p hp t List.mem_cons_self hpivot

/-- **The issues of a sound schema** are several primary columns, keys on columns that are not named
for one, pivots of another shape, and what is unresolved. -/
theorem Sound.cases_issue (h : s.Sound) (hi : i ∈ s.issues) :
    (∃ t ∈ s.tables, i = .multiplePrimary t.storageName
        ((t.columns.filter Column.primary).map Column.name))
      ∨ (∃ t ∈ s.tables, ∃ c ∈ t.columns, ∃ key, c.foreignKey = some key ∧ c.hasKeyName = false
        ∧ i = .keyNaming t.storageName c.name key.table)
      ∨ (∃ t ∈ s.tables, t.isPivot = true ∧ hasPivotShape t.columns systemColumns = false
        ∧ i = .pivotShape t.storageName ((t.columns.filter Column.hasKeyName).map Column.name)
          ((t.ownColumns.filter fun c => !c.hasKeyName).map Column.name))
      ∨ ∃ u ∈ s.unresolved, i = .unresolved u := by
  rcases mem_issues.mp hi with htable | ⟨first, second, pivot, hr, hnone, -⟩ | hunresolved
  · rcases mem_tableIssues.mp htable with ⟨t, ht, hit⟩ | ⟨before, t, after, hsplit, hdomain, hseen, -⟩
    · rcases Table.mem_issues.mp hit with ⟨-, hprimary⟩ | hcolumn | hshape
      · exact Or.inl ⟨t, ht, hprimary⟩
      · exact Or.inr (Or.inl ⟨t, ht, eq_keyNaming_of_mem_columnIssues (h.distinct t ht) hcolumn⟩)
      · exact Or.inr (Or.inr (Or.inl ⟨t, ht, hshape⟩))
    · obtain ⟨p, hp, hpivot⟩ := hseen.resolve_left Bool.false_ne_true
      rw [h.isPivot_of_mem_before hsplit hp hpivot] at hdomain
      exact absurd hdomain (by simp)
  · rw [isSome_pivotOf?.mpr (h.joined first second pivot hr)] at hnone
    exact absurd hnone (by simp)
  · exact Or.inr (Or.inr (Or.inr hunresolved))

end Schema

end Crowsfoot
