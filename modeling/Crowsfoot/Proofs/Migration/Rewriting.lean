import Crowsfoot.Proofs.Migration.ReadBack
import Mathlib.Data.List.Nodup

/-!
# Tables that are read back are written alike

Where the keys of a table are `KeysApart` from its primary and system columns, and their targets are
all known, `columns_writtenTable` gives the columns of the table that its migration creates:
the primary key, the stated columns each with its key, and columns that the skeleton or the soft
deletes provide. A table with these columns `Rewrites` the first (`rewrites_of_columns`), and has
the same migration (`writeTable_of_rewrites`).
-/

namespace Crowsfoot.Migration

open Crowsfoot.Builder Crowsfoot.Text

/-- No foreign key is on a primary or a system column, and columns have different names. -/
structure KeysApart (t : Table) : Prop where
  distinct : (t.columns.map Column.name).Nodup
  apart : ∀ c ∈ t.columns, c.foreignKey ≠ none → c.primary = false ∧ c.isSystem = false

/-! ## Provided columns -/

section Provided

variable {o : Options} {t : Table}

/-- Columns are added behind those that are there. -/
theorem exists_foldl_addMissing (columns cs : List Column) :
    ∃ added, cs.foldl addMissing columns = columns ++ added ∧ ∀ c ∈ added, c ∈ cs := by
  induction cs generalizing columns with
  | nil => exact ⟨[], (List.append_nil columns).symm, by simp⟩
  | cons c cs ih =>
    rw [List.foldl_cons]
    by_cases hc : c.name ∈ columns.map Column.name
    · rw [addMissing_of_mem hc]
      obtain ⟨added, heq, hadded⟩ := ih columns
      exact ⟨added, heq, fun d hd => List.mem_cons_of_mem c (hadded d hd)⟩
    · rw [addMissing_of_fresh hc]
      obtain ⟨added, heq, hadded⟩ := ih (columns ++ [c])
      refine ⟨c :: added, by rw [heq, List.append_assoc, List.singleton_append], ?_⟩
      intro d hd
      rcases List.mem_cons.mp hd with rfl | hd
      · exact List.mem_cons_self
      · exact List.mem_cons_of_mem c (hadded d hd)

/-- After adding columns, their names are there, and otherwise those that were before. -/
theorem mem_names_foldl_addMissing {columns cs : List Column} {name : String} :
    name ∈ (cs.foldl addMissing columns).map Column.name
      ↔ name ∈ columns.map Column.name ∨ name ∈ cs.map Column.name := by
  induction cs generalizing columns with
  | nil => simp
  | cons c cs ih =>
    rw [List.foldl_cons, ih, List.map_cons, List.mem_cons]
    by_cases hc : c.name ∈ columns.map Column.name
    · rw [addMissing_of_mem hc]
      constructor
      · rintro (h | h)
        · exact Or.inl h
        · exact Or.inr (Or.inr h)
      · rintro (h | rfl | h)
        · exact Or.inl h
        · exact Or.inl hc
        · exact Or.inr h
    · rw [addMissing_of_fresh hc, List.map_append, List.map_singleton, List.mem_append,
        List.mem_singleton, or_assoc]

/-- A column that is provided: its name, and that it has no key. -/
theorem mem_providedBy {c : Column} (h : c ∈ providedBy o t) :
    c.name ∈ providedColumns ∧ c.foreignKey = none := by
  unfold providedBy at h
  rcases List.mem_append.mp h with h | h
  · simp only [List.mem_cons, List.not_mem_nil, or_false] at h
    rcases h with rfl | rfl <;> exact ⟨by decide, rfl⟩
  · split at h
    · rw [List.mem_singleton.mp h]
      exact ⟨by decide, rfl⟩
    · exact absurd h (by simp)

theorem isSystem_of_provided {c : Column} (h : c.name ∈ providedColumns) : c.isSystem = true := by
  unfold Column.isSystem
  rw [List.contains_iff_mem]
  exact List.mem_cons_of_mem "id" h

theorem mem_names_providedBy_softDeletes :
    softDeleteColumn ∈ (providedBy o t).map Column.name ↔ hasSoftDeletes o t = true := by
  unfold providedBy
  cases hasSoftDeletes o t <;> decide

/-! ## Stated columns -/

theorem filterMap_eraseP {α β : Type} {f : α → Option β} {p : α → Bool} {xs : List α}
    (h : ∀ x ∈ xs, p x = true → f x = none) : (xs.eraseP p).filterMap f = xs.filterMap f := by
  induction xs with
  | nil => rfl
  | cons x xs ih =>
    by_cases hp : p x = true
    · rw [List.eraseP_cons_of_pos hp, List.filterMap_cons_none (h x List.mem_cons_self hp)]
    · have hrest := ih fun y hy => h y (List.mem_cons_of_mem x hy)
      rw [List.eraseP_cons_of_neg hp, List.filterMap_cons, List.filterMap_cons, hrest]

theorem filterMap_filter_of_none {α β : Type} {f : α → Option β} {p : α → Bool} {xs : List α}
    (h : ∀ x ∈ xs, p x = false → f x = none) : (xs.filter p).filterMap f = xs.filterMap f := by
  rw [List.filterMap_filter]
  apply List.filterMap_congr
  intro x hx
  cases hp : p x with
  | true => rfl
  | false => exact (h x hx hp).symm

/-- What concerns neither primary nor system columns is found among the stated columns. -/
theorem filterMap_statedColumns {β : Type} {f : Column → Option β}
    (h : ∀ c ∈ t.columns, c.primary = true ∨ c.isSystem = true → f c = none) :
    (statedColumns t).filterMap f = t.columns.filterMap f := by
  have hsystem : ∀ c ∈ t.columns.eraseP Column.primary, c.isSystem = true → f c = none :=
    fun c hc hs => h c (List.mem_of_mem_eraseP hc) (Or.inr hs)
  have hothers : ((t.columns.eraseP Column.primary).filter fun c =>
      !providedColumns.contains c.name).filterMap f = t.columns.filterMap f := by
    rw [filterMap_filter_of_none, filterMap_eraseP fun c hc hp => h c hc (Or.inl hp)]
    intro c hc hprovided
    refine hsystem c hc (isSystem_of_provided ?_)
    simpa using hprovided
  unfold statedColumns
  dsimp only
  split
  · rw [filterMap_filter_of_none, hothers]
    intro c hc hid
    refine hsystem c (List.mem_filter.mp hc).1 ?_
    have hname : c.name = "id" := by simpa using hid
    unfold Column.isSystem
    rw [hname]
    decide
  · exact hothers

theorem mem_of_mem_statedColumns {c : Column} (h : c ∈ statedColumns t) : c ∈ t.columns :=
  List.mem_of_mem_eraseP ((statedColumns_sublist t).subset h)

theorem not_provided_of_mem_statedColumns {c : Column} (h : c ∈ statedColumns t) :
    c.name ∉ providedColumns := by
  have hothers : c ∈ (t.columns.eraseP Column.primary).filter fun c =>
      !providedColumns.contains c.name := by
    unfold statedColumns at h
    dsimp only at h
    split at h
    · exact (List.mem_filter.mp h).1
    · exact h
  have := (List.mem_filter.mp hothers).2
  simpa using this

end Provided

/-! ## The columns that are read back -/

section ReadBack

variable {o : Options} {known : Option (List String)} {t : Table}

/-- What a migration says of a column, and its key. -/
def keyed (c : Column) : Column :=
  { writtenColumn c with foreignKey := c.foreignKey }

/-- The fact on a column is that of its key. -/
theorem find?_facts {columns : List Column} (hdistinct : (columns.map Column.name).Nodup)
    {c : Column} (hc : c ∈ columns) :
    ((columns.filterMap fun c => c.foreignKey.map fun key =>
        ({ column := c.name, on := key.table, references := key.column } : KeyFact)).find?
          fun fact => fact.column == c.name)
      = c.foreignKey.map fun key => { column := c.name, on := key.table, references := key.column }
    := by
  induction columns with
  | nil => exact absurd hc (by simp)
  | cons d columns ih =>
    rw [List.map_cons, List.nodup_cons] at hdistinct
    rcases List.mem_cons.mp hc with rfl | hc
    · have hrest : (columns.filterMap fun c => c.foreignKey.map fun key =>
          ({ column := c.name, on := key.table, references := key.column } : KeyFact)).find?
            (fun fact => fact.column == c.name) = none := by
        rw [List.find?_eq_none]
        intro fact hfact
        obtain ⟨e, he, hfact⟩ := List.mem_filterMap.mp hfact
        obtain ⟨key, -, rfl⟩ := Option.map_eq_some_iff.mp hfact
        have hne : e.name ≠ c.name := fun heq => hdistinct.1 (heq ▸ List.mem_map_of_mem he)
        simpa using hne
      cases hk : c.foreignKey with
      | none => rw [List.filterMap_cons_none (by rw [hk]; rfl), hrest]; rfl
      | some key =>
        rw [List.filterMap_cons_some (by rw [hk]; rfl), List.find?_cons_of_pos (by simp)]
        rfl
    · have hne : d.name ≠ c.name := fun heq => hdistinct.1 (heq ▸ List.mem_map_of_mem hc)
      cases hk : d.foreignKey with
      | none => rw [List.filterMap_cons_none (by rw [hk]; rfl), ih hdistinct.2 hc]
      | some key =>
        rw [List.filterMap_cons_some (by rw [hk]; rfl),
          List.find?_cons_of_neg (by simpa using hne), ih hdistinct.2 hc]

theorem keyFacts_eq (hknown : knownKeys known t = keysOf t) :
    keyFacts known t = t.columns.filterMap fun c => c.foreignKey.map fun key =>
      { column := c.name, on := key.table, references := key.column } := by
  unfold keyFacts
  rw [hknown]
  unfold keysOf
  rw [List.map_filterMap]
  apply List.filterMap_congr
  intro c _
  rw [Option.map_map]
  rfl

theorem withFact_stated (h : KeysApart t) (hknown : knownKeys known t = keysOf t) {c : Column}
    (hc : c ∈ t.columns) : withFact (keyFacts known t) (writtenColumn c) = keyed c := by
  have hname : (writtenColumn c).name = c.name := rfl
  unfold withFact
  rw [hname, keyFacts_eq hknown, find?_facts h.distinct hc]
  cases hk : c.foreignKey with
  | none =>
    unfold keyed
    rw [hk]
    rfl
  | some key =>
    unfold keyed
    rw [hk]
    rfl

/-- There are no facts on primary and system columns. -/
theorem withFact_apart (h : KeysApart t) {d : Column}
    (hd : d.isSystem = true ∨ ∃ c ∈ t.columns, c.primary = true ∧ c.name = d.name) :
    withFact (keyFacts known t) d = d := by
  have hfind : (keyFacts known t).find? (fun fact => fact.column == d.name) = none := by
    rw [List.find?_eq_none]
    intro fact hfact
    obtain ⟨⟨c, key⟩, hk, rfl⟩ := List.mem_map.mp hfact
    obtain ⟨e, he, hkey⟩ := List.mem_filterMap.mp (List.mem_filter.mp hk).1
    obtain ⟨key', hkey', heq⟩ := Option.map_eq_some_iff.mp hkey
    obtain ⟨rfl, rfl⟩ := Prod.mk.inj heq
    have hapart := h.apart e he (by rw [hkey']; simp)
    intro hname
    have hname : e.name = d.name := by simpa using hname
    rcases hd with hd | ⟨c, hc, hp, hcd⟩
    · unfold Column.isSystem at hd hapart
      rw [hname, hd] at hapart
      exact absurd hapart.2 (by simp)
    · have hsame : c = e :=
        List.inj_on_of_nodup_map h.distinct hc he (hcd.trans hname.symm)
      rw [← hsame, hp] at hapart
      exact absurd hapart.1 (by simp)
  unfold withFact
  rw [hfind]

/-- The primary key that is written is a system column, or has the name of the primary column. -/
theorem writtenPrimary_apart (t : Table) :
    (writtenPrimary t).isSystem = true
      ∨ ∃ c ∈ t.columns, c.primary = true ∧ c.name = (writtenPrimary t).name := by
  cases hp : t.primary? with
  | none =>
    refine Or.inl ?_
    unfold Column.isSystem
    rw [writtenPrimary_name_of_none hp]
    decide
  | some c =>
    exact Or.inr ⟨c, List.mem_of_find?_eq_some hp, List.find?_some hp,
      (writtenPrimary_name_of_some hp).symm⟩

/-- **The columns that are read back**: the primary key, the stated columns with their keys, and
columns that are provided. -/
theorem columns_writtenTable (h : KeysApart t) (hknown : knownKeys known t = keysOf t)
    (source : Option String) :
    ∃ added, (writtenTable o known t source).columns
        = writtenPrimary t :: ((statedColumns t).map keyed ++ added)
      ∧ ∀ c ∈ added, c ∈ providedBy o t := by
  obtain ⟨added, heq, hadded⟩ := exists_foldl_addMissing
    (writtenPrimary t :: (statedColumns t).map writtenColumn) (providedBy o t)
  refine ⟨added, ?_, hadded⟩
  have hprimary : withFact (keyFacts known t) (writtenPrimary t) = writtenPrimary t :=
    withFact_apart h (writtenPrimary_apart t)
  have hstated : ((statedColumns t).map writtenColumn).map (withFact (keyFacts known t))
      = (statedColumns t).map keyed := by
    rw [List.map_map]
    exact List.map_congr_left fun c hc => withFact_stated h hknown (mem_of_mem_statedColumns hc)
  have hprovided : added.map (withFact (keyFacts known t)) = added := by
    refine (List.map_congr_left fun c hc => ?_).trans (List.map_id added)
    exact withFact_apart h (Or.inl (isSystem_of_provided (mem_providedBy (hadded c hc)).1))
  show (writtenColumns o t).map (withFact (keyFacts known t)) = _
  unfold writtenColumns
  rw [heq, List.map_append, List.map_cons, hprimary, hstated, hprovided, List.cons_append]

end ReadBack

/-! ## Writing again -/

section Writing

variable {o : Options} {known : Option (List String)} {t u : Table}

/-- A table as it comes back: the one stands for the other in a schema. -/
structure Rewrites (o : Options) (t u : Table) : Prop where
  storageName : u.storageName = t.storageName
  isPivot : u.isPivot = t.isPivot
  columns : ∃ added, u.columns = writtenPrimary t :: ((statedColumns t).map keyed ++ added)
    ∧ ∀ c ∈ added, c ∈ providedBy o t
  softDeletes : hasSoftDeletes o u = hasSoftDeletes o t

theorem hasSoftDeletes_iff {o : Options} {t : Table} :
    hasSoftDeletes o t = true
      ↔ softDeleteColumn ∈ t.columns.map Column.name ∨ (o.softDeletes && !t.isPivot) = true := by
  unfold hasSoftDeletes Table.column?
  rw [Bool.or_eq_true, findColumn?_isSome_iff]

/-- The names of the columns that a migration states are names of the table, or `id`. -/
theorem mem_names_written {name : String}
    (h : name ∈ (writtenPrimary t :: (statedColumns t).map writtenColumn).map Column.name) :
    name = "id" ∨ name ∈ t.columns.map Column.name := by
  rw [List.map_cons, List.map_map] at h
  rcases List.mem_cons.mp h with rfl | h
  · cases hp : t.primary? with
    | none => exact Or.inl (writtenPrimary_name_of_none hp)
    | some c =>
      rw [writtenPrimary_name_of_some hp]
      exact Or.inr (List.mem_map_of_mem (List.mem_of_find?_eq_some hp))
  · obtain ⟨c, hc, rfl⟩ := List.mem_map.mp h
    exact Or.inr (List.mem_map.mpr ⟨c, mem_of_mem_statedColumns hc, rfl⟩)

theorem rewrites_of_columns (h : KeysApart t) (hknown : knownKeys known t = keysOf t)
    (source : Option String) (hname : u.storageName = t.storageName) (hpivot : u.isPivot = t.isPivot)
    (hcolumns : u.columns = (writtenTable o known t source).columns) : Rewrites o t u := by
  refine ⟨hname, hpivot, hcolumns ▸ columns_writtenTable h hknown source, ?_⟩
  have hnames : u.columns.map Column.name = (writtenColumns o t).map Column.name := by
    rw [hcolumns]
    show ((writtenColumns o t).map (withFact (keyFacts known t))).map Column.name = _
    rw [List.map_map]
    exact List.map_congr_left fun c _ => withFact_name _ c
  rw [Bool.eq_iff_iff, hasSoftDeletes_iff, hasSoftDeletes_iff, hpivot, hnames]
  constructor
  · rintro (hm | hm)
    · rcases mem_names_foldl_addMissing.mp hm with hm | hm
      · rcases mem_names_written hm with hid | hm
        · exact absurd hid (by decide)
        · exact Or.inl hm
      · exact hasSoftDeletes_iff.mp (mem_names_providedBy_softDeletes.mp hm)
    · exact Or.inr hm
  · intro hm
    exact Or.inl (mem_names_foldl_addMissing.mpr
      (Or.inr (mem_names_providedBy_softDeletes.mpr (hasSoftDeletes_iff.mpr hm))))

theorem primary_writtenPrimary (t : Table) : (writtenPrimary t).primary = true := by
  unfold writtenPrimary
  split
  · rfl
  · split <;> rfl

theorem Rewrites.primary? (h : Rewrites o t u) : u.primary? = some (writtenPrimary t) := by
  obtain ⟨added, hcolumns, -⟩ := h.columns
  unfold Table.primary?
  rw [hcolumns, List.find?_cons_of_pos (primary_writtenPrimary t)]

/-! ### Declarations -/

variable (c : Column) (nullable primary : Bool)

/-- A column with what its declaration says, as it is read back in one of its roles. -/
def again : Column :=
  { writtenColumn c with foreignKey := c.foreignKey, nullable, primary }

/-- A column that is declared unsigned is read so, and declared so again. -/
theorem declaringMethod_again : declaringMethod (again c nullable primary) = declaringMethod c := by
  unfold declaringMethod again writtenColumn isUnsigned
  dsimp only
  cases c.type.unsignedMethod? with
  | none => simp
  | some m => cases c.unsigned <;> simp

theorem parameterText_again : parameterText (again c nullable primary) = parameterText c := by
  unfold parameterText again writtenColumn
  dsimp only
  cases hc : c.type
  case decimal => cases c.precision <;> simp
  all_goals simp

theorem nonEmpty?_nonEmpty? (s : Option String) : nonEmpty? (nonEmpty? s) = nonEmpty? s := by
  unfold nonEmpty?
  rw [Option.filter_filter]
  simp

/-- A declaration that was read is the same again. -/
theorem declaration_again (h : (nullable && !primary) = (c.nullable && !c.primary)) :
    declaration (again c nullable primary) = declaration c := by
  have hname : (again c nullable primary).name = c.name := rfl
  have hnull : ((again c nullable primary).nullable && !(again c nullable primary).primary)
      = (c.nullable && !c.primary) := h
  have hcomment : (again c nullable primary).comment.filter (fun comment => !comment.isEmpty)
      = c.comment.filter fun comment => !comment.isEmpty := nonEmpty?_nonEmpty? c.comment
  unfold declaration
  rw [declaringMethod_again, parameterText_again, hname, hnull, hcomment]

theorem columnStatement_keyed : columnStatement (keyed c) = columnStatement c := by
  have hkeyed : keyed c = again c (c.nullable && !c.primary) false := rfl
  unfold columnStatement
  rw [hkeyed, declaration_again _ _ _ (by simp)]

/-! ### Statements -/

variable {c nullable primary}

/-- The statement of a primary key that was read is the same again. -/
theorem primaryStatement_eq_of_rewrites (h : Rewrites o t u) (hapart : KeysApart t) :
    primaryStatement u = primaryStatement t := by
  unfold primaryStatement
  rw [h.primary?]
  cases hp : t.primary? with
  | none =>
    have hw : writtenPrimary t = asPrimary { name := "id", type := .bigint } := by
      unfold writtenPrimary
      rw [hp]
    rw [hw]
    rfl
  | some c =>
    have hprimary : c.primary = true := List.find?_some hp
    have hkey : c.foreignKey = none := by
      cases hk : c.foreignKey with
      | none => rfl
      | some key =>
        have := (hapart.apart c (List.mem_of_find?_eq_some hp) (by rw [hk]; simp)).1
        rw [hprimary] at this
        exact absurd this (by simp)
    cases hm : c.type.incrementMethod? with
    | some method =>
      have hw : writtenPrimary t = asPrimary { name := c.name, type := c.type } := by
        unfold writtenPrimary
        simp only [hp, hm, Option.isSome_some, if_true]
      rw [hw]
      simp only [asPrimary, hm]
    | none =>
      have hw : writtenPrimary t = again c false true := by
        unfold writtenPrimary again
        simp only [hp, hm, Option.isSome_none, Bool.false_eq_true, if_false, hkey]
        rfl
      have hname : (again c false true).name = c.name := rfl
      have htype : (again c false true).type = c.type := rfl
      rw [hw]
      dsimp only
      rw [hname, htype, hm, declaration_again c false true (by rw [hprimary]; simp)]

theorem statedColumns_of_rewrites (h : Rewrites o t u) :
    statedColumns u = (statedColumns t).map keyed := by
  obtain ⟨added, hcolumns, hadded⟩ := h.columns
  have hstated : ((statedColumns t).map keyed).filter (fun c => !providedColumns.contains c.name)
      = (statedColumns t).map keyed := by
    rw [List.filter_eq_self]
    intro c hc
    obtain ⟨d, hd, rfl⟩ := List.mem_map.mp hc
    have hname : (keyed d).name = d.name := rfl
    have := not_provided_of_mem_statedColumns hd
    simpa [hname] using this
  have hprovided : added.filter (fun c => !providedColumns.contains c.name) = [] := by
    rw [List.filter_eq_nil_iff]
    intro c hc
    have := (mem_providedBy (hadded c hc)).1
    simpa using this
  unfold statedColumns
  dsimp only
  rw [h.primary?, hcolumns, List.eraseP_cons_of_pos (primary_writtenPrimary t), List.filter_append,
    hprovided, List.append_nil, if_neg (by simp)]
  exact hstated

/-- What concerns neither primary nor provided columns, and nothing of a column but its name and its
key, is the same again. -/
theorem filterMap_of_rewrites {β : Type} {f : Column → Option β} (h : Rewrites o t u)
    (hapart : KeysApart t) (hnone : ∀ c, c.foreignKey = none → f c = none)
    (hsame : ∀ c, f (keyed c) = f c) : u.columns.filterMap f = t.columns.filterMap f := by
  obtain ⟨added, hcolumns, hadded⟩ := h.columns
  have hstated : ((statedColumns t).map keyed).filterMap f = (statedColumns t).filterMap f := by
    rw [List.filterMap_map]
    exact List.filterMap_congr fun c _ => hsame c
  have hprovided : added.filterMap f = [] := by
    rw [List.filterMap_eq_nil_iff]
    exact fun c hc => hnone c (mem_providedBy (hadded c hc)).2
  rw [hcolumns, List.filterMap_cons_none (hnone _ (foreignKey_writtenPrimary t)),
    List.filterMap_append, hprovided, List.append_nil, hstated]
  apply filterMap_statedColumns
  intro c hc hplace
  cases hk : c.foreignKey with
  | none => exact hnone c hk
  | some key =>
    have := hapart.apart c hc (by rw [hk]; simp)
    rcases hplace with hplace | hplace
    · rw [hplace] at this
      exact absurd this.1 (by simp)
    · rw [hplace] at this
      exact absurd this.2 (by simp)

/-- The statements of the keys as they depend on the columns. -/
theorem keyStatements_eq (o : Options) (known : Option (List String)) (t : Table) :
    keyStatements o known t = t.columns.filterMap fun c => c.foreignKey.bind fun key =>
      if isKnown known key then some (keyStatement o c key) else none := by
  unfold keyStatements keysOf
  rw [← List.filterMap_eq_map, ← List.filterMap_eq_filter, List.filterMap_filterMap,
    List.filterMap_filterMap]
  apply List.filterMap_congr
  intro c _
  cases hk : c.foreignKey with
  | none => rfl
  | some key =>
    simp only [Option.map_some, Option.bind_some, Option.guard]
    split <;> simp_all

theorem keyNames_eq (t : Table) :
    keyNames t = t.columns.filterMap fun c => c.foreignKey.bind fun _ =>
      if c.hasKeyName then some c.name else none := by
  unfold keyNames Table.keyColumns
  rw [← List.filterMap_eq_map, List.filterMap_filter, List.filterMap_filter]
  apply List.filterMap_congr
  intro c _
  cases c.foreignKey <;> simp

theorem keyNames_of_rewrites (h : Rewrites o t u) (hapart : KeysApart t) :
    keyNames u = keyNames t := by
  rw [keyNames_eq, keyNames_eq]
  exact filterMap_of_rewrites h hapart (fun c hc => by rw [hc]; rfl) fun _ => rfl

/-- **A table that is read back has the same migration**, and is refused alike. -/
theorem writeTable_of_rewrites (h : Rewrites o t u) (hapart : KeysApart t) (at_ : Timestamp) :
    writeTable o known at_ u = writeTable o known at_ t := by
  have hkeys : keyStatements o known u = keyStatements o known t := by
    rw [keyStatements_eq, keyStatements_eq]
    exact filterMap_of_rewrites h hapart (fun c hc => by rw [hc]; rfl) fun _ => rfl
  have hcolumns : (statedColumns u).map columnStatement = (statedColumns t).map columnStatement := by
    rw [statedColumns_of_rewrites h, List.map_map]
    exact List.map_congr_left fun c _ => columnStatement_keyed c
  have hunique : uniqueStatements u = uniqueStatements t := by
    unfold uniqueStatements
    rw [keyNames_of_rewrites h hapart]
  have hstatements : statements o known u = statements o known t := by
    unfold statements
    dsimp only
    rw [hkeys, hcolumns, hunique, keyNames_of_rewrites h hapart, h.isPivot, h.storageName]
  have hsections : ∀ ss, sections o u ss = sections o t ss := by
    intro ss
    unfold sections
    rw [h.storageName, primaryStatement_eq_of_rewrites h hapart, h.softDeletes]
  unfold writeTable tableContent
  simp only [hstatements, hsections, h.storageName]

end Writing

end Crowsfoot.Migration
