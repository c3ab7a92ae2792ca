import Crowsfoot.Proofs.Migration.Reading

/-!
# What is read hangs together

Whatever the body of a creation says, in whatever order, the table that is read from it is
`Consistent` (`consistent_ofBody`): its columns have different names, each has the key of the first
fact on its name, a unique column is a unique set of its own, no unique set is empty, and an
unsigned column has a minimum.

Stating clauses copies columns and unique sets out of them (`forall_mem_columns_stateAll`,
`mem_uniqueSets_stateAll`), so what has to hang together is the clauses: each of a statement is
`IsBacked` by those of the same statement (`isBacked_ofChain`), wherever they stand.
-/

namespace Crowsfoot.Migration

open Crowsfoot.Builder Crowsfoot.Text

/-- A table whose columns, keys and unique sets hang together. -/
structure CreatedTable.Consistent (t : CreatedTable) : Prop where
  distinct : (t.columns.map Column.name).Nodup
  /-- A column has the key of the first fact on its name, and none without a fact. -/
  key : ∀ c ∈ t.columns,
    c.foreignKey = (t.keys.find? fun fact => fact.column == c.name).map KeyFact.target
  unique : ∀ c ∈ t.columns, c.unique = true → [c.name] ∈ t.uniqueSets
  inhabited : ∀ names ∈ t.uniqueSets, names ≠ []
  bounded : ∀ c ∈ t.columns, c.IsBounded

/-! ## Clauses that back each other -/

/-- Clauses back a clause: a unique column is a unique set among them. Besides, an unsigned column
has a minimum, and a unique set is one of some columns. -/
def Clause.IsBacked (clauses : List Clause) : Clause → Prop
  | .declare c => (c.unique = true → .uniqueSet [c.name] ∈ clauses) ∧ c.IsBounded
  | .uniqueSet names => names ≠ []
  | _ => True

theorem Clause.IsBacked.mono {clauses more : List Clause} (hsub : clauses ⊆ more) {clause : Clause}
    (h : clause.IsBacked clauses) : clause.IsBacked more := by
  cases clause with
  | declare c => exact ⟨fun hunique => hsub (h.1 hunique), h.2⟩
  | _ => exact h

theorem Clause.IsPlain.isBacked {clause : Clause} (h : clause.IsPlain) (clauses : List Clause) :
    clause.IsBacked clauses := by
  cases clause with
  | declare c =>
    obtain ⟨-, hunique, hunsigned⟩ := h
    exact ⟨fun ht => absurd (hunique.symm.trans ht) Bool.false_ne_true, .of_signed hunsigned⟩
  | uniqueSet names => exact h
  | _ => trivial

theorem isBacked_columnClauses {c : Column} (hc : c.IsBounded) (key : Option KeyFact) :
    ∀ clause ∈ columnClauses c key, clause.IsBacked (columnClauses c key) := by
  intro clause h
  rcases mem_columnClauses.mp h with ⟨-, rfl⟩ | ⟨fact, -, rfl⟩ | rfl
  · exact List.cons_ne_nil _ _
  · trivial
  · exact ⟨fun hunique => mem_columnClauses.mpr (.inl ⟨hunique, rfl⟩), hc⟩

/-- **The clauses of a chain back each other**, whatever the chain. -/
theorem isBacked_ofChain (calls : List Call) :
    ∀ clause ∈ Clause.ofChain calls, clause.IsBacked (Clause.ofChain calls) := by
  cases calls with
  | nil => simp [Clause.ofChain]
  | cons call calls =>
    cases hs : Statement.ofMethod? call.method with
    | some s =>
      rw [ofChain_cons hs]
      obtain ⟨c, key, hclauses, -, hc, -⟩ | hplain := ofStatement_cases s call calls
      · rw [hclauses]
        exact isBacked_columnClauses (isBounded_applyModifiers calls hc) key
      · exact fun clause h => (hplain clause h).isBacked _
    | none =>
      simp only [Clause.ofChain, hs]
      exact List.forall_mem_singleton.mpr trivial

theorem isBacked_of_clausesOf {chains : List (Except ReadError (List Call))} {clauses : List Clause}
    (h : CreatedTable.clausesOf chains = .ok clauses) :
    ∀ clause ∈ clauses, clause.IsBacked clauses := by
  obtain ⟨calls, -, rfl⟩ := clausesOf_eq_ok.mp h
  intro clause hclause
  obtain ⟨chain, hchain, hclause⟩ := List.mem_flatMap.mp hclause
  exact (isBacked_ofChain chain clause hclause).mono
    fun _ hother => List.mem_flatMap.mpr ⟨chain, hchain, hother⟩

/-! ## Stating clauses -/

/-- **What holds of every declared column** holds of every column, if it does not depend on what
later clauses change. -/
theorem forall_mem_columns_stateAll {P : Column → Prop} {t : CreatedTable} {clauses : List Clause}
    (hprimary : ∀ c : Column, P c → P { c with primary := true, nullable := false })
    (hindexed : ∀ c : Column, P c → P { c with index := true })
    (hdeclared : ∀ c, .declare c ∈ clauses → P c) (ht : ∀ c ∈ t.columns, P c) :
    ∀ c ∈ (t.stateAll clauses).columns, P c := by
  unfold CreatedTable.stateAll
  induction clauses generalizing t with
  | nil => exact ht
  | cons clause clauses ih =>
    refine ih (fun c hc => hdeclared c (List.mem_cons_of_mem clause hc)) ?_
    cases clause with
    | declare c =>
      rw [state_declare]
      exact forall_mem_addMissing ht (hdeclared c List.mem_cons_self)
    | primary name => exact forall_mem_modifyColumn ht hprimary
    | indexed name => exact forall_mem_modifyColumn ht hindexed
    | _ => exact ht

theorem mem_uniqueSets_stateAll {t : CreatedTable} {clauses : List Clause} {names : List String} :
    names ∈ (t.stateAll clauses).uniqueSets
      ↔ names ∈ t.uniqueSets ∨ .uniqueSet names ∈ clauses := by
  have hnames : ∀ clause : Clause, clause.names? = some names ↔ clause = .uniqueSet names := by
    intro clause
    cases clause <;> simp [Clause.names?]
  rw [stateAll_eq, List.mem_append, List.mem_filterMap]
  simp only [hnames, exists_eq_right]

/-! ## Tables -/

/-- **Handing out the keys** makes a table consistent that is so but for its keys. -/
theorem Underway.consistent {t : CreatedTable} (h : Underway t)
    (hunique : ∀ c ∈ t.columns, c.unique = true → [c.name] ∈ t.uniqueSets)
    (hinhabited : ∀ names ∈ t.uniqueSets, names ≠ []) (hbounded : ∀ c ∈ t.columns, c.IsBounded) :
    t.attachKeys.Consistent := by
  have hcolumns : ∀ {P : Column → Prop},
      (∀ c ∈ t.columns, P (withFact t.keys c)) → ∀ c ∈ t.attachKeys.columns, P c := by
    intro P hP
    rw [h.columns_attachKeys]
    exact List.forall_mem_map.mpr hP
  refine ⟨?_, hcolumns ?_, hcolumns ?_, hinhabited, hcolumns ?_⟩
  · rw [h.columns_attachKeys, map_name_withFact]
    exact h.distinct
  · intro c hc
    rw [withFact_eq, h.plain c hc, Option.or_none]
    rfl
  · intro c hc
    rw [withFact_eq]
    exact hunique c hc
  · intro c hc
    rw [withFact_eq]
    exact hbounded c hc

/-- **What is read hangs together**, whatever the body says and in whatever order. -/
theorem consistent_ofBody {name body : String} {source : Option String} {t : CreatedTable}
    (h : CreatedTable.ofBody name body source = .ok t) : t.Consistent := by
  obtain ⟨clauses, hclauses, rfl⟩ := ofBody_eq_ok.mp h
  have hbacked := isBacked_of_clausesOf hclauses
  refine (underway_of_clausesOf hclauses).consistent ?_ ?_ ?_
  · refine forall_mem_columns_stateAll (fun _ hc => hc) (fun _ hc => hc) ?_ (by simp)
    intro c hc hunique
    exact mem_uniqueSets_stateAll.mpr (.inr ((hbacked _ hc).1 hunique))
  · intro names hnames
    exact hbacked _ ((mem_uniqueSets_stateAll.mp hnames).resolve_left (by simp))
  · refine forall_mem_columns_stateAll (fun _ hc => hc) (fun _ hc => hc) ?_ (by simp)
    exact fun c hc => (hbacked _ hc).2

/-- A body that declares a key before its column, the column twice, and another one unsigned. -/
def writersBody : String :=
  "$table->foreign('boss')->on('writers'); $table->foreignId('boss')->constrained()->unique();"
    ++ "$table->text('boss')->unique(); $table->integer('age')->unsigned();"

/-- The table that `writersBody` creates. -/
def createdWriters : CreatedTable :=
  { name := "writers"
    columns :=
      [{ name := "boss", type := .bigint, nullable := false, unique := true,
          foreignKey := some { table := "writers" } },
        { name := "age", type := .int, nullable := false, unsigned := true, minimum := some 0 }]
    keys := [{ column := "boss", on := "writers" }, { column := "boss", on := "boss" }]
    uniqueSets := [["boss"], ["boss"]] }

theorem consistent_ofBody_writers :
    CreatedTable.ofBody "writers" writersBody none = .ok createdWriters
      ∧ createdWriters.Consistent := by
  have hread : CreatedTable.ofBody "writers" writersBody none = .ok createdWriters := by
    decide +kernel
  exact ⟨hread, consistent_ofBody hread⟩

end Crowsfoot.Migration
