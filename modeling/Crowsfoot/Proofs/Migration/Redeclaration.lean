import Crowsfoot.Proofs.Migration.Reading

/-!
# Columns declared again

A column that is declared already is not declared again: of a statement all of whose columns are
there, the columns of the table see nothing. What the statement says beside the column is said all
the same (`stateAll_redeclared`): the key that its chain declares, and the unique set of a `unique`
in the chain. So a statement without modifiers, such as `timestamps`, leaves the table as it was,
and one with modifiers does so exactly if its chain has neither.

`unique_applyModifiers`: of all modifiers only `unique` makes a column unique, and none takes it
back.
-/

namespace Crowsfoot.Migration

open Crowsfoot.Builder

/-! ## Unique columns -/

theorem ofMethod?_eq_unique {method : String} :
    Modifier.ofMethod? method = some .unique ↔ method = "unique" := by
  constructor
  · intro h
    simpa [modifierMethods] using mem_of_ofMethod? h
  · rintro rfl
    decide

theorem unique_apply (m : Modifier) (call : Call) (c : Column) :
    (m.apply call c).unique = (c.unique || m == .unique) := by
  cases m with
  | unique => exact (Bool.or_true _).symm
  | minimum | maximum | comment | pattern =>
    simp only [Modifier.apply]
    split <;> exact (Bool.or_false _).symm
  | _ => exact (Bool.or_false _).symm

theorem unique_applyCall (c : Column) (call : Call) :
    (applyCall c call).unique = (c.unique || call.method == "unique") := by
  unfold applyCall
  cases hm : Modifier.ofMethod? call.method with
  | none =>
    have hne : (call.method == "unique") = false := by
      rw [beq_eq_false_iff_ne]
      intro he
      rw [ofMethod?_eq_unique.mpr he] at hm
      exact nomatch hm
    rw [hne, Bool.or_false]
  | some m =>
    have hm' : (m == .unique) = (call.method == "unique") := by
      rw [Bool.eq_iff_iff, beq_iff_eq, beq_iff_eq, ← ofMethod?_eq_unique, hm, Option.some.injEq]
    rw [unique_apply, hm']

/-- **A chain makes a column unique** by a `unique` call, and by nothing else. -/
theorem unique_applyModifiers (calls : List Call) (c : Column) :
    (applyModifiers calls c).unique
      = (c.unique || calls.any fun call => call.method == "unique") := by
  unfold applyModifiers
  induction calls generalizing c with
  | nil => exact (Bool.or_false _).symm
  | cons call calls ih => rw [List.foldl_cons, ih, unique_applyCall, List.any_cons, Bool.or_assoc]

theorem name_apply (m : Modifier) (call : Call) (c : Column) : (m.apply call c).name = c.name := by
  cases m <;> simp only [Modifier.apply]
  all_goals split <;> rfl

theorem name_applyModifiers (calls : List Call) (c : Column) :
    (applyModifiers calls c).name = c.name :=
  applyModifiers_induction (P := fun d => d.name = c.name)
    (fun m call d hd => (name_apply m call d).trans hd) calls rfl

/-! ## Declaring again -/

/-- The key that a statement declares on its column. -/
def chainedFacts (s : Statement) (call : Call) (calls : List Call) : List KeyFact :=
  ((baseColumn? s call).bind fun c => chainKey? s call calls c.name).toList

/-- The unique set that a statement states of its column. -/
def chainedSets (s : Statement) (call : Call) (calls : List Call) : List (List String) :=
  if calls.any fun other => other.method == "unique" then
    (baseColumn? s call).toList.map fun c => [c.name]
  else []

theorem addMissing_of_declares {t : CreatedTable} {c : Column} (h : t.declares c.name = true) :
    addMissing t.columns c = t.columns :=
  addMissing_of_mem (findColumn?_isSome_iff.mp h)

theorem foldl_addMissing_of_declares {t : CreatedTable} {cs : List Column}
    (h : ∀ c ∈ cs, t.declares c.name = true) : cs.foldl addMissing t.columns = t.columns := by
  induction cs with
  | nil => rfl
  | cons c cs ih =>
    rw [List.foldl_cons, addMissing_of_declares (h c List.mem_cons_self)]
    exact ih fun d hd => h d (List.mem_cons_of_mem c hd)

/-- More keys and unique sets are none if the table is as it was. -/
theorem appended_eq_self {t : CreatedTable} {facts : List KeyFact} {sets : List (List String)} :
    { t with keys := t.keys ++ facts, uniqueSets := t.uniqueSets ++ sets } = t
      ↔ facts = [] ∧ sets = [] := by
  constructor
  · intro h
    exact ⟨by simpa using congrArg CreatedTable.keys h,
      by simpa using congrArg CreatedTable.uniqueSets h⟩
  · rintro ⟨rfl, rfl⟩
    simp

section Redeclared

variable {t : CreatedTable} {s : Statement} {call : Call} {calls : List Call}
  (hdeclared : ∀ c, .declare c ∈ Clause.ofStatement s call calls → t.declares c.name = true)
include hdeclared

/-- A statement with modifiers. -/
theorem stateAll_of_baseColumn? {c : Column} (hbase : baseColumn? s call = some c) :
    t.stateAll (Clause.ofStatement s call calls)
      = { t with
          keys := t.keys ++ (chainKey? s call calls c.name).toList
          uniqueSets := t.uniqueSets
            ++ if calls.any fun other => other.method == "unique" then [[c.name]] else [] } := by
  have hclauses := ofStatement_of_baseColumn? hbase calls
  have hthere : t.declares (applyModifiers calls c).name = true := by
    apply hdeclared
    rw [hclauses]
    exact mem_columnClauses.mpr (.inr (.inr rfl))
  rw [hclauses, stateAll_columnClauses, addMissing_of_declares hthere, unique_applyModifiers,
    name_applyModifiers, (isBaseColumn_of_baseColumn? hbase).unique, Bool.false_or]

/-- A statement without modifiers. -/
theorem stateAll_of_baseColumn?_eq_none (hs : declaresColumns s = true)
    (hbase : baseColumn? s call = none) : t.stateAll (Clause.ofStatement s call calls) = t := by
  have hall := declare_of_baseColumn?_eq_none hs hbase calls
  obtain ⟨cs, hcs⟩ : ∃ cs : List Column, Clause.ofStatement s call calls = cs.map .declare := by
    generalize Clause.ofStatement s call calls = clauses at hall
    induction clauses with
    | nil => exact ⟨[], rfl⟩
    | cons clause clauses ih =>
      obtain ⟨c, rfl⟩ := (hall clause List.mem_cons_self).2
      obtain ⟨cs, rfl⟩ := ih fun other hother => hall other (List.mem_cons_of_mem _ hother)
      exact ⟨c :: cs, rfl⟩
  rw [hcs] at hdeclared ⊢
  rw [stateAll_declare,
    foldl_addMissing_of_declares fun c hc => hdeclared c (List.mem_map_of_mem hc)]

/-- **What a statement on declared columns leaves behind.** The columns are as they were, and the
keys and unique sets of its chain are stated all the same; so the table is as it was exactly if the
chain declares no key and makes nothing unique. -/
theorem stateAll_redeclared (hs : declaresColumns s = true) :
    t.stateAll (Clause.ofStatement s call calls)
        = { t with
            keys := t.keys ++ chainedFacts s call calls
            uniqueSets := t.uniqueSets ++ chainedSets s call calls }
      ∧ (t.stateAll (Clause.ofStatement s call calls) = t
        ↔ ∀ c, baseColumn? s call = some c →
          chainKey? s call calls c.name = none ∧ ∀ other ∈ calls, other.method ≠ "unique") := by
  have hstated : t.stateAll (Clause.ofStatement s call calls)
      = { t with
          keys := t.keys ++ chainedFacts s call calls
          uniqueSets := t.uniqueSets ++ chainedSets s call calls } := by
    unfold chainedFacts chainedSets
    cases hbase : baseColumn? s call with
    | none =>
      rw [stateAll_of_baseColumn?_eq_none hdeclared hs hbase]
      simp
    | some c => exact stateAll_of_baseColumn? hdeclared hbase
  refine ⟨hstated, ?_⟩
  rw [hstated, appended_eq_self]
  unfold chainedFacts chainedSets
  cases baseColumn? s call <;> simp

end Redeclared

/-! ## A declaration that is skipped, but for its chain -/

/-- A table with one column. -/
def subscribers : CreatedTable :=
  { name := "subscribers", columns := [{ name := "email", nullable := false }] }

/-- The call that declares the column, `string('email')`. -/
def emailCall : Call :=
  { method := "string", rawArguments := "'email'", arguments := [.text "email"] }

/-- The chain `->unique()->constrained('people', 'uuid')`. -/
def emailChain : List Call :=
  [{ method := "unique", rawArguments := "", arguments := [] },
    { method := "constrained"
      rawArguments := "'people', 'uuid'"
      arguments := [.text "people", .text "uuid"] }]

theorem declares_email (c : Column)
    (h : .declare c ∈ Clause.ofStatement (.typed .varchar false) emailCall emailChain) :
    subscribers.declares c.name = true := by
  have hclauses : Clause.ofStatement (.typed .varchar false) emailCall emailChain
      = columnClauses { name := "email", nullable := false, unique := true }
          (some { column := "email", on := "people", references := "uuid" }) := by
    decide
  rw [hclauses] at h
  rcases mem_columnClauses.mp h with ⟨-, h⟩ | ⟨_, -, h⟩ | h
  · exact nomatch h
  · exact nomatch h
  · obtain rfl := Clause.declare.inj h
    decide

/-- **A skipped declaration is not without effect**: the key and the unique set of its chain
stay. -/
theorem redeclaration_leaks :
    ¬ ∀ (t : CreatedTable) (s : Statement) (call : Call) (calls : List Call),
      declaresColumns s = true →
      (∀ c, .declare c ∈ Clause.ofStatement s call calls → t.declares c.name = true) →
      t.stateAll (Clause.ofStatement s call calls) = t := by
  intro h
  have hsame := h subscribers (.typed .varchar false) emailCall emailChain rfl declares_email
  have hsets : (subscribers.stateAll
      (Clause.ofStatement (.typed .varchar false) emailCall emailChain)).uniqueSets
        = [["email"]] := by
    decide
  rw [hsame] at hsets
  exact absurd hsets (by decide)

theorem stateAll_redeclared_email :
    declaresColumns (.typed .varchar false) = true
      ∧ (∀ c, .declare c ∈ Clause.ofStatement (.typed .varchar false) emailCall emailChain →
        subscribers.declares c.name = true)
      ∧ subscribers.stateAll (Clause.ofStatement (.typed .varchar false) emailCall emailChain)
        = { subscribers with
            keys := [{ column := "email", on := "people", references := "uuid" }]
            uniqueSets := [["email"]] }
      ∧ subscribers.stateAll (Clause.ofStatement (.typed .varchar false) emailCall emailChain)
        ≠ subscribers := by
  obtain ⟨hstated, hself⟩ := stateAll_redeclared declares_email rfl
  have hfacts : chainedFacts (.typed .varchar false) emailCall emailChain
      = [{ column := "email", on := "people", references := "uuid" }] := by
    decide
  have hsets : chainedSets (.typed .varchar false) emailCall emailChain = [["email"]] := by decide
  have hbase : baseColumn? (.typed .varchar false) emailCall
      = some { name := "email", nullable := false } := by
    decide
  refine ⟨rfl, declares_email, ?_, ?_⟩
  · rw [hstated, hfacts, hsets]
    rfl
  · intro h
    exact (hself.mp h _ hbase).2 _ List.mem_cons_self rfl

end Crowsfoot.Migration
