import Mathlib.Data.List.Find
import Crowsfoot.Inference.FromMigrations
import Crowsfoot.Proofs.Migration.Insertion

/-!
# Constraints can stand anywhere

Statements that declare a key or a unique set of the table, `foreign` and `unique`, say nothing of its
columns (`columnsAfter_of_statesConstraint`). In `constraints_anywhere` they are moved to other places
between the statements and comments of a body, before or behind the columns that they mention. The
columns are the same, and so is the schema; keys and unique sets only change their order
(`SameButOrder`).

The order of keys would matter for a column with two of them, which has the key that is declared
first. So each column is to have one at most.
-/

namespace Crowsfoot.Migration

open Crowsfoot.Builder

/-! ## Parts of a body -/

/-- A statement with its semicolon, or a comment. -/
def IsPart (text : List Char) : Prop :=
  IsStatement text ∨ IsComment text

/-- The clauses that a text states; none if it cannot be read. -/
def stated (text : List Char) : List Clause :=
  (CreatedTable.clausesOf (CreatedTable.chains text)).toOption.getD []

theorem stated_of_ok {text : List Char} {clauses : List Clause}
    (h : CreatedTable.clausesOf (CreatedTable.chains text) = .ok clauses) :
    stated text = clauses := by
  unfold stated
  rw [h]
  rfl

/-- A part states its clauses, and then what follows states its own. -/
theorem IsPart.clausesOf_append {part : List Char} (h : IsPart part) (more : List Char) :
    CreatedTable.clausesOf (CreatedTable.chains (part ++ more)) = do
      let before ← CreatedTable.clausesOf (CreatedTable.chains part)
      let after ← CreatedTable.clausesOf (CreatedTable.chains more)
      return before ++ after := by
  rcases h with ⟨lead, rfl, hlead⟩ | hcomment
  · exact clausesOf_append_eq hlead.endsStatement more
  · have hnone : CreatedTable.clausesOf (CreatedTable.chains part) = .ok [] := by
      have hchains := chains_comment hcomment []
      rw [List.append_nil] at hchains
      rw [hchains]
      rfl
    rw [chains_comment hcomment, hnone]
    cases CreatedTable.clausesOf (CreatedTable.chains more) <;> rfl

/-- A body of parts can be read if each of them can, and states what they state one after
another. -/
theorem clausesOf_flatten {parts : List (List Char)} (hparts : ∀ part ∈ parts, IsPart part)
    (tail : List Char) {clauses : List Clause} :
    CreatedTable.clausesOf (CreatedTable.chains (parts.flatten ++ tail)) = .ok clauses
      ↔ (∀ text ∈ parts ++ [tail],
          CreatedTable.clausesOf (CreatedTable.chains text) = .ok (stated text))
        ∧ clauses = parts.flatMap stated ++ stated tail := by
  induction parts generalizing clauses with
  | nil =>
    simp only [List.flatten_nil, List.nil_append, List.forall_mem_singleton, List.flatMap_nil]
    constructor
    · intro h
      rw [stated_of_ok h]
      exact ⟨h, rfl⟩
    · rintro ⟨h, rfl⟩
      exact h
  | cons part parts ih =>
    have ih := @ih fun other hother => hparts other (List.mem_cons_of_mem part hother)
    rw [List.flatten_cons, List.append_assoc, (hparts part List.mem_cons_self).clausesOf_append,
      List.cons_append, List.forall_mem_cons, List.flatMap_cons]
    cases hpart : CreatedTable.clausesOf (CreatedTable.chains part) with
    | error e => simp [bind, Except.bind]
    | ok before =>
      rw [stated_of_ok hpart]
      cases hrest : CreatedTable.clausesOf (CreatedTable.chains (parts.flatten ++ tail)) with
      | error e =>
        constructor
        · exact fun h => nomatch h
        · rintro ⟨⟨-, hall⟩, -⟩
          exact nomatch hrest.symm.trans (ih.mpr ⟨hall, rfl⟩)
      | ok after =>
        obtain ⟨hall, rfl⟩ := ih.mp hrest
        constructor
        · intro h
          exact ⟨⟨rfl, hall⟩, (Except.ok.inj h).symm.trans (List.append_assoc ..).symm⟩
        · rintro ⟨-, rfl⟩
          exact congrArg Except.ok (List.append_assoc ..).symm

/-! ## Constraints -/

/-- Whether a chain declares a key or a unique set of the table. -/
def isConstraint : List Call → Bool
  | [] => false
  | call :: _ => call.method == "foreign" || call.method == "unique"

/-- Whether the first statement of a text does. -/
def statesConstraint (text : List Char) : Bool :=
  match (CreatedTable.chains text).head? with
  | some (.ok calls) => isConstraint calls
  | _ => false

theorem columnsAfter_of_isConstraint {calls : List Call} (h : isConstraint calls = true)
    {clause : Clause} (hclause : clause ∈ Clause.ofChain calls) (columns : List Column) :
    columnsAfter columns clause = columns := by
  cases calls with
  | nil => exact absurd h Bool.false_ne_true
  | cons call calls =>
    simp only [isConstraint, Bool.or_eq_true, beq_iff_eq] at h
    rcases h with h | h
    · have hs : Statement.ofMethod? call.method = some .foreign := by rw [h]; decide
      rw [ofChain_cons hs] at hclause
      simp only [Clause.ofStatement] at hclause
      split at hclause
      · obtain ⟨fact, -, rfl⟩ := Option.map_eq_some_iff.mp (Option.mem_toList.mp hclause)
        rfl
      · exact absurd hclause List.not_mem_nil
    · have hs : Statement.ofMethod? call.method = some .unique := by rw [h]; decide
      rw [ofChain_cons hs] at hclause
      simp only [Clause.ofStatement] at hclause
      split at hclause
      · exact absurd hclause List.not_mem_nil
      · rw [List.mem_singleton.mp hclause]
        rfl

/-- **A constraint says nothing of the columns.** -/
theorem columnsAfter_of_statesConstraint {part : List Char} (hpart : IsPart part)
    (h : statesConstraint part = true) {clause : Clause} (hclause : clause ∈ stated part)
    (columns : List Column) : columnsAfter columns clause = columns := by
  unfold statesConstraint at h
  rcases hpart with ⟨lead, rfl, hlead⟩ | hcomment
  · have hchains := chains_statement hlead []
    rw [hchains, List.head?_cons] at h
    cases hcalls : chain (withoutComments lead) with
    | error e =>
      rw [hcalls] at h
      exact absurd h Bool.false_ne_true
    | ok calls =>
      rw [hcalls] at h hchains
      have hstated : stated (lead ++ [';']) = Clause.ofChain calls := by
        apply stated_of_ok
        rw [hchains]
        exact congrArg Except.ok (List.append_nil _)
      rw [hstated] at hclause
      exact columnsAfter_of_isConstraint h hclause columns
  · have hchains := chains_comment hcomment []
    rw [List.append_nil] at hchains
    rw [hchains] at h
    exact absurd h Bool.false_ne_true

/-- Columns come from the other parts. -/
theorem foldl_columnsAfter_filter {parts : List (List Char)} (hparts : ∀ part ∈ parts, IsPart part)
    (columns : List Column) :
    ((parts.filter fun part => !statesConstraint part).flatMap stated).foldl columnsAfter columns
      = (parts.flatMap stated).foldl columnsAfter columns := by
  induction parts generalizing columns with
  | nil => rfl
  | cons part parts ih =>
    have hpart := hparts part List.mem_cons_self
    have ih := ih fun other hother => hparts other (List.mem_cons_of_mem part hother)
    rw [List.flatMap_cons, List.foldl_append, ← ih]
    cases h : statesConstraint part with
    | false => rw [List.filter_cons_of_pos (by rw [h]; rfl), List.flatMap_cons, List.foldl_append]
    | true =>
      have hsame : (stated part).foldl columnsAfter columns = columns :=
        List.foldlRecOn (motive := fun cs => cs = columns) _ _ rfl fun cs hcs clause hclause =>
          (columnsAfter_of_statesConstraint hpart h hclause cs).trans hcs
      rw [List.filter_cons_of_neg (by rw [h]; simp), hsame]

/-! ## Moving constraints -/

/-- Two tables that have the same keys and the same unique sets in different orders, and do not differ
in anything else. -/
structure CreatedTable.SameButOrder (t u : CreatedTable) : Prop where
  name : u.name = t.name
  source : u.source = t.source
  columns : u.columns = t.columns
  keys : u.keys.Perm t.keys
  uniqueSets : u.uniqueSets.Perm t.uniqueSets

theorem withFact_perm {facts others : List KeyFact} (hnodup : (facts.map KeyFact.column).Nodup)
    (hperm : others.Perm facts) (c : Column) : withFact others c = withFact facts c := by
  have hfind : (others.find? fun fact => fact.column == c.name)
      = facts.find? fun fact => fact.column == c.name := by
    refine (List.find?_eq_find?_of_perm hperm.symm ?_).symm
    rintro x ⟨hx, hxc⟩ y ⟨hy, hyc⟩
    exact List.inj_on_of_nodup_map hnodup hx hy
      ((beq_iff_eq.mp hxc).trans (beq_iff_eq.mp hyc).symm)
  rw [withFact_eq, withFact_eq, hfind]

section Moved

variable {parts moved : List (List Char)} (hparts : ∀ part ∈ parts, IsPart part)
  (hperm : moved.Perm parts)
  (hkept : (moved.filter fun part => !statesConstraint part)
    = parts.filter fun part => !statesConstraint part)
include hparts hperm hkept

/-- Stating the parts of a body with its constraints moved. -/
theorem sameButOrder_stateAll (t : CreatedTable) (clauses : List Clause) :
    (t.stateAll (parts.flatMap stated ++ clauses)).SameButOrder
      (t.stateAll (moved.flatMap stated ++ clauses)) := by
  have hparts' : ∀ part ∈ moved, IsPart part := fun part h => hparts part (hperm.mem_iff.mp h)
  have hclauses : (moved.flatMap stated ++ clauses).Perm (parts.flatMap stated ++ clauses) :=
    (hperm.flatMap_right stated).append_right clauses
  have hcolumns : (moved.flatMap stated ++ clauses).foldl columnsAfter t.columns
      = (parts.flatMap stated ++ clauses).foldl columnsAfter t.columns := by
    rw [List.foldl_append, List.foldl_append, ← foldl_columnsAfter_filter hparts', hkept,
      foldl_columnsAfter_filter hparts]
  rw [stateAll_eq, stateAll_eq]
  exact ⟨rfl, rfl, hcolumns, (hclauses.filterMap _).append_left _,
    (hclauses.filterMap _).append_left _⟩

end Moved

theorem CreatedTable.SameButOrder.attachKeys {t u : CreatedTable} (ht : Underway t)
    (hu : Underway u) (h : t.SameButOrder u) (hkeys : (t.keys.map KeyFact.column).Nodup) :
    t.attachKeys.SameButOrder u.attachKeys := by
  refine ⟨h.name, h.source, ?_, h.keys, h.uniqueSets⟩
  rw [ht.columns_attachKeys, hu.columns_attachKeys, h.columns]
  exact List.map_congr_left fun c _ => withFact_perm hkeys h.keys c

end Crowsfoot.Migration

namespace Crowsfoot.Inference

open Crowsfoot.Builder Crowsfoot.Migration

/-! ## Schemas -/

/-- The order of keys and unique sets does not matter for what a table contributes to a schema. -/
theorem inferFromMigrations_congr {t u : CreatedTable} (h : t.SameButOrder u) (o : Options)
    (before after : List CreatedTable) :
    inferFromMigrations o (before ++ u :: after)
      = inferFromMigrations o (before ++ t :: after) := by
  have hpivot : isPivot o u = isPivot o t := by
    unfold isPivot
    rw [h.name, h.columns]
  have hentity : u.entityName = t.entityName := congrArg Naming.entityName h.name
  have hskipped : isSkipped o u = isSkipped o t := by
    unfold isSkipped
    rw [h.name]
  have htable : tableOf o u = tableOf o t := by
    unfold tableOf
    rw [hpivot, hentity, h.name, h.columns]
  have hclassify : ∀ parent child column, classify parent child column u.uniqueSets
      = classify parent child column t.uniqueSets := by
    intro parent child column
    have hcontains : u.uniqueSets.contains [column] = t.uniqueSets.contains [column] := by
      rw [Bool.eq_iff_iff, List.contains_iff_mem, List.contains_iff_mem]
      exact h.uniqueSets.mem_iff
    unfold classify
    rw [hcontains]
  have hrelationships : ∀ known, relationshipsOf o known u = relationshipsOf o known t := by
    intro known
    unfold relationshipsOf pivotRelationship
    simp only [hskipped, hpivot, htable, hentity, hclassify, h.name]
  have hunresolved : ∀ known, unresolvedOf o known u = unresolvedOf o known t := by
    intro known
    unfold unresolvedOf
    rw [hskipped, htable, h.name]
  unfold inferFromMigrations
  simp only [List.map_append, List.map_cons, List.flatMap_append, List.flatMap_cons, h.name, htable,
    hrelationships, hunresolved]

/-- **Keys and unique sets of the table can be declared anywhere** between the statements and comments
of a body, before or behind the columns that they mention, if no column has two keys. The columns that
are read are the same, in the same order and with the same keys, and so is every schema with this
table; keys and unique sets are the same up to their order. -/
theorem constraints_anywhere {name tail : String} {source : Option String}
    {parts moved : List String} {t : CreatedTable} (hparts : ∀ part ∈ parts, IsPart part.toList)
    (hperm : moved.Perm parts)
    (hkept : (moved.filter fun part => !statesConstraint part.toList)
      = parts.filter fun part => !statesConstraint part.toList)
    (hread : CreatedTable.ofBody name (String.join parts ++ tail) source = .ok t)
    (hkeys : (t.keys.map KeyFact.column).Nodup) :
    ∃ u, CreatedTable.ofBody name (String.join moved ++ tail) source = .ok u ∧ t.SameButOrder u
      ∧ ∀ o before after, inferFromMigrations o (before ++ u :: after)
        = inferFromMigrations o (before ++ t :: after) := by
  have htext : ∀ texts : List String,
      (String.join texts ++ tail).toList = (texts.map String.toList).flatten ++ tail.toList := by
    intro texts
    rw [String.toList_append, String.toList_join, List.flatMap_def]
  have hparts' : ∀ part ∈ parts.map String.toList, IsPart part := List.forall_mem_map.mpr hparts
  have hmoved' : ∀ part ∈ moved.map String.toList, IsPart part :=
    List.forall_mem_map.mpr fun part h => hparts part (hperm.mem_iff.mp h)
  have hperm' : (moved.map String.toList).Perm (parts.map String.toList) := hperm.map _
  have hkept' : ((moved.map String.toList).filter fun part => !statesConstraint part)
      = (parts.map String.toList).filter fun part => !statesConstraint part := by
    rw [List.filter_map, List.filter_map]
    exact congrArg _ hkept
  obtain ⟨clauses, hclauses, rfl⟩ := ofBody_eq_ok.mp hread
  rw [htext] at hclauses
  obtain ⟨hall, rfl⟩ := (clausesOf_flatten hparts' tail.toList).mp hclauses
  have hclauses' := (clausesOf_flatten hmoved' tail.toList).mpr
    ⟨fun text h => hall text ((hperm'.append_right _).mem_iff.mp h), rfl⟩
  have hsame := sameButOrder_stateAll hparts' hperm' hkept' { name, source } (stated tail.toList)
  have hattached := hsame.attachKeys (underway_of_clausesOf hclauses)
    (underway_of_clausesOf hclauses') hkeys
  refine ⟨_, ofBody_eq_ok.mpr ⟨_, ?_, rfl⟩, hattached, inferFromMigrations_congr hattached⟩
  rw [htext]
  exact hclauses'

/-- The parts of a body with a comment, two constraints and a semicolon in a literal. -/
def profileParts : List String :=
  ["$table->foreignId('user_id');", "// one each;\n", "$table->unique('user_id');",
    "$table->foreign('user_id')->references('uuid')->on('users');", " $table->string('a;b');"]

/-- The same with the key before its column, and the unique set at the end. -/
def movedProfileParts : List String :=
  ["$table->foreign('user_id')->references('uuid')->on('users');", "$table->foreignId('user_id');",
    "// one each;\n", " $table->string('a;b');", "$table->unique('user_id');"]

/-- The table that both create. -/
def createdProfiles : CreatedTable :=
  { name := "profiles"
    columns :=
      [{ name := "user_id", type := .bigint, nullable := false,
         foreignKey := some { table := "users", column := "uuid" } },
       { name := "a;b", nullable := false }]
    keys := [{ column := "user_id", on := "users", references := "uuid" }]
    uniqueSets := [["user_id"]] }

theorem isPart_profileParts : ∀ part ∈ profileParts, IsPart part.toList := by
  have hcomment : IsComment "// one each;\n".toList :=
    .line (.inl rfl) (show '\n' ∉ " one each;".toList by decide)
  intro part hpart
  by_cases hline : part = "// one each;\n"
  · rw [hline]
    exact .inr hcomment
  · have hstatements : ∀ part ∈ profileParts, part ≠ "// one each;\n" →
        IsStatement part.toList := by
      decide +kernel
    exact .inl (hstatements part hpart hline)

theorem constraints_anywhere_profiles :
    (∀ part ∈ profileParts, IsPart part.toList)
      ∧ movedProfileParts.Perm profileParts
      ∧ (movedProfileParts.filter fun part => !statesConstraint part.toList)
        = (profileParts.filter fun part => !statesConstraint part.toList)
      ∧ CreatedTable.ofBody "profiles" (String.join profileParts ++ "\n") none = .ok createdProfiles
      ∧ (createdProfiles.keys.map KeyFact.column).Nodup
      ∧ ∃ u, CreatedTable.ofBody "profiles" (String.join movedProfileParts ++ "\n") none = .ok u
        ∧ createdProfiles.SameButOrder u
        ∧ ∀ o before after, inferFromMigrations o (before ++ u :: after)
          = inferFromMigrations o (before ++ createdProfiles :: after) := by
  have hperm : movedProfileParts.Perm profileParts := by decide +kernel
  have hkept : (movedProfileParts.filter fun part => !statesConstraint part.toList)
      = profileParts.filter fun part => !statesConstraint part.toList := by
    decide +kernel
  have hread : CreatedTable.ofBody "profiles" (String.join profileParts ++ "\n") none
      = .ok createdProfiles := by
    decide +kernel
  have hkeys : (createdProfiles.keys.map KeyFact.column).Nodup := by decide
  exact ⟨isPart_profileParts, hperm, hkept, hread, hkeys,
    constraints_anywhere isPart_profileParts hperm hkept hread hkeys⟩

end Crowsfoot.Inference
