import Crowsfoot.Proofs.Migration.Extension

/-!
# What says nothing

Between two statements of a body there can be comments and statements that say nothing of the table:
those that are no chains, and those whose first method is unknown (`SaysNothing`). The table that is
read, and the error if there is one, are the same without them (`ofBody_insert`), whatever they hold.

A body counts for what stating its clauses does to any table (`ReadAlike`). That does not change if
the same statements stand before two bodies (`ReadAlike.prepend`), so it is enough to look at a text
that begins with what is inserted.
-/

namespace Crowsfoot.Migration

open Crowsfoot.Builder Crowsfoot.Text

/-! ## Unsupported chains -/

/-- No chain at all, or one that begins with an unknown method. -/
def IsUnsupported (calls : List Call) : Prop :=
  ∀ call ∈ calls.head?, Statement.ofMethod? call.method = none

instance (calls : List Call) : Decidable (IsUnsupported calls) :=
  inferInstanceAs (Decidable (∀ call ∈ calls.head?, Statement.ofMethod? call.method = none))

theorem stateAll_unsupported (t : CreatedTable) {calls : List Call} (h : IsUnsupported calls) :
    t.stateAll (Clause.ofChain calls) = t := by
  cases calls with
  | nil => rfl
  | cons call calls =>
    have hclauses : Clause.ofChain (call :: calls) = [.unsupported call.method] := by
      simp only [Clause.ofChain, h call rfl]
    rw [hclauses]
    rfl

/-- A comment with its end, or a statement that is unsupported. -/
inductive SaysNothing : List Char → Prop where
  | comment {text : List Char} (comment : IsComment text) : SaysNothing text
  | statement {lead : List Char} {calls : List Call} (single : IsUnended lead)
    (readable : chain (withoutComments lead) = .ok calls) (unsupported : IsUnsupported calls) :
    SaysNothing (lead ++ [';'])

/-! ## Bodies that are read alike -/

/-- Two bodies that do the same to every table, or fail with the same error. -/
def ReadAlike (x y : List Char) : Prop :=
  ∀ t : CreatedTable, (CreatedTable.clausesOf (CreatedTable.chains x)).map t.stateAll
    = (CreatedTable.clausesOf (CreatedTable.chains y)).map t.stateAll

namespace ReadAlike

variable {x y : List Char}

theorem of_chains (h : CreatedTable.chains x = CreatedTable.chains y) : ReadAlike x y := by
  intro t
  rw [h]

/-- The same statements before both bodies. -/
theorem prepend {first : List Char} (hfirst : EndsStatement first) (h : ReadAlike x y) :
    ReadAlike (first ++ x) (first ++ y) := by
  have hafter : ∀ (z : List Char) (t : CreatedTable),
      (CreatedTable.clausesOf (CreatedTable.chains (first ++ z))).map t.stateAll
        = (CreatedTable.clausesOf (CreatedTable.chains first)).bind fun before =>
          (CreatedTable.clausesOf (CreatedTable.chains z)).map (t.stateAll before).stateAll := by
    intro z t
    rw [clausesOf_append_eq hfirst]
    cases CreatedTable.clausesOf (CreatedTable.chains first) with
    | error e => rfl
    | ok before =>
      cases CreatedTable.clausesOf (CreatedTable.chains z) with
      | error e => rfl
      | ok after => exact congrArg Except.ok (stateAll_append t before after)
  intro t
  rw [hafter, hafter]
  cases CreatedTable.clausesOf (CreatedTable.chains first) with
  | error e => rfl
  | ok before => exact h (t.stateAll before)

theorem ofBody {x y : String} (h : ReadAlike x.toList y.toList) (name : String)
    (source : Option String) :
    CreatedTable.ofBody name x source = CreatedTable.ofBody name y source := by
  have hmap : ∀ z : String, CreatedTable.ofBody name z source
      = ((CreatedTable.clausesOf (CreatedTable.chains z.toList)).map
          (CreatedTable.stateAll { name, source })).map CreatedTable.attachKeys := by
    intro z
    unfold CreatedTable.ofBody
    cases CreatedTable.clausesOf (CreatedTable.chains z.toList) <;> rfl
  rw [hmap, hmap, h]

end ReadAlike

/-! ## What is inserted -/

theorem chain_cons_newline (p : List Char) : chain ('\n' :: p) = chain p := by
  have htrim : trim ('\n' :: p) = trim p :=
    strip_append_left (show ∀ c ∈ ['\n'], isBlank c = true by decide) p
  unfold chain
  rw [htrim]

/-- **A comment does not count.** Its line feed belongs to the statement that follows, where blanks
in front do not count either. -/
theorem chains_comment {comment : List Char} (h : IsComment comment) (y : List Char) :
    CreatedTable.chains (comment ++ y) = CreatedTable.chains y := by
  unfold CreatedTable.chains
  rcases h.withoutComments y with hrest | hrest
  · rw [hrest]
  · have hsplit : splitAt ';' ('\n' :: withoutComments y)
        = extendFirst '\n' (splitAt ';' (withoutComments y)) := rfl
    obtain ⟨p, ps, hps⟩ :=
      List.exists_cons_of_ne_nil (splitFrom_ne_nil ';' .code 0 (withoutComments y))
    rw [hrest, hsplit, show splitAt ';' (withoutComments y) = p :: ps from hps, extendFirst,
      List.map_cons, List.map_cons, chain_cons_newline]

/-- The chain of a statement comes before those of what follows. -/
theorem chains_statement {lead : List Char} (h : IsUnended lead) (y : List Char) :
    CreatedTable.chains (lead ++ ';' :: y)
      = chain (withoutComments lead) :: CreatedTable.chains y := by
  unfold CreatedTable.chains
  rw [h.splitAt, List.map_cons]

/-- **What says nothing is read as nothing**, whatever follows it. -/
theorem SaysNothing.readAlike {inserted : List Char} (h : SaysNothing inserted)
    (y : List Char) : ReadAlike (inserted ++ y) y := by
  cases h with
  | comment hcomment => exact .of_chains (chains_comment hcomment y)
  | @statement lead calls hlead hcalls hunsupported =>
    intro t
    have hone : CreatedTable.clausesOf [.ok calls] = .ok (Clause.ofChain calls) :=
      congrArg Except.ok (List.append_nil _)
    rw [List.append_assoc, List.singleton_append, chains_statement hlead, hcalls,
      ← List.singleton_append, clausesOf_concat, hone]
    cases CreatedTable.clausesOf (CreatedTable.chains y) with
    | error e => rfl
    | ok after =>
      refine congrArg Except.ok ?_
      rw [stateAll_append, stateAll_unsupported t hunsupported]

/-- **Comments and unsupported statements have no effect**, between any two statements of a body and
before the first. -/
theorem ofBody_insert {first inserted : String} (hfirst : first = "" ∨ EndsStatement first.toList)
    (hinserted : SaysNothing inserted.toList) (name second : String) (source : Option String) :
    CreatedTable.ofBody name (first ++ inserted ++ second) source
      = CreatedTable.ofBody name (first ++ second) source := by
  have hsame := hinserted.readAlike second.toList
  apply ReadAlike.ofBody
  rw [String.append_assoc, String.toList_append, String.toList_append, String.toList_append]
  rcases hfirst with rfl | hfirst
  · exact hsame
  · exact hsame.prepend hfirst

/-- An unsupported statement that holds semicolons and an opening bracket. -/
def geometryStatement : String :=
  "$table->geometry('a; (', /* ; */ 4326)->spatialIndex();"

theorem saysNothing_geometryStatement : SaysNothing geometryStatement.toList := by
  have htext : geometryStatement.toList = geometryStatement.toList.dropLast ++ [';'] := by decide
  have hread : (chain (withoutComments geometryStatement.toList.dropLast)).map
      (fun calls => decide (IsUnsupported calls)) = .ok true := by
    decide +kernel
  cases hcalls : chain (withoutComments geometryStatement.toList.dropLast) with
  | error e =>
    rw [hcalls] at hread
    exact nomatch hread
  | ok calls =>
    rw [hcalls] at hread
    rw [htext]
    exact .statement (by decide +kernel) hcalls (of_decide_eq_true (Except.ok.inj hread))

/-- The statement and a comment with an opening quote, each before a column. -/
theorem ofBody_insert_geometry :
    EndsStatement booksBody.toList
      ∧ SaysNothing geometryStatement.toList
      ∧ CreatedTable.ofBody "books" (booksBody ++ geometryStatement ++ "$table->date('d');") none
        = CreatedTable.ofBody "books" (booksBody ++ "$table->date('d');") none
      ∧ CreatedTable.ofBody "books" ("" ++ "# it's\n" ++ "$table->date('d');") none
        = CreatedTable.ofBody "books" ("" ++ "$table->date('d');") none := by
  have hcomment : SaysNothing "# it's\n".toList :=
    .comment (.line (.inr rfl) (show '\n' ∉ " it's".toList by decide))
  exact ⟨endsStatement_booksBody, saysNothing_geometryStatement,
    ofBody_insert (.inr endsStatement_booksBody) saysNothing_geometryStatement _ _ _,
    ofBody_insert (.inl rfl) hcomment _ _ _⟩

end Crowsfoot.Migration
