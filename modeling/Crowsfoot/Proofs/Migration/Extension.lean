import Crowsfoot.Proofs.Builder.Concatenation
import Crowsfoot.Proofs.Migration.Reading

/-!
# Later statements only extend a table

Whatever follows a body that ends with a statement, the table that the body creates is still there
(`extends_of_ofBody_append`): its columns in their places, its keys and its unique sets before any
others. A column may become primary, indexed or required by a later statement, and may get a key
that it did not have (`Column.Gains`); nothing else of it changes.

* `extends_state`: a clause only extends a table, and so do any number of them
  (`extends_stateAll`).
* `Extends.attachKeys`: handing out the keys in the end does not undo this. A column has the key of
  the first fact on its name, and later facts are not the first.
-/

namespace Crowsfoot

open Crowsfoot.Builder Crowsfoot.Migration Crowsfoot.Text

/-! ## Columns -/

/-- A column without what later statements can change. -/
def Column.core (c : Column) : Column :=
  { c with primary := false, index := false, nullable := false, foreignKey := none }

/-- A column is as it was, but it may have become primary, indexed or required, and may have got a
key if it had none. -/
structure Column.Gains (c d : Column) : Prop where
  core : d.core = c.core
  primary : c.primary = true → d.primary = true
  index : c.index = true → d.index = true
  required : c.nullable = false → d.nullable = false
  key : ∀ key, c.foreignKey = some key → d.foreignKey = some key

namespace Column.Gains

variable {c d e : Column}

theorem refl (c : Column) : c.Gains c :=
  ⟨rfl, id, id, id, fun _ => id⟩

theorem trans (h : c.Gains d) (h' : d.Gains e) : c.Gains e :=
  ⟨h'.core.trans h.core, h'.primary ∘ h.primary, h'.index ∘ h.index, h'.required ∘ h.required,
    fun key hkey => h'.key key (h.key key hkey)⟩

theorem name (h : c.Gains d) : d.name = c.name := by
  have hname : d.core.name = c.core.name := by rw [h.core]
  exact hname

/-- Columns that are as they were, one by one, have the names that they had. -/
theorem map_name {cs ds : List Column} (h : List.Forall₂ Column.Gains cs ds) :
    ds.map Column.name = cs.map Column.name := by
  induction h with
  | nil => rfl
  | cons hcd _ ih => rw [List.map_cons, List.map_cons, hcd.name, ih]

end Column.Gains

namespace Migration

/-! ## Tables -/

/-- A table has all that another has: the columns in their places, with more columns behind them,
and the same keys and unique sets before any others. -/
structure CreatedTable.Extends (t u : CreatedTable) : Prop where
  name : u.name = t.name
  source : u.source = t.source
  columns : ∃ kept added, u.columns = kept ++ added ∧ List.Forall₂ Column.Gains t.columns kept
  keys : t.keys <+: u.keys
  uniqueSets : t.uniqueSets <+: u.uniqueSets

namespace CreatedTable.Extends

variable {t u v : CreatedTable}

theorem of_columns (name : u.name = t.name) (source : u.source = t.source)
    (columns : List.Forall₂ Column.Gains t.columns u.columns) (keys : t.keys <+: u.keys)
    (uniqueSets : t.uniqueSets <+: u.uniqueSets) : t.Extends u :=
  ⟨name, source, ⟨u.columns, [], (List.append_nil _).symm, columns⟩, keys, uniqueSets⟩

theorem refl (t : CreatedTable) : t.Extends t :=
  of_columns rfl rfl (List.forall₂_same.mpr fun c _ => .refl c) List.prefix_rfl List.prefix_rfl

theorem trans (h : t.Extends u) (h' : u.Extends v) : t.Extends v :=
  ⟨h'.name.trans h.name, h'.source.trans h.source,
    exists_forall₂_trans (R := Column.Gains) (fun _ _ _ => .trans) h.columns h'.columns,
    h.keys.trans h'.keys, h.uniqueSets.trans h'.uniqueSets⟩

/-- The names of the columns stand before any others. -/
theorem names (h : t.Extends u) : t.columns.map Column.name <+: u.columns.map Column.name := by
  obtain ⟨kept, added, hu, hkept⟩ := h.columns
  rw [hu, List.map_append, Column.Gains.map_name hkept]
  exact List.prefix_append _ _

end CreatedTable.Extends

/-! ## Stating clauses -/

/-- **A clause only extends a table.** -/
theorem extends_state (t : CreatedTable) (clause : Clause) : t.Extends (t.state clause) := by
  cases clause with
  | declare c =>
    rw [state_declare]
    rcases addMissing_cases t.columns c with he | ⟨-, he⟩
    · rw [he]
      exact .refl t
    · rw [he]
      exact ⟨rfl, rfl, ⟨t.columns, [c], rfl, List.forall₂_same.mpr fun c _ => .refl c⟩,
        List.prefix_rfl, List.prefix_rfl⟩
  | refer fact =>
    exact .of_columns rfl rfl (List.forall₂_same.mpr fun c _ => .refl c)
      (List.prefix_append t.keys [fact]) List.prefix_rfl
  | uniqueSet names =>
    exact .of_columns rfl rfl (List.forall₂_same.mpr fun c _ => .refl c) List.prefix_rfl
      (List.prefix_append t.uniqueSets [names])
  | primary name =>
    have hgains : ∀ c : Column, c.Gains { c with primary := true, nullable := false } :=
      fun _ => ⟨rfl, fun _ => rfl, id, fun _ => rfl, fun _ => id⟩
    exact .of_columns rfl rfl (forall₂_modifyColumn .refl hgains t.columns) List.prefix_rfl
      List.prefix_rfl
  | indexed name =>
    have hgains : ∀ c : Column, c.Gains { c with index := true } :=
      fun _ => ⟨rfl, id, fun _ => rfl, id, fun _ => id⟩
    exact .of_columns rfl rfl (forall₂_modifyColumn .refl hgains t.columns) List.prefix_rfl
      List.prefix_rfl
  | unsupported method => exact .refl t

theorem extends_stateAll (t : CreatedTable) (clauses : List Clause) :
    t.Extends (t.stateAll clauses) := by
  unfold CreatedTable.stateAll
  induction clauses generalizing t with
  | nil => exact .refl t
  | cons clause clauses ih => exact (extends_state t clause).trans (ih (t.state clause))

/-! ## Handing out the keys -/

/-- A column that has a key from some facts has the same from more of them. -/
theorem gains_withFact {facts more : List KeyFact} (hfacts : facts <+: more) {c d : Column}
    (hnone : c.foreignKey = none) (h : c.Gains d) : (withFact facts c).Gains (withFact more d) := by
  rw [withFact_eq, withFact_eq, hnone, Option.or_none]
  refine ⟨h.core, h.primary, h.index, h.required, ?_⟩
  intro key hkey
  obtain ⟨fact, hfact, rfl⟩ := Option.map_eq_some_iff.mp hkey
  obtain ⟨later, rfl⟩ := hfacts
  rw [h.name, List.find?_append, hfact]
  rfl

/-- **Handing out the keys** of an extended table extends what it is for the table. -/
theorem Extends.attachKeys {t u : CreatedTable} (ht : Underway t) (hu : Underway u)
    (h : t.Extends u) : t.attachKeys.Extends u.attachKeys := by
  refine ⟨h.name, h.source, ?_, h.keys, h.uniqueSets⟩
  obtain ⟨kept, added, hcolumns, hkept⟩ := h.columns
  refine ⟨kept.map (withFact u.keys), added.map (withFact u.keys), ?_, ?_⟩
  · rw [hu.columns_attachKeys, hcolumns, List.map_append]
  · rw [ht.columns_attachKeys, List.forall₂_map_left_iff, List.forall₂_map_right_iff]
    refine ((List.forall₂_and_left _ _).mpr ⟨ht.plain, hkept⟩).imp ?_
    exact fun c d hcd => gains_withFact h.keys hcd.1 hcd.2

/-! ## Bodies -/

theorem clausesOf_concat (xs ys : List (Except ReadError (List Call))) :
    CreatedTable.clausesOf (xs ++ ys) = do
      let before ← CreatedTable.clausesOf xs
      let after ← CreatedTable.clausesOf ys
      return before ++ after := by
  unfold CreatedTable.clausesOf
  rw [List.mapM_append]
  cases xs.mapM id with
  | error e => rfl
  | ok before =>
    cases ys.mapM id with
    | error e => rfl
    | ok after => exact congrArg Except.ok List.flatMap_append

/-- A body that ends with a statement states its clauses, and then what follows states its own. -/
theorem clausesOf_append_eq {first : List Char} (hfirst : EndsStatement first)
    (second : List Char) :
    CreatedTable.clausesOf (CreatedTable.chains (first ++ second)) = do
      let before ← CreatedTable.clausesOf (CreatedTable.chains first)
      let after ← CreatedTable.clausesOf (CreatedTable.chains second)
      return before ++ after := by
  obtain ⟨pieces, hpieces, hmore⟩ := splitAt_append hfirst
  have hclosed : CreatedTable.clausesOf ((pieces ++ [[]]).map chain)
      = CreatedTable.clausesOf (pieces.map chain) := by
    rw [List.map_append, clausesOf_concat]
    cases CreatedTable.clausesOf (pieces.map chain) with
    | error e => rfl
    | ok before => exact congrArg Except.ok (List.append_nil before)
  unfold CreatedTable.chains
  rw [hmore, hpieces, hclosed, List.map_append, clausesOf_concat]

/-- The clauses of a body that ends with a statement come before those of what follows. -/
theorem clausesOf_append {first second : List Char} (hfirst : EndsStatement first)
    {clauses : List Clause}
    (h : CreatedTable.clausesOf (CreatedTable.chains (first ++ second)) = .ok clauses) :
    ∃ before after, CreatedTable.clausesOf (CreatedTable.chains first) = .ok before
      ∧ CreatedTable.clausesOf (CreatedTable.chains second) = .ok after
      ∧ clauses = before ++ after := by
  rw [clausesOf_append_eq hfirst] at h
  obtain ⟨before, hbefore, h⟩ := bind_eq_ok.mp h
  obtain ⟨after, hafter, h⟩ := bind_eq_ok.mp h
  exact ⟨before, after, hbefore, hafter, (Except.ok.inj h).symm⟩

/-- **Later statements only extend a table.** If a body ends with a statement, then it can be read
whenever it can be read with more behind it, and the table that it creates has the first columns,
the first keys and the first unique sets of the larger one. -/
theorem extends_of_ofBody_append {name first second : String} {source : Option String}
    {u : CreatedTable} (hfirst : EndsStatement first.toList)
    (h : CreatedTable.ofBody name (first ++ second) source = .ok u) :
    ∃ t, CreatedTable.ofBody name first source = .ok t
      ∧ t.columns.map Column.name <+: u.columns.map Column.name ∧ t.Extends u := by
  obtain ⟨clauses, hclauses, rfl⟩ := ofBody_eq_ok.mp h
  rw [String.toList_append] at hclauses
  obtain ⟨before, after, hbefore, -, rfl⟩ := clausesOf_append hfirst hclauses
  have hextends := extends_stateAll (CreatedTable.stateAll { name, source } before) after
  rw [← stateAll_append] at hextends
  have hattached := Extends.attachKeys (underway_of_clausesOf hbefore)
    (underway_of_clausesOf hclauses) hextends
  exact ⟨_, ofBody_eq_ok.mpr ⟨before, hbefore, rfl⟩, hattached.names, hattached⟩

/-- A body with semicolons in a literal and in a comment. -/
def booksBody : String :=
  "$table->text('a;'); /*;*/ $table->foreign('user')->on('users');"

theorem endsStatement_booksBody : EndsStatement booksBody.toList := by
  refine ⟨⟨booksBody.toList.dropLast, ?_, ?_⟩, ?_⟩ <;> decide +kernel

/-- The table that `booksBody` creates. -/
def createdBooks : CreatedTable :=
  { name := "books"
    columns := [{ name := "a;", type := .text, nullable := false }]
    keys := [{ column := "user", on := "users" }] }

/-- What follows makes the column primary and declares the one that the key was waiting for. -/
theorem extends_of_ofBody_append_books :
    EndsStatement booksBody.toList
      ∧ CreatedTable.ofBody "books" booksBody none = .ok createdBooks
      ∧ ∃ u, CreatedTable.ofBody "books"
          (booksBody ++ "$table->foreignId('user'); $table->primary('a;');") none = .ok u
        ∧ u.columns.map Column.name = ["a;", "user"] ∧ createdBooks.Extends u := by
  have hfirst := endsStatement_booksBody
  have ht : CreatedTable.ofBody "books" booksBody none = .ok createdBooks := by decide +kernel
  have hu : CreatedTable.ofBody "books"
      (booksBody ++ "$table->foreignId('user'); $table->primary('a;');") none
        = .ok { createdBooks with
            columns :=
              [{ name := "a;", type := .text, nullable := false, primary := true },
                { name := "user", type := .bigint, nullable := false,
                  foreignKey := some { table := "users" } }] } := by
    decide +kernel
  obtain ⟨t, ht', -, hextends⟩ := extends_of_ofBody_append hfirst hu
  obtain rfl : createdBooks = t := Except.ok.inj (ht.symm.trans ht')
  exact ⟨hfirst, ht, _, hu, rfl, hextends⟩

end Migration

end Crowsfoot
