import Mathlib.Data.List.Perm.Basic
import Crowsfoot.Proofs.Inference.Accounts

/-!
# Augmenting only adds

Tables are augmented by giving them keys, by making pivots of them, by adding pivots and by
inferring a schema. In `run_augments` any number of these operations, in any order, leaves every
table and every column in place (`Augments`): columns get foreign keys where they had none
(`Column.Grows`), tables get new columns behind the others and the flag of a pivot (`Table.Grows`),
and there are new tables. Column names stay different, and only columns named for a key have one
(`Tidy`).

An operation acts on one table, or on the order or number of tables; inference acts line by line
(`Grown.add`). Being added to is transitive (`Augments.trans`), so a run is what its steps are.
-/

namespace Crowsfoot

/-! ## Growing -/

/-- A column is the same, or has got a foreign key. -/
inductive Column.Grows (c : Column) : Column → Prop
  | same : c.Grows c
  | keyed (h : c.foreignKey = none) (key : ForeignKey) : c.Grows { c with foreignKey := some key }

/-- A table has its name, its columns in their order, and its flag; there may be more columns behind
them, and the table may have become a pivot. -/
structure Table.Grows (t u : Table) : Prop where
  name : u.name = t.name
  pivot : t.isPivot = true → u.isPivot = true
  columns : ∃ kept added, u.columns = kept ++ added ∧ List.Forall₂ Column.Grows t.columns kept

/-- All tables are there, grown, in some order; there may be more tables. -/
def Augments (ts us : List Table) : Prop :=
  ∃ kept added, us.Perm (kept ++ added) ∧ List.Forall₂ Table.Grows ts kept

theorem Column.Grows.trans {c d e : Column} (h : c.Grows d) (h' : d.Grows e) : c.Grows e := by
  cases h with
  | same => exact h'
  | keyed hnone key =>
    cases h' with
    | same => exact .keyed hnone key
    | keyed hsome _ => exact absurd hsome (by simp)

namespace Table.Grows

variable {t u v : Table}

theorem refl (t : Table) : t.Grows t :=
  ⟨rfl, id, t.columns, [], (List.append_nil _).symm, List.forall₂_same.mpr fun _ _ => .same⟩

theorem trans (h : t.Grows u) (h' : u.Grows v) : t.Grows v :=
  ⟨h'.name.trans h.name, h'.pivot ∘ h.pivot,
    exists_forall₂_trans (R := Column.Grows) (fun _ _ _ => .trans) h.columns h'.columns⟩

end Table.Grows

namespace Augments

variable {ts us vs : List Table}

theorem of_forall₂ (h : List.Forall₂ Table.Grows ts us) : Augments ts us :=
  ⟨us, [], by rw [List.append_nil], h⟩

theorem refl (ts : List Table) : Augments ts ts :=
  of_forall₂ (List.forall₂_same.mpr fun t _ => .refl t)

theorem append (h : Augments ts us) (vs : List Table) : Augments ts (us ++ vs) := by
  obtain ⟨kept, added, hperm, hkept⟩ := h
  refine ⟨kept, added ++ vs, ?_, hkept⟩
  rw [← List.append_assoc]
  exact hperm.append_right vs

theorem perm (h : Augments ts us) (hperm : vs.Perm us) : Augments ts vs := by
  obtain ⟨kept, added, hperm', hkept⟩ := h
  exact ⟨kept, added, hperm.trans hperm', hkept⟩

/-- Tables that were added may grow like the others. -/
theorem trans (h : Augments ts us) (h' : Augments us vs) : Augments ts vs := by
  obtain ⟨kept, added, hperm, hkept⟩ := h
  obtain ⟨kept', added', hperm', hkept'⟩ := h'
  obtain ⟨grown, hgrown, hsame⟩ := List.perm_comp_forall₂ hperm.symm hkept'
  obtain ⟨first, second, rfl, hfirst, -⟩ := forall₂_append_left hgrown
  refine ⟨first, second ++ added', ?_,
    forall₂_trans (R := Table.Grows) (fun _ _ _ => .trans) hkept hfirst⟩
  rw [← List.append_assoc]
  exact hperm'.trans (hsame.symm.append_right added')

end Augments

/-! ## Changes of a table -/

/-- A change of a table that only adds, and keeps it tidy. -/
structure Adds (f : Table → Table) : Prop where
  grows : ∀ t : Table, t.Grows (f t)
  tidy : ∀ t : Table, Inference.Tidy t → Inference.Tidy (f t)

namespace Inference

open Crowsfoot.Diagram Crowsfoot.Naming

theorem grows_withKey (c : Column) (key : ForeignKey) : c.Grows (c.withKey key) := by
  unfold Column.withKey
  cases hkey : c.foreignKey with
  | none => exact .keyed hkey key
  | some other => exact .same

theorem grows_ensureKey (t : Table) (parent : String) : t.Grows (t.ensureKey parent) := by
  refine ⟨name_ensureKey t parent, (isPivot_ensureKey t parent).trans, ?_⟩
  rw [columns_ensureKey]
  split
  · exact ⟨_, [], (List.append_nil _).symm,
      forall₂_modifyColumn (fun _ => .same) (grows_withKey · _) t.columns⟩
  · exact ⟨t.columns, _, rfl, List.forall₂_same.mpr fun _ _ => .same⟩

theorem grows_ensureKeys (t : Table) (parents : List String) : t.Grows (ensureKeys t parents) := by
  unfold ensureKeys
  induction parents generalizing t with
  | nil => exact .refl t
  | cons parent parents ih => exact (grows_ensureKey t parent).trans (ih (t.ensureKey parent))

theorem grows_adopt (t : Table) (first second : String) : t.Grows (t.adopt first second) := by
  have hflagged : t.Grows { t with isPivot := true } :=
    ⟨rfl, fun _ => rfl, t.columns, [], (List.append_nil _).symm,
      List.forall₂_same.mpr fun _ _ => .same⟩
  rw [adopt_eq]
  exact hflagged.trans (grows_ensureKeys _ _)

theorem adds_ensureKey (parent : String) : Adds (·.ensureKey parent) :=
  ⟨fun t => grows_ensureKey t parent, fun _ ht => ht.ensureKey parent⟩

theorem adds_adopt (first second : String) : Adds (·.adopt first second) :=
  ⟨fun t => grows_adopt t first second, fun _ ht => ht.adopt first second⟩

/-! ## Changes of one table among others -/

section Change

variable {f : Table → Table} (hf : Adds f)
include hf

theorem forall₂_modify (i : Nat) (ts : List Table) :
    List.Forall₂ Table.Grows ts (ts.modify i f) := by
  induction ts generalizing i with
  | nil => rw [List.modify_nil]; exact .nil
  | cons t ts ih =>
    cases i with
    | zero => exact .cons (hf.grows t) (List.forall₂_same.mpr fun t _ => .refl t)
    | succ i => exact .cons (.refl t) (ih i)

theorem tidy_modify {i : Nat} {ts : List Table} (h : ∀ t ∈ ts, Tidy t) :
    ∀ t ∈ ts.modify i f, Tidy t := by
  intro u hu
  obtain ⟨j, hj⟩ := List.mem_iff_getElem?.mp hu
  rw [List.getElem?_modify] at hj
  obtain ⟨t, ht, rfl⟩ := Option.map_eq_some_iff.mp hj
  split
  · exact hf.tidy t (h t (List.mem_of_getElem? ht))
  · exact h t (List.mem_of_getElem? ht)

end Change

/-! ## Inference -/

/-- What a line of a diagram leaves of the tables before it: all of them, grown; and all are tidy,
those that were made up included. -/
structure Grown (ts : List Table) (a : Augmentation) : Prop where
  tables : List.Forall₂ Table.Grows ts a.tables
  tidy : ∀ t ∈ a.tables, Tidy t
  made : ∀ t ∈ a.pivots, Tidy t

namespace Grown

variable {ts : List Table} {a : Augmentation}

/-- **A line only adds.** -/
theorem add (h : Grown ts a) (r : Relationship) : Grown ts (a.add r) := by
  have hgrows := forall₂_add (R := Table.Grows) .refl grows_ensureKey
    (fun t first second _ _ => grows_adopt t first second) a r
  have htidy := forall₂_add (R := fun t u => Tidy t → Tidy u) (fun _ => id)
    (fun _ parent ht => ht.ensureKey parent) (fun _ first second _ _ ht => ht.adopt first second)
    a r
  refine ⟨forall₂_trans (R := Table.Grows) (fun _ _ _ => .trans) h.tables hgrows, ?_, ?_⟩
  · intro u hu
    obtain ⟨i, hi⟩ := List.mem_iff_getElem?.mp hu
    obtain ⟨t, ht, htidy⟩ := exists_getElem?_of_forall₂ htidy.flip hi
    exact htidy (h.tidy t (List.mem_of_getElem? ht))
  · intro p hp
    rcases pivots_add a r hp with hp | ⟨first, second, custom, -, rfl⟩
    · exact h.made p hp
    · exact tidy_synthesizePivot first second custom

theorem addAll (h : Grown ts a) (rs : List Relationship) :
    Grown ts (rs.foldl Augmentation.add a) := by
  induction rs generalizing a with
  | nil => exact h
  | cons r rs ih => exact ih (h.add r)

end Grown

theorem order_perm (ts : List Table) : (Table.order ts).Perm ts := by
  unfold Table.order
  have hparts := List.filter_append_perm (fun t : Table => t.isPivot) ts
  exact List.perm_append_comm.trans (by simpa using hparts)

/-- **Inference only adds** to any tables, whatever the lines are. -/
theorem augments_inferFromDiagram {d : Document} (h : ∀ t ∈ d.tables, Tidy t) :
    (∀ t ∈ (inferFromDiagram d).tables, Tidy t)
      ∧ Augments d.tables (inferFromDiagram d).tables := by
  have hstart : Grown d.tables { tables := d.tables } :=
    ⟨List.forall₂_same.mpr fun t _ => .refl t, h, by simp⟩
  have hend : Grown d.tables (augment d) := hstart.addAll d.relationships
  constructor
  · intro t ht
    rcases List.mem_append.mp (Table.mem_order.mp ht) with ht | ht
    · exact hend.tidy t ht
    · exact hend.made t ht
  · exact ((Augments.of_forall₂ hend.tables).append _).perm (order_perm _)

/-! ## Operations -/

/-- What can be done to augment a schema. -/
inductive Operation where
  /-- The table at a position gets the key to a parent. -/
  | ensureKey (i : Nat) (parent : String)
  /-- The table at a position becomes the pivot of two entities. -/
  | adopt (i : Nat) (first second : String)
  /-- The pivot of two entities is made up. -/
  | addPivot (first second : String) (custom : Option String)
  /-- Tables are put in order. -/
  | order
  /-- The tables and relationships are taken for a diagram. -/
  | infer
  deriving Repr, DecidableEq

/-- The schema after an operation. -/
def Operation.apply (s : Schema) : Operation → Schema
  | ensureKey i parent => { s with tables := s.tables.modify i (·.ensureKey parent) }
  | adopt i first second => { s with tables := s.tables.modify i (·.adopt first second) }
  | addPivot first second custom =>
    { s with tables := s.tables ++ [synthesizePivot first second custom] }
  | order => { s with tables := Table.order s.tables }
  | infer => inferFromDiagram { tables := s.tables, relationships := s.relationships }

/-- The schema after several operations, one after another. -/
def run (s : Schema) (operations : List Operation) : Schema :=
  operations.foldl Operation.apply s

/-- **An operation only adds**, and keeps tables tidy. -/
theorem apply_augments {s : Schema} (h : ∀ t ∈ s.tables, Tidy t) (operation : Operation) :
    (∀ t ∈ (operation.apply s).tables, Tidy t)
      ∧ Augments s.tables (operation.apply s).tables := by
  cases operation with
  | ensureKey i parent =>
    have hadds := adds_ensureKey parent
    exact ⟨tidy_modify hadds h, .of_forall₂ (forall₂_modify hadds i s.tables)⟩
  | adopt i first second =>
    have hadds := adds_adopt first second
    exact ⟨tidy_modify hadds h, .of_forall₂ (forall₂_modify hadds i s.tables)⟩
  | addPivot first second custom =>
    refine ⟨fun t ht => ?_, (Augments.refl s.tables).append _⟩
    rcases List.mem_append.mp ht with ht | ht
    · exact h t ht
    · rw [List.mem_singleton.mp ht]
      exact tidy_synthesizePivot first second custom
  | order =>
    exact ⟨fun t ht => h t (Table.mem_order.mp ht), (Augments.refl s.tables).perm (order_perm _)⟩
  | infer => exact augments_inferFromDiagram h

/-- **Augmenting only ever adds.** If columns of a table have different names and only those named
for a key have one, then this is so after any operations in any order, and all tables and columns
are there as they were, but for foreign keys that were missing and flags of pivots that were not
set. -/
theorem run_augments {s : Schema} (h : ∀ t ∈ s.tables, Tidy t) (operations : List Operation) :
    (∀ t ∈ (run s operations).tables, Tidy t)
      ∧ Augments s.tables (run s operations).tables := by
  unfold run
  induction operations generalizing s with
  | nil => exact ⟨h, .refl s.tables⟩
  | cons operation operations ih =>
    obtain ⟨htidy, haugments⟩ := apply_augments h operation
    obtain ⟨htidy', haugments'⟩ := ih htidy
    exact ⟨htidy', haugments.trans haugments'⟩

/-- A schema with a table that is drawn under the name of a pivot, before others. -/
def sketch : Schema :=
  { tables :=
      [{ name := "role_user", columns := [{ name := "user_id" }, { name := "note" }] },
       { name := "User" }, { name := "Role", columns := [{ name := "lead_id" }] }]
    relationships := [.manyToMany "User" "Role" none, .oneToMany "User" "Lead"] }

/-- Operations of all kinds, among them a pivot that is made of a domain table. -/
def sketching : List Operation :=
  [.infer, .ensureKey 1 "Lead", .addPivot "User" "Lead" (some "mentor"), .order,
    .adopt 0 "Role" "User", .infer]

theorem run_augments_sketch :
    (∀ t ∈ sketch.tables, Tidy t)
      ∧ (∀ t ∈ (run sketch sketching).tables, Tidy t)
      ∧ Augments sketch.tables (run sketch sketching).tables := by
  have htidy : ∀ t ∈ sketch.tables, Tidy t := by
    have hdistinct : ∀ t ∈ sketch.tables, (t.columns.map Column.name).Nodup := by decide
    have hkeys : ∀ t ∈ sketch.tables, ∀ c ∈ t.columns, c.foreignKey ≠ none →
        c.hasKeyName = true := by decide
    exact fun t ht => ⟨hdistinct t ht, hkeys t ht⟩
  exact ⟨htidy, run_augments htidy sketching⟩

end Inference

end Crowsfoot
