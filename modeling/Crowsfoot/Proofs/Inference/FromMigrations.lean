import Crowsfoot.Inference.FromMigrations
import Crowsfoot.Migration.Writer
import Crowsfoot.Proofs.Schema.Tables

/-!
# Schemas from migrations have their pivots

* `mem_tables`: the tables of the schema are those that were created, pivots last.
* `hasPivotShape_eq`: whether columns have the shape of a pivot is a matter of how many of their
  names are key names, and how many are neither that nor names of system columns.
* `unpivoted?_inferFromMigrations`: every many-to-many relationship has its pivot in the schema, so
  that writing does not fail for want of one.
-/

namespace Crowsfoot

/-! ## The shape of pivots -/

/-- Whether a name is that of an own column other than a key. -/
def isOtherName (system : List String) (name : String) : Bool :=
  !(Naming.isKeyName name || system.contains name)

theorem hasPivotShape_eq (columns : List Column) (system : List String) :
    hasPivotShape columns system
      = (columns.countP (Naming.isKeyName ∘ Column.name) == 2
        && columns.countP (isOtherName system ∘ Column.name) == 0) := by
  have hall : columns.all (fun c => c.hasKeyName || system.contains c.name)
      = (columns.countP (isOtherName system ∘ Column.name) == 0) := by
    rw [Bool.eq_iff_iff, List.all_eq_true, beq_iff_eq, List.countP_eq_zero]
    simp only [Function.comp_apply, isOtherName, Bool.not_eq_true', Bool.not_eq_false,
      Column.hasKeyName]
  unfold hasPivotShape
  rw [hall]
  rfl

theorem isPivotName_ne_empty {name : String} (h : Naming.isPivotName name = true) : name ≠ "" := by
  rintro rfl
  exact absurd h (by decide)

namespace Inference

open Crowsfoot.Migration (CreatedTable unpivoted?)

variable {o : Options} {created : List CreatedTable}

theorem tableOf_pivot {t : CreatedTable} (h : isPivot o t = true) :
    tableOf o t = { name := t.name, columns := t.columns.map conventionalKey, isPivot := true } := by
  unfold tableOf
  rw [if_pos h]

theorem tableOf_domain {t : CreatedTable} (h : isPivot o t = false) :
    tableOf o t = { name := t.entityName, columns := t.columns } := by
  unfold tableOf
  rw [h, if_neg Bool.false_ne_true]

theorem storageName_of_pivot {name : String} {columns : List Column} :
    Table.storageName { name, columns, isPivot := true } = name :=
  rfl

theorem storageName_of_domain {name : String} {columns : List Column} :
    Table.storageName { name, columns } = Naming.tableName name := by
  unfold Table.storageName
  rw [if_neg Bool.false_ne_true]

theorem isPivot_tableOf (o : Options) (t : CreatedTable) : (tableOf o t).isPivot = isPivot o t := by
  unfold tableOf
  cases isPivot o t <;> rfl

theorem mem_tables {t : Table} :
    t ∈ (inferFromMigrations o created).tables ↔ ∃ p ∈ created, tableOf o p = t := by
  unfold inferFromMigrations
  rw [Table.mem_order, List.mem_map]

theorem conventionalKey_name (c : Column) : (conventionalKey c).name = c.name := by
  unfold conventionalKey Column.withKey
  split
  · split <;> rfl
  · rfl

/-- The columns keep their names. -/
theorem map_name_tableOf (o : Options) (t : CreatedTable) :
    (tableOf o t).columns.map Column.name = t.columns.map Column.name := by
  unfold tableOf
  split
  · rw [List.map_map]
    exact List.map_congr_left fun c _ => conventionalKey_name c
  · rfl

/-- The pivot of a many-to-many relationship is the table that the relationship comes from. -/
theorem eq_of_mem_relationshipsOf {known : List String} {p : CreatedTable} {first second : String}
    {pivot : Option String} (h : .manyToMany first second pivot ∈ relationshipsOf o known p) :
    isPivot o p = true ∧ pivot = some p.name := by
  unfold relationshipsOf at h
  split at h
  · exact absurd h (by simp)
  · dsimp only at h
    cases hp : isPivot o p with
    | true =>
      rw [hp, if_pos rfl] at h
      unfold pivotRelationship at h
      split at h
      · split at h
        · exact ⟨rfl, (Relationship.manyToMany.inj (List.mem_singleton.mp h)).2.2⟩
        · exact absurd h (by simp)
      · exact absurd h (by simp)
    | false =>
      rw [hp, if_neg Bool.false_ne_true] at h
      obtain ⟨r, -, hr⟩ := List.mem_map.mp h
      unfold classify at hr
      split at hr <;> exact absurd hr (by simp)

/-- **Every many-to-many relationship has its pivot** in the schema of migrations. -/
theorem unpivoted?_inferFromMigrations (o : Options) (created : List CreatedTable) :
    unpivoted? (inferFromMigrations o created) = none := by
  unfold unpivoted?
  rw [List.findSome?_eq_none_iff]
  intro r hr
  obtain ⟨p, hp, hr⟩ := List.mem_flatMap.mp hr
  cases r with
  | oneToOne parent child => rfl
  | oneToMany parent child => rfl
  | manyToMany first second pivot =>
    obtain ⟨hpivot, rfl⟩ := eq_of_mem_relationshipsOf hr
    have hname : p.name ≠ "" := by
      unfold isPivot isPivotTable at hpivot
      rw [Bool.and_eq_true] at hpivot
      exact isPivotName_ne_empty hpivot.1
    have hstored : (tableOf o p).storageName = p.name := by
      rw [tableOf_pivot hpivot, storageName_of_pivot]
    have hfound : ((inferFromMigrations o created).pivotOf? (some p.name)).isSome = true := by
      have hempty : p.name.isEmpty = false := by simpa using hname
      unfold Schema.pivotOf? Schema.pivot?
      simp only [hempty, Bool.false_eq_true, if_false]
      rw [List.find?_isSome]
      refine ⟨tableOf o p, mem_tables.mpr ⟨p, hp, rfl⟩, ?_⟩
      rw [isPivot_tableOf, hpivot, hstored]
      simp
    have hsome := Option.isNone_eq_false_iff.mpr hfound
    simp only [hsome, Bool.false_eq_true, if_false]

end Inference

end Crowsfoot
