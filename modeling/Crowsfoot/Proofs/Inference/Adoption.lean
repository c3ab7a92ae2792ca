import Crowsfoot.Proofs.Inference.LineOrder
import Crowsfoot.Proofs.Inference.Parents

/-!
# Adopted pivots beside made-up ones

A pivot that is drawn gets its keys one at a time, from names of models that are inflected again; a
pivot that is made up has them from the start. `adopt_eq_synthesizePivot`: for entities whose models
are named alike by their own names, both ways lead to the same keys. Columns that are drawn stay in
place and get the keys that the made-up pivot has for their names (`keyedLike`); behind them come
its key columns that were not drawn, in its order.

Only key columns are added: a table that is drawn without an `id` stays without one
(`adopt_without_id`).
-/

namespace Crowsfoot.Inference

open Crowsfoot.Naming

/-- The column with the foreign key that another table has in the column of its name, if it has none
of its own. -/
def keyedLike (p : Table) (c : Column) : Column :=
  { c with foreignKey := c.foreignKey.or ((p.column? c.name).bind Column.foreignKey) }

/-! ## The keys of a pivot -/

section Pivot

variable (first second : String) (custom : Option String)

/-- A pivot of two entities is that of the same entities on the other sides. -/
theorem synthesizePivot_comm :
    synthesizePivot first second custom = synthesizePivot second first custom := by
  have hswap : [modelName first, modelName second].Perm [modelName second, modelName first] :=
    List.Perm.swap _ _ []
  refine synthesizePivot_congr ?_ hswap
  unfold pivotName
  rw [Text.sorted_congr hswap]

theorem keyColumns_synthesizePivot :
    (synthesizePivot first second custom).keyColumns
      = (joinedModels first second).map Column.keyTo := by
  unfold Table.keyColumns
  rw [columns_synthesizePivot, List.filter_cons_of_neg (by simp), List.filter_eq_self]
  intro c hc
  obtain ⟨model, -, rfl⟩ := List.mem_map.mp hc
  rfl

/-- The names of its columns tell the keys of a pivot. -/
theorem keyOf_joinedModels (name : String) :
    keyOf (joinedModels first second) name
      = ((synthesizePivot first second custom).column? name).bind Column.foreignKey := by
  cases hkey : keyOf (joinedModels first second) name with
  | some key =>
    obtain ⟨model, hmodel, rfl, rfl⟩ := keyOf_eq_some.mp hkey
    rw [column?_synthesizePivot hmodel]
    rfl
  | none =>
    -- The column of this name, if there is one, is the `id`: others have a key.
    refine (Option.bind_eq_none_iff.mpr fun c hfound => ?_).symm
    obtain ⟨hc, rfl⟩ := Table.column?_eq_some hfound
    rcases mem_columns_synthesizePivot.mp hc with rfl | ⟨model, hmodel, rfl⟩
    · rfl
    · have hsome : keyOf (joinedModels first second) (Column.keyTo model).name
          = some (.toModel model) := keyOf_eq_some.mpr ⟨model, hmodel, rfl, rfl⟩
      rw [hkey] at hsome
      exact absurd hsome (by simp)

theorem completed_joinedModels :
    completed (joinedModels first second) = keyedLike (synthesizePivot first second custom) := by
  funext c
  unfold completed keyedLike
  rw [keyOf_joinedModels first second custom]

end Pivot

/-! ## Adopting -/

variable {first second : String}

/-- Models that are named alike by their own names are inflected to themselves. -/
theorem map_modelName_joinedModels (hfirst : modelName (modelName first) = modelName first)
    (hsecond : modelName (modelName second) = modelName second) :
    (joinedModels first second).map modelName = joinedModels first second := by
  refine (List.map_congr_left fun model hmodel => ?_).trans (List.map_id _)
  rcases mem_joinedModels.mp hmodel with rfl | rfl
  · exact hfirst
  · exact hsecond

theorem columns_adopt {t : Table} (h : (t.columns.map Column.name).Nodup)
    (hfirst : modelName (modelName first) = modelName first)
    (hsecond : modelName (modelName second) = modelName second) (custom : Option String) :
    (t.adopt first second).columns
      = t.columns.map (keyedLike (synthesizePivot first second custom))
        ++ (synthesizePivot first second custom).keyColumns.filter fun c =>
          c.name ∉ t.columns.map Column.name := by
  have hflagged : (({ t with isPivot := true } : Table).columns.map Column.name).Nodup := h
  rw [adopt_eq, columns_ensureKeys hflagged, map_modelName_joinedModels hfirst hsecond,
    completed_joinedModels first second custom, lacking_of_nodup (nodup_joinedModels _ _),
    keyColumns_synthesizePivot, List.filter_map]
  rfl

theorem adopt_of_isPivot {t : Table} (h : t.isPivot = true) (first second : String) :
    t.adopt first second = ensureKeys t (joinedModels first second) := by
  obtain ⟨name, columns, isPivot⟩ := t
  cases h
  rfl

/-- A pivot is adopted once. -/
theorem adopt_adopt {t : Table} (h : (t.columns.map Column.name).Nodup) (first second : String) :
    (t.adopt first second).adopt first second = t.adopt first second := by
  have hflagged : (({ t with isPivot := true } : Table).columns.map Column.name).Nodup := h
  rw [adopt_of_isPivot (isPivot_adopt t first second), adopt_eq]
  exact ensureKeys_ensureKeys hflagged fun _ hparent => hparent

/-- **Adopting a drawn pivot agrees with making it up.** The pivot of two entities does not depend
on their sides. If the models of both are named alike by their own names, a table with columns of
different names that is adopted as their pivot is flagged, its columns stay as they are but for
missing keys, which are those of the made-up pivot, and behind them come the key columns of the
made-up pivot that it lacked, in their order. Adopting it again changes nothing. -/
theorem adopt_eq_synthesizePivot (hfirst : modelName (modelName first) = modelName first)
    (hsecond : modelName (modelName second) = modelName second) {t : Table}
    (h : (t.columns.map Column.name).Nodup) (custom : Option String) :
    synthesizePivot first second custom = synthesizePivot second first custom
      ∧ t.adopt first second
        = { t with
            isPivot := true
            columns :=
              t.columns.map (keyedLike (synthesizePivot first second custom))
                ++ (synthesizePivot first second custom).keyColumns.filter fun c =>
                  c.name ∉ t.columns.map Column.name }
      ∧ (t.adopt first second).adopt first second = t.adopt first second :=
  ⟨synthesizePivot_comm first second custom,
    Table.eq_of_parts (name_adopt t first second) (columns_adopt h hfirst hsecond custom)
      (isPivot_adopt t first second),
    adopt_adopt h first second⟩

/-- The members of a role, drawn with the key to the user and when they joined. -/
def members : Table :=
  { name := "role_user"
    columns :=
      [{ name := "user_id", type := .int, comment := "member" },
        { name := "joined_at", type := .timestamp }] }

theorem modelName_role : modelName "Role" = "role" ∧ modelName "role" = "role" := by
  constructor <;> decide

theorem modelName_user : modelName "User" = "user" ∧ modelName "user" = "user" := by
  constructor <;> decide

theorem sorted_roles : Text.sorted ["role", "user"] = ["role", "user"] :=
  List.mergeSort_of_pairwise (by decide)

theorem joinedModels_roles : joinedModels "Role" "User" = ["role", "user"] :=
  joinedModels_of_sorted modelName_role.1 modelName_user.1 sorted_roles (by decide)

theorem synthesizePivot_roles :
    synthesizePivot "Role" "User" none
      = { name := "role_user"
          columns := [idColumn, Column.keyTo "role", Column.keyTo "user"]
          isPivot := true } := by
  rw [synthesizePivot_of_sorted modelName_role.1 modelName_user.1 sorted_roles (by decide),
    pivotName_of_sorted modelName_role.1 modelName_user.1 sorted_roles]
  rfl

/-- The column that is drawn is completed, the other key comes behind, and there is no `id`. -/
theorem adopt_members :
    members.adopt "Role" "User"
      = { name := "role_user"
          columns :=
            [{ name := "user_id", type := .int, comment := "member",
                foreignKey := some { table := "users" } },
              { name := "joined_at", type := .timestamp },
              .keyTo "role"]
          isPivot := true } := by
  rw [adopt_eq, joinedModels_roles]
  decide

theorem adopt_eq_synthesizePivot_members :
    modelName (modelName "Role") = modelName "Role"
      ∧ modelName (modelName "User") = modelName "User"
      ∧ (members.columns.map Column.name).Nodup
      ∧ synthesizePivot "Role" "User" none = synthesizePivot "User" "Role" none
      ∧ members.adopt "Role" "User"
        = { members with
            isPivot := true
            columns :=
              members.columns.map (keyedLike (synthesizePivot "Role" "User" none))
                ++ (synthesizePivot "Role" "User" none).keyColumns.filter fun c =>
                  c.name ∉ members.columns.map Column.name }
      ∧ (members.adopt "Role" "User").adopt "Role" "User" = members.adopt "Role" "User" :=
  have hrole : modelName (modelName "Role") = modelName "Role" := by
    rw [modelName_role.1, modelName_role.2]
  have huser : modelName (modelName "User") = modelName "User" := by
    rw [modelName_user.1, modelName_user.2]
  have hdistinct : (members.columns.map Column.name).Nodup := by decide
  ⟨hrole, huser, hdistinct, adopt_eq_synthesizePivot hrole huser hdistinct none⟩

/-- Not all columns that the made-up pivot has and the drawn one lacks are added: its `id` is
not. -/
theorem adopt_without_id :
    modelName (modelName "Role") = modelName "Role"
      ∧ modelName (modelName "User") = modelName "User"
      ∧ (members.columns.map Column.name).Nodup
      ∧ (members.adopt "Role" "User").columns
        ≠ members.columns.map (keyedLike (synthesizePivot "Role" "User" none))
          ++ (synthesizePivot "Role" "User" none).columns.filter fun c =>
            c.name ∉ members.columns.map Column.name := by
  refine ⟨by rw [modelName_role.1, modelName_role.2], by rw [modelName_user.1, modelName_user.2],
    by decide, ?_⟩
  rw [adopt_members, synthesizePivot_roles]
  decide

end Crowsfoot.Inference
