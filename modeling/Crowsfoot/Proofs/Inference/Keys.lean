import Crowsfoot.Inference.Pivot
import Crowsfoot.Proofs.Diagram.Decoding
import Crowsfoot.Proofs.Schema.Tables

/-!
# Foreign keys on drawn columns

What the keys to a list of parents make of a table with columns of different names
(`columns_ensureKeys`): each column stays in place, with the key its name tells if it had none
(`completed`), and behind them comes one column for each model that had none (`lacking`). The
induction is on the parents; the first one completes a column or adds one, and the others find the
table with it.

A diagram does not show foreign keys; they are put on the columns again when it is read.
`ensureKeys_drawn`: whatever keys a drawn table has been given, its drawing given the same keys, in
any order and any number of times, is the table again.

`Keyed models columns` says that the columns show no more than a diagram does, apart from foreign
keys, and that these are the keys to the models (`keyOf`). Ensuring a key adds its model
(`Keyed.ensureKey`), and columns are known by their drawing and the models (`Keyed.ext`).
-/

namespace Crowsfoot.Inference

open Crowsfoot.Diagram Crowsfoot.Naming

/-! ## Keys to models -/

/-- The foreign key that a column of this name has, if it is that of one of the models. -/
def keyOf (models : List String) (name : String) : Option ForeignKey :=
  (models.find? fun model => model ++ keySuffix == name).map .toModel

theorem keyOf_cons (model : String) (models : List String) (name : String) :
    keyOf (model :: models) name
      = if model ++ keySuffix = name then some (.toModel model) else keyOf models name := by
  unfold keyOf
  rw [List.find?_cons]
  by_cases hname : model ++ keySuffix = name
  · rw [beq_iff_eq.mpr hname, if_pos hname]
    rfl
  · rw [beq_eq_false_iff_ne.mpr hname, if_neg hname]

theorem keyOf_concat (models : List String) (model name : String) :
    keyOf (models ++ [model]) name
      = (keyOf models name).or
          (if model ++ keySuffix = name then some (.toModel model) else none) := by
  unfold keyOf
  rw [List.find?_append, Option.map_or]
  by_cases hname : model ++ keySuffix = name <;> simp [hname]

theorem keyName_inj {model other : String} (h : model ++ keySuffix = other ++ keySuffix) :
    model = other := by
  have hlist := congrArg String.toList h
  rw [String.toList_append, String.toList_append] at hlist
  exact String.toList_inj.mp (List.append_cancel_right hlist)

theorem keyOf_eq_some {models : List String} {name : String} {key : ForeignKey} :
    keyOf models name = some key
      ↔ ∃ model ∈ models, model ++ keySuffix = name ∧ ForeignKey.toModel model = key := by
  unfold keyOf
  rw [Option.map_eq_some_iff]
  constructor
  · rintro ⟨model, hfind, rfl⟩
    exact ⟨model, List.mem_of_find?_eq_some hfind, by simpa using List.find?_some hfind, rfl⟩
  · rintro ⟨model, hmem, rfl, rfl⟩
    cases hfind : models.find? fun other => other ++ keySuffix == model ++ keySuffix with
    | none => exact absurd (List.find?_eq_none.mp hfind model hmem) (by simp)
    | some other =>
      have hsame : other ++ keySuffix = model ++ keySuffix := by simpa using List.find?_some hfind
      rw [keyName_inj hsame]
      exact ⟨model, rfl, rfl⟩

/-- Which keys there are does not depend on the order of the models. -/
theorem keyOf_congr {models others : List String} (h : ∀ model, model ∈ models ↔ model ∈ others) :
    keyOf models = keyOf others := by
  funext name
  apply Option.ext
  intro key
  rw [keyOf_eq_some, keyOf_eq_some]
  constructor
  · rintro ⟨model, hmem, hname⟩
    exact ⟨model, (h model).mp hmem, hname⟩
  · rintro ⟨model, hmem, hname⟩
    exact ⟨model, (h model).mpr hmem, hname⟩

/-! ## Keyed columns -/

/-- A drawn column with the key its name tells. -/
def withKeyOf (models : List String) (c : Column) : Column :=
  { c with foreignKey := keyOf models c.name }

/-- Columns as they are drawn, with the keys to the models. -/
structure Keyed (models : List String) (columns : List Column) : Prop where
  distinct : (columns.map Column.name).Nodup
  keys : ∀ c ∈ columns, withKeyOf models (drawn c) = c

variable {models : List String} {columns : List Column}

theorem Keyed.map_withKeyOf (h : Keyed models columns) :
    (columns.map drawn).map (withKeyOf models) = columns := by
  rw [List.map_map]
  exact (List.map_congr_left fun c hc => h.keys c hc).trans (List.map_id columns)

/-- Keyed columns are known by their drawing. -/
theorem Keyed.ext {others : List Column} (h : Keyed models columns) (ho : Keyed models others)
    (heq : columns.map drawn = others.map drawn) : columns = others := by
  rw [← h.map_withKeyOf, ← ho.map_withKeyOf, heq]

theorem withKey_eq (c : Column) (key : ForeignKey) :
    c.withKey key = { c with foreignKey := c.foreignKey.or (some key) } := by
  unfold Column.withKey
  cases hk : c.foreignKey with
  | none => rfl
  | some other =>
    rw [if_neg (by simp)]
    show c = { c with foreignKey := some other }
    rw [← hk]

theorem drawn_withKey (c : Column) (key : ForeignKey) : drawn (c.withKey key) = drawn c := by
  rw [withKey_eq]
  rfl

theorem name_withKey (c : Column) (key : ForeignKey) : (c.withKey key).name = c.name := by
  rw [withKey_eq]

/-- The columns with the key to one more model: on the column of its name, or on a new one. -/
theorem columns_ensureKey (t : Table) (parent : String) :
    (t.ensureKey parent).columns
      = if modelName parent ++ keySuffix ∈ t.columns.map Column.name then
          modifyColumn (modelName parent ++ keySuffix) (·.withKey (.toModel (modelName parent)))
            t.columns
        else t.columns ++ [Column.keyTo (modelName parent)] := by
  have hiff : (t.column? (Column.keyTo (modelName parent)).name).isSome = true
      ↔ modelName parent ++ keySuffix ∈ t.columns.map Column.name := by
    unfold Table.column? findColumn?
    rw [List.find?_isSome, List.mem_map]
    simp only [Column.keyTo, beq_iff_eq]
  unfold Table.ensureKey
  by_cases hmem : modelName parent ++ keySuffix ∈ t.columns.map Column.name
  · rw [if_pos hmem, if_pos (hiff.mpr hmem)]
    rfl
  · rw [if_neg hmem, if_neg (mt hiff.mp hmem)]

theorem name_ensureKey (t : Table) (parent : String) : (t.ensureKey parent).name = t.name := by
  unfold Table.ensureKey
  dsimp only
  split <;> rfl

theorem isPivot_ensureKey (t : Table) (parent : String) :
    (t.ensureKey parent).isPivot = t.isPivot := by
  unfold Table.ensureKey
  dsimp only
  split <;> rfl

theorem map_name_drawn (columns : List Column) :
    (columns.map drawn).map Column.name = columns.map Column.name := by
  rw [List.map_map]
  rfl

/-- A diagram shows an ensured key only where there is no column of its name. -/
theorem map_drawn_ensureKey (t : Table) (parent : String) :
    (t.ensureKey parent).columns.map drawn
      = if foreignKeyName parent ∈ t.columns.map Column.name then t.columns.map drawn
        else t.columns.map drawn ++ [drawn (Column.keyTo (modelName parent))] := by
  rw [columns_ensureKey]
  unfold foreignKeyName
  split
  · generalize t.columns = columns
    induction columns with
    | nil => rfl
    | cons c columns ih =>
      unfold modifyColumn
      split
      · rw [List.map_cons, List.map_cons, drawn_withKey]
      · rw [List.map_cons, List.map_cons, ih]
  · rw [List.map_append]
    rfl

theorem map_name_ensureKey (t : Table) (parent : String) :
    (t.ensureKey parent).columns.map Column.name
      = if foreignKeyName parent ∈ t.columns.map Column.name then t.columns.map Column.name
        else t.columns.map Column.name ++ [foreignKeyName parent] := by
  rw [← map_name_drawn, map_drawn_ensureKey]
  split
  · exact map_name_drawn _
  · rw [List.map_append, map_name_drawn]
    rfl

theorem nodup_ensureKey {t : Table} (h : (t.columns.map Column.name).Nodup) (parent : String) :
    ((t.ensureKey parent).columns.map Column.name).Nodup := by
  rw [map_name_ensureKey]
  split
  · exact h
  · rename_i hfresh
    rw [List.nodup_append]
    refine ⟨h, List.nodup_singleton _, ?_⟩
    rintro name hname other hother rfl
    exact hfresh (List.mem_singleton.mp hother ▸ hname)

/-- **Ensuring a key adds its model**, whether or not there is a column for it. -/
theorem Keyed.ensureKey {t : Table} (h : Keyed models t.columns) (parent : String) :
    Keyed (models ++ [modelName parent]) (t.ensureKey parent).columns := by
  have hkeyed : ∀ c ∈ t.columns, withKeyOf (models ++ [modelName parent]) (drawn c)
      = { c with
          foreignKey := c.foreignKey.or (if modelName parent ++ keySuffix = c.name then
            some (.toModel (modelName parent)) else none) } := by
    intro c hc
    have hkey : keyOf models c.name = c.foreignKey := congrArg Column.foreignKey (h.keys c hc)
    have hshown : { drawn c with foreignKey := c.foreignKey } = c := hkey ▸ h.keys c hc
    unfold withKeyOf
    show { drawn c with foreignKey := keyOf (models ++ [modelName parent]) c.name } = _
    rw [keyOf_concat, hkey, ← hshown]
    rfl
  refine ⟨nodup_ensureKey h.distinct parent, fun d hd => ?_⟩
  rw [columns_ensureKey] at hd
  split at hd
  · rw [modifyColumn_eq_map h.distinct] at hd
    obtain ⟨c, hc, rfl⟩ := List.mem_map.mp hd
    by_cases hname : c.name = modelName parent ++ keySuffix
    · rw [if_pos hname, drawn_withKey, hkeyed c hc, if_pos hname.symm, withKey_eq]
    · rw [if_neg hname, hkeyed c hc, if_neg (Ne.symm hname), Option.or_none]
  · rename_i hfresh
    rcases List.mem_append.mp hd with hd | hd
    · have hname : modelName parent ++ keySuffix ≠ d.name :=
        fun heq => hfresh (heq ▸ List.mem_map_of_mem hd)
      rw [hkeyed d hd, if_neg hname, Option.or_none]
    · rw [List.mem_singleton.mp hd]
      have hkey : keyOf (models ++ [modelName parent]) (modelName parent ++ keySuffix)
          = some (.toModel (modelName parent)) :=
        keyOf_eq_some.mpr ⟨modelName parent, by simp, rfl, rfl⟩
      unfold withKeyOf
      show { drawn (Column.keyTo (modelName parent)) with
        foreignKey := keyOf (models ++ [modelName parent]) (modelName parent ++ keySuffix) } = _
      rw [hkey]
      rfl

/-! ## Completing a column -/

/-- The column with the key to one of the models, if it is named for it and has no key. -/
def completed (models : List String) (c : Column) : Column :=
  { c with foreignKey := c.foreignKey.or (keyOf models c.name) }

theorem completed_nil (c : Column) : completed [] c = c := by
  unfold completed keyOf
  rw [List.find?_nil, Option.map_none, Option.or_none]

/-- A column is completed for the first model that it is named for. -/
theorem completed_cons (model : String) (models : List String) (c : Column) :
    completed (model :: models) c
      = completed models
          (if c.name = model ++ keySuffix then c.withKey (.toModel model) else c) := by
  unfold completed
  rw [keyOf_cons]
  by_cases hname : c.name = model ++ keySuffix
  · rw [if_pos hname, if_pos hname.symm, withKey_eq]
    dsimp only
    rw [Option.or_assoc, Option.some_or]
  · rw [if_neg hname, if_neg (Ne.symm hname)]

/-- A column that is named for no model stays as it is, and so does one with a key. -/
theorem completed_eq_self {models : List String} {c : Column}
    (h : ∀ model ∈ models, c.name = model ++ keySuffix → c.foreignKey ≠ none) :
    completed models c = c := by
  have hsame : c.foreignKey.or (keyOf models c.name) = c.foreignKey := by
    cases hkey : keyOf models c.name with
    | none => exact Option.or_none
    | some key =>
      obtain ⟨model, hmodel, hname, -⟩ := keyOf_eq_some.mp hkey
      obtain ⟨own, hown⟩ := Option.ne_none_iff_exists'.mp (h model hmodel hname.symm)
      rw [hown, Option.some_or]
  unfold completed
  rw [hsame]

theorem completed_keyTo (models : List String) (model : String) :
    completed models (Column.keyTo model) = Column.keyTo model :=
  completed_eq_self fun _ _ _ => by simp [Column.keyTo]

/-! ## Models without a column -/

/-- The models for which there is no column among those of the given names, each once, as they are
asked for. -/
def lacking (names : List String) : List String → List String
  | [] => []
  | model :: models =>
    if model ++ keySuffix ∈ names then lacking names models
    else model :: lacking (names ++ [model ++ keySuffix]) models

theorem mem_lacking {names models : List String} {model : String} :
    model ∈ lacking names models ↔ model ∈ models ∧ model ++ keySuffix ∉ names := by
  induction models generalizing names with
  | nil => simp [lacking]
  | cons other models ih =>
    unfold lacking
    by_cases hthere : other ++ keySuffix ∈ names
    · rw [if_pos hthere, ih, List.mem_cons]
      constructor
      · exact fun h => ⟨Or.inr h.1, h.2⟩
      · rintro ⟨rfl | hmem, hfresh⟩
        · exact absurd hthere hfresh
        · exact ⟨hmem, hfresh⟩
    · rw [if_neg hthere, List.mem_cons, ih, List.mem_cons, List.mem_append, List.mem_singleton]
      constructor
      · rintro (rfl | ⟨hmem, hfresh⟩)
        · exact ⟨Or.inl rfl, hthere⟩
        · exact ⟨Or.inr hmem, fun h => hfresh (Or.inl h)⟩
      · rintro ⟨rfl | hmem, hfresh⟩
        · exact Or.inl rfl
        · by_cases hsame : model = other
          · exact Or.inl hsame
          · exact Or.inr ⟨hmem, fun h => h.elim hfresh fun heq => hsame (keyName_inj heq)⟩

theorem nodup_lacking (names models : List String) : (lacking names models).Nodup := by
  induction models generalizing names with
  | nil => exact List.nodup_nil
  | cons model models ih =>
    unfold lacking
    split
    · exact ih names
    · refine List.nodup_cons.mpr ⟨fun hmem => ?_, ih _⟩
      exact (mem_lacking.mp hmem).2 (List.mem_append_right _ (List.mem_singleton_self _))

/-! ## All keys of a table -/

/-- The table with the foreign keys to its parents. -/
def ensureKeys (t : Table) (parents : List String) : Table :=
  parents.foldl Table.ensureKey t

theorem name_ensureKeys (t : Table) (parents : List String) :
    (ensureKeys t parents).name = t.name := by
  unfold ensureKeys
  induction parents generalizing t with
  | nil => rfl
  | cons parent parents ih => rw [List.foldl_cons, ih, name_ensureKey]

theorem isPivot_ensureKeys (t : Table) (parents : List String) :
    (ensureKeys t parents).isPivot = t.isPivot := by
  unfold ensureKeys
  induction parents generalizing t with
  | nil => rfl
  | cons parent parents ih => rw [List.foldl_cons, ih, isPivot_ensureKey]

theorem Keyed.ensureKeys {t : Table} (h : Keyed models t.columns) (parents : List String) :
    Keyed (models ++ parents.map modelName) (ensureKeys t parents).columns := by
  unfold Inference.ensureKeys
  induction parents generalizing t models with
  | nil =>
    rw [List.map_nil, List.append_nil]
    exact h
  | cons parent parents ih =>
    have := ih (h.ensureKey parent)
    rwa [List.append_assoc, List.singleton_append, ← List.map_cons] at this

/-- **Keys are added behind the columns**, each of them once, where there is no column of their
name. -/
theorem map_drawn_ensureKeys (t : Table) (parents : List String) :
    ∃ added : List String, (ensureKeys t parents).columns.map drawn
        = t.columns.map drawn ++ added.map (fun model => drawn (Column.keyTo model))
      ∧ added.Nodup
      ∧ ∀ model, model ∈ added
          ↔ model ++ keySuffix ∉ t.columns.map Column.name ∧ model ∈ parents.map modelName := by
  refine ⟨lacking (t.columns.map Column.name) (parents.map modelName), ?_, nodup_lacking _ _,
    fun model => mem_lacking.trans and_comm⟩
  induction parents generalizing t with
  | nil => exact (List.append_nil _).symm
  | cons parent parents ih =>
    have hstep : ensureKeys t (parent :: parents) = ensureKeys (t.ensureKey parent) parents := rfl
    rw [hstep, ih, map_drawn_ensureKey, map_name_ensureKey, List.map_cons, lacking]
    by_cases hthere : foreignKeyName parent ∈ t.columns.map Column.name
    · have hnamed : modelName parent ++ keySuffix ∈ t.columns.map Column.name := hthere
      rw [if_pos hthere, if_pos hthere, if_pos hnamed]
    · have hunnamed : modelName parent ++ keySuffix ∉ t.columns.map Column.name := hthere
      rw [if_neg hthere, if_neg hthere, if_neg hunnamed, List.append_assoc]
      rfl

theorem map_name_ensureKeys (t : Table) (parents : List String) :
    ∃ added, (ensureKeys t parents).columns.map Column.name = t.columns.map Column.name ++ added
      ∧ added.Nodup
      ∧ ∀ key, key ∈ added
          ↔ key ∉ t.columns.map Column.name ∧ key ∈ parents.map foreignKeyName := by
  obtain ⟨added, hdrawn, hnodup, hadded⟩ := map_drawn_ensureKeys t parents
  refine ⟨added.map (· ++ keySuffix), ?_, hnodup.map fun _ _ => keyName_inj, fun key => ?_⟩
  · rw [← map_name_drawn, hdrawn, List.map_append, map_name_drawn, List.map_map]
    rfl
  · constructor
    · intro hkey
      obtain ⟨model, hmodel, rfl⟩ := List.mem_map.mp hkey
      obtain ⟨hfresh, hmem⟩ := (hadded model).mp hmodel
      obtain ⟨parent, hparent, rfl⟩ := List.mem_map.mp hmem
      exact ⟨hfresh, List.mem_map_of_mem hparent⟩
    · rintro ⟨hfresh, hkey⟩
      obtain ⟨parent, hparent, rfl⟩ := List.mem_map.mp hkey
      have hmodel := (hadded (modelName parent)).mpr ⟨hfresh, List.mem_map_of_mem hparent⟩
      exact List.mem_map_of_mem hmodel

theorem keyName_mem_ensureKeys (t : Table) {parents : List String} {parent : String}
    (h : parent ∈ parents) :
    foreignKeyName parent ∈ (ensureKeys t parents).columns.map Column.name := by
  obtain ⟨added, hnames, -, hadded⟩ := map_name_ensureKeys t parents
  rw [hnames, List.mem_append]
  by_cases hthere : foreignKeyName parent ∈ t.columns.map Column.name
  · exact Or.inl hthere
  · exact Or.inr ((hadded _).mpr ⟨hthere, List.mem_map_of_mem h⟩)

/-- Where the columns are there, nothing changes that a diagram shows. -/
theorem drawn_ensureKeys {t : Table} {parents : List String}
    (h : ∀ parent ∈ parents, foreignKeyName parent ∈ t.columns.map Column.name) :
    (ensureKeys t parents).columns.map drawn = t.columns.map drawn := by
  obtain ⟨added, hdrawn, -, hadded⟩ := map_drawn_ensureKeys t parents
  have hnone : added = [] := by
    rw [List.eq_nil_iff_forall_not_mem]
    intro model hmodel
    obtain ⟨hfresh, hmem⟩ := (hadded model).mp hmodel
    obtain ⟨parent, hparent, rfl⟩ := List.mem_map.mp hmem
    exact hfresh (h parent hparent)
  rw [hdrawn, hnone, List.map_nil, List.append_nil]

/-- What holds of the columns and of new keys, and does not depend on keys, holds of all columns. -/
theorem forall_mem_ensureKeys {P : Column → Prop} {t : Table} {parents : List String}
    (h : ∀ c ∈ t.columns, P c) (hkey : ∀ c key, P c → P (c.withKey key))
    (hnew : ∀ parent ∈ parents, P (Column.keyTo (modelName parent))) :
    ∀ c ∈ (ensureKeys t parents).columns, P c := by
  unfold ensureKeys
  induction parents generalizing t with
  | nil => exact h
  | cons parent parents ih =>
    refine ih ?_ fun other hother => hnew other (List.mem_cons_of_mem parent hother)
    rw [columns_ensureKey]
    split
    · exact forall_mem_modifyColumn h fun c hc => hkey c _ hc
    · intro c hc
      rcases List.mem_append.mp hc with hc | hc
      · exact h c hc
      · rw [List.mem_singleton.mp hc]
        exact hnew parent List.mem_cons_self

theorem nodup_ensureKeys {t : Table} (h : (t.columns.map Column.name).Nodup)
    (parents : List String) : ((ensureKeys t parents).columns.map Column.name).Nodup := by
  unfold ensureKeys
  induction parents generalizing t with
  | nil => exact h
  | cons parent parents ih => exact ih (nodup_ensureKey h parent)

/-- **The columns of a table with the keys to any parents.** Columns stay in place, and are
completed where they have no key; behind them come the keys for which there was no column. -/
theorem columns_ensureKeys {t : Table} (h : (t.columns.map Column.name).Nodup)
    (parents : List String) :
    (ensureKeys t parents).columns
      = t.columns.map (completed (parents.map modelName))
        ++ (lacking (t.columns.map Column.name) (parents.map modelName)).map Column.keyTo := by
  induction parents generalizing t with
  | nil =>
    rw [List.map_nil, funext completed_nil, List.map_id']
    exact (List.append_nil _).symm
  | cons parent parents ih =>
    have hstep : ensureKeys t (parent :: parents) = ensureKeys (t.ensureKey parent) parents := rfl
    rw [hstep, ih (nodup_ensureKey h parent), map_name_ensureKey, columns_ensureKey]
    unfold foreignKeyName
    rw [List.map_cons, lacking]
    by_cases hthere : modelName parent ++ keySuffix ∈ t.columns.map Column.name
    · rw [if_pos hthere, if_pos hthere, if_pos hthere, modifyColumn_eq_map h, List.map_map,
        funext (completed_cons (modelName parent) _)]
      rfl
    · -- No column is named for the first parent, so it completes none and comes behind them.
      have hold : t.columns.map (completed (modelName parent :: parents.map modelName))
          = t.columns.map (completed (parents.map modelName)) := by
        refine List.map_congr_left fun c hc => ?_
        rw [completed_cons, if_neg fun hname => hthere (List.mem_map.mpr ⟨c, hc, hname⟩)]
      rw [if_neg hthere, if_neg hthere, if_neg hthere, List.map_append, List.map_singleton,
        completed_keyTo, hold, List.append_assoc, List.singleton_append, List.map_cons]

/-! ## Drawn tables -/

/-- A table as it is drawn: no pivot, and no keys. -/
structure Unkeyed (t : Table) : Prop where
  domain : t.isPivot = false
  columns : Keyed [] t.columns

/-- Columns that are as they are drawn have no keys. -/
theorem unkeyed_of_complete {t : Table} (hdomain : t.isPivot = false)
    (hdistinct : (t.columns.map Column.name).Nodup) (hcomplete : ∀ c ∈ t.columns, drawn c = c) :
    Unkeyed t := by
  refine ⟨hdomain, hdistinct, ?_⟩
  intro c hc
  have hnone : c.foreignKey = none := by
    rw [← hcomplete c hc]
    rfl
  rw [hcomplete c hc]
  unfold withKeyOf keyOf
  rw [List.find?_nil, Option.map_none, ← hnone]

theorem Unkeyed.foreignKey {t : Table} (h : Unkeyed t) {c : Column} (hc : c ∈ t.columns) :
    c.foreignKey = none := by
  rw [← h.columns.keys c hc]
  rfl

/-- **The keys of a drawn table.** The drawn columns stay in place and have the keys that their names
tell; behind them come the keys for which there was no column. -/
theorem Unkeyed.columns_ensureKeys {t : Table} (h : Unkeyed t) (parents : List String) :
    ∃ added : List String, (ensureKeys t parents).columns
        = t.columns.map (withKeyOf (parents.map modelName)) ++ added.map Column.keyTo
      ∧ added.Nodup
      ∧ ∀ model, model ∈ added
          ↔ model ++ keySuffix ∉ t.columns.map Column.name ∧ model ∈ parents.map modelName := by
  refine ⟨lacking (t.columns.map Column.name) (parents.map modelName), ?_, nodup_lacking _ _,
    fun model => mem_lacking.trans and_comm⟩
  have hold : t.columns.map (completed (parents.map modelName))
      = t.columns.map (withKeyOf (parents.map modelName)) := by
    refine List.map_congr_left fun c hc => ?_
    unfold completed withKeyOf
    rw [h.foreignKey hc, Option.none_or]
  rw [Inference.columns_ensureKeys h.columns.distinct, hold]

theorem unkeyed_drawnTable {t : Table} (h : (t.columns.map Column.name).Nodup) :
    Unkeyed (drawnTable t) := by
  refine ⟨rfl, ?_, ?_⟩
  · have hnames : (drawnTable t).columns.map Column.name = t.columns.map Column.name :=
      map_name_drawn t.columns
    rw [hnames]
    exact h
  · intro c hc
    obtain ⟨d, -, rfl⟩ := List.mem_map.mp hc
    rfl

/-- **The drawing of a table, given the keys of the table, is the table.** -/
theorem ensureKeys_drawn {t : Table} (h : Unkeyed t) {parents others : List String}
    (hsame : ∀ parent, parent ∈ parents ↔ parent ∈ others) :
    ensureKeys (drawnTable (ensureKeys t parents)) others = ensureKeys t parents := by
  have hkeyed := h.columns.ensureKeys parents
  rw [List.nil_append] at hkeyed
  have hdrawn := unkeyed_drawnTable hkeyed.distinct
  have hagain := hdrawn.columns.ensureKeys others
  rw [List.nil_append] at hagain
  have hmodels : ∀ model, model ∈ parents.map modelName ↔ model ∈ others.map modelName := by
    intro model
    simp only [List.mem_map, hsame]
  have hshown : (ensureKeys (drawnTable (ensureKeys t parents)) others).columns.map drawn
      = (ensureKeys t parents).columns.map drawn := by
    have hnames : (drawnTable (ensureKeys t parents)).columns.map Column.name
        = (ensureKeys t parents).columns.map Column.name := map_name_drawn _
    rw [drawn_ensureKeys]
    · unfold drawnTable
      rw [List.map_map]
      rfl
    · intro parent hparent
      rw [hnames]
      exact keyName_mem_ensureKeys t ((hsame parent).mpr hparent)
  have hcolumns : (ensureKeys (drawnTable (ensureKeys t parents)) others).columns
      = (ensureKeys t parents).columns := by
    refine Keyed.ext hagain ⟨hkeyed.distinct, ?_⟩ hshown
    unfold withKeyOf
    rw [← keyOf_congr hmodels]
    exact hkeyed.keys
  have hpivot : (ensureKeys (drawnTable (ensureKeys t parents)) others).isPivot
      = (ensureKeys t parents).isPivot := by
    rw [isPivot_ensureKeys, isPivot_ensureKeys, h.domain]
    rfl
  have hname := name_ensureKeys (drawnTable (ensureKeys t parents)) others
  exact Table.eq_of_parts hname hcolumns hpivot

end Crowsfoot.Inference
