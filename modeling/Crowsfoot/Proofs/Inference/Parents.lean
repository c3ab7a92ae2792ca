import Crowsfoot.Proofs.Inference.Keys

/-!
# Keys to any parents

`ensureKeys_of_parents` compares the keys to two lists of the same parents, in any order and with any
repetitions: the tables differ at most in the order of the columns that were added. The columns that
stay are completed from the set of models (`completed_congr`), and the models that had no column are
the same, each once (`lacking_perm`). Keys that are there are not ensured again
(`ensureKeys_ensureKeys`).
-/

namespace Crowsfoot.Inference

open Crowsfoot.Naming

theorem ensureKeys_eq {t : Table} (h : (t.columns.map Column.name).Nodup) (parents : List String) :
    ensureKeys t parents
      = { t with
          columns := t.columns.map (completed (parents.map modelName))
            ++ (lacking (t.columns.map Column.name) (parents.map modelName)).map Column.keyTo } :=
  Table.eq_of_parts (name_ensureKeys t parents) (columns_ensureKeys h parents)
    (isPivot_ensureKeys t parents)

/-- Models that are there once are asked for in their order. -/
theorem lacking_of_nodup {names models : List String} (h : models.Nodup) :
    lacking names models = models.filter fun model => model ++ keySuffix ∉ names := by
  induction models generalizing names with
  | nil => rfl
  | cons model models ih =>
    obtain ⟨hnew, hrest⟩ := List.nodup_cons.mp h
    unfold lacking
    by_cases hthere : model ++ keySuffix ∈ names
    · rw [if_pos hthere, List.filter_cons_of_neg (by simpa using hthere), ih hrest]
    · rw [if_neg hthere, List.filter_cons_of_pos (by simpa using hthere), ih hrest]
      congr 1
      refine List.filter_congr fun other hother => ?_
      have hne : other ++ keySuffix ≠ model ++ keySuffix :=
        fun heq => hnew (keyName_inj heq ▸ hother)
      simp [hne]

theorem completed_congr {models others : List String}
    (h : ∀ model, model ∈ models ↔ model ∈ others) : completed models = completed others := by
  unfold completed
  rw [keyOf_congr h]

/-- Which models have no column does not depend on how often and in which order they are asked
for. -/
theorem lacking_perm {names models others : List String}
    (h : ∀ model, model ∈ models ↔ model ∈ others) :
    (lacking names models).Perm (lacking names others) := by
  rw [List.perm_ext_iff_of_nodup (nodup_lacking names models) (nodup_lacking names others)]
  intro model
  rw [mem_lacking, mem_lacking, h]

/-- The column that is named for a parent has a key. -/
theorem foreignKey_ne_none_of_mem_ensureKeys {t : Table} (h : (t.columns.map Column.name).Nodup)
    {parents : List String} {c : Column} (hc : c ∈ (ensureKeys t parents).columns) {model : String}
    (hmodel : model ∈ parents.map modelName) (hname : c.name = model ++ keySuffix) :
    c.foreignKey ≠ none := by
  rw [columns_ensureKeys h, List.mem_append] at hc
  rcases hc with hc | hc
  · obtain ⟨d, -, rfl⟩ := List.mem_map.mp hc
    have hkey : keyOf (parents.map modelName) d.name = some (.toModel model) :=
      keyOf_eq_some.mpr ⟨model, hmodel, hname.symm, rfl⟩
    unfold completed
    dsimp only
    rw [hkey, ne_eq, Option.or_eq_none_iff]
    simp
  · obtain ⟨other, -, rfl⟩ := List.mem_map.mp hc
    simp [Column.keyTo]

/-- Keys that are there are not ensured again. -/
theorem ensureKeys_ensureKeys {t : Table} (h : (t.columns.map Column.name).Nodup)
    {parents others : List String} (hothers : ∀ parent ∈ others, parent ∈ parents) :
    ensureKeys (ensureKeys t parents) others = ensureKeys t parents := by
  have hmodels : ∀ model ∈ others.map modelName, model ∈ parents.map modelName := by
    intro model hmodel
    obtain ⟨parent, hparent, rfl⟩ := List.mem_map.mp hmodel
    exact List.mem_map_of_mem (hothers parent hparent)
  have hkept : (ensureKeys t parents).columns.map (completed (others.map modelName))
      = (ensureKeys t parents).columns := by
    refine (List.map_congr_left fun c hc => ?_).trans (List.map_id _)
    exact completed_eq_self fun model hmodel =>
      foreignKey_ne_none_of_mem_ensureKeys h hc (hmodels model hmodel)
  have hnone : lacking ((ensureKeys t parents).columns.map Column.name) (others.map modelName)
      = [] := by
    rw [List.eq_nil_iff_forall_not_mem]
    intro model hmodel
    obtain ⟨hmem, hfresh⟩ := mem_lacking.mp hmodel
    obtain ⟨parent, hparent, rfl⟩ := List.mem_map.mp hmem
    exact hfresh (keyName_mem_ensureKeys t (hothers parent hparent))
  rw [ensureKeys_eq (nodup_ensureKeys h parents), hkept, hnone, List.map_nil, List.append_nil]

/-- **Keys to any list of parents.** If the columns of a table have different names, then the keys
to a list of parents leave every column in place, and as it is, but for a missing key of a column
that is named for a parent. Behind them comes one column for each model of a parent that had none.
Any list of the same parents, in whatever order and however often, gives the same but for the order
of these columns, and any of the parents again change nothing. -/
theorem ensureKeys_of_parents {t : Table} (h : (t.columns.map Column.name).Nodup)
    (parents : List String) :
    ∃ added : List String,
      ensureKeys t parents
          = { t with
              columns := t.columns.map (completed (parents.map modelName))
                ++ added.map Column.keyTo }
        ∧ added.Nodup
        ∧ (∀ model, model ∈ added
          ↔ model ∈ parents.map modelName ∧ model ++ keySuffix ∉ t.columns.map Column.name)
        ∧ (∀ others, (∀ parent, parent ∈ parents ↔ parent ∈ others) →
          ∃ added', added.Perm added'
            ∧ ensureKeys t others
              = { t with
                  columns := t.columns.map (completed (parents.map modelName))
                    ++ added'.map Column.keyTo })
        ∧ ∀ others, (∀ parent ∈ others, parent ∈ parents) →
          ensureKeys (ensureKeys t parents) others = ensureKeys t parents := by
  refine ⟨_, ensureKeys_eq h parents, nodup_lacking _ _, fun _ => mem_lacking, ?_,
    fun others => ensureKeys_ensureKeys h⟩
  intro others hsame
  have hmodels : ∀ model, model ∈ parents.map modelName ↔ model ∈ others.map modelName := by
    intro model
    simp only [List.mem_map, hsame]
  refine ⟨_, lacking_perm hmodels, ?_⟩
  rw [ensureKeys_eq h others, completed_congr hmodels]

/-- Comments with a column for a user that has no key, one for a post that has another, and a
note. -/
def comments : Table :=
  { name := "Comment"
    columns :=
      [{ name := "user_id", type := .bigint },
        { name := "post_id", type := .bigint, foreignKey := some { table := "articles" } },
        { name := "note", type := .varchar }] }

/-- Two spellings of the user complete one column, the post's key stays, and one column comes
behind. -/
example :
    ensureKeys comments ["Users", "Post", "Tag", "user"]
      = { comments with
          columns :=
            [{ name := "user_id", type := .bigint, foreignKey := some { table := "users" } },
              { name := "post_id", type := .bigint, foreignKey := some { table := "articles" } },
              { name := "note", type := .varchar },
              .keyTo "tag"] } := by
  decide

theorem ensureKeys_of_parents_comments :
    (comments.columns.map Column.name).Nodup
      ∧ ∃ added : List String,
        ensureKeys comments ["Users", "Post", "Tag", "user"]
            = { comments with
                columns :=
                  comments.columns.map
                      (completed (["Users", "Post", "Tag", "user"].map modelName))
                    ++ added.map Column.keyTo }
          ∧ added.Nodup
          ∧ (∀ model, model ∈ added
            ↔ model ∈ ["Users", "Post", "Tag", "user"].map modelName
              ∧ model ++ keySuffix ∉ comments.columns.map Column.name)
          ∧ (∀ others, (∀ parent, parent ∈ ["Users", "Post", "Tag", "user"] ↔ parent ∈ others) →
            ∃ added', added.Perm added'
              ∧ ensureKeys comments others
                = { comments with
                    columns :=
                      comments.columns.map
                          (completed (["Users", "Post", "Tag", "user"].map modelName))
                        ++ added'.map Column.keyTo })
          ∧ ∀ others, (∀ parent ∈ others, parent ∈ ["Users", "Post", "Tag", "user"]) →
            ensureKeys (ensureKeys comments ["Users", "Post", "Tag", "user"]) others
              = ensureKeys comments ["Users", "Post", "Tag", "user"] :=
  have hdistinct : (comments.columns.map Column.name).Nodup := by decide
  ⟨hdistinct, ensureKeys_of_parents hdistinct _⟩

end Crowsfoot.Inference
