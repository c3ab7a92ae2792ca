import Crowsfoot.Proofs.Inference.Accounts
import Crowsfoot.Proofs.Inference.Written

/-!
# What validation accepts and writing refuses

Validation counts the columns of a pivot that are named like foreign keys; writing counts the
foreign keys. `migrationsOfDiagram_of_valid` says when the two differ for the schema of a diagram: a
pivot is drawn with another column that is named like a key, and all lines that are drawn for it
join an entity with itself (`HalfKeyed`). Lines put a single foreign key on such a table, so that
validation accepts it and writing does not (`refuses_friends`).

All other schemas of diagrams that validation accepts are written, as long as there is time.
-/

namespace Crowsfoot.Inference

open Crowsfoot.Diagram Crowsfoot.Migration Crowsfoot.Naming

/-- A pivot that joins entities of one model with themselves and has a second column that is named
like a foreign key, without being one. -/
structure HalfKeyed (s : Schema) (model : String) (t : Table) : Prop where
  pivot : t.isPivot = true
  keys : keyNames t = [model ++ keySuffix]
  unkeyed : ∃ c ∈ t.columns, c.hasKeyName = true ∧ c.foreignKey = none
  joins : ∃ first second, .manyToMany first second (some t.name) ∈ s.relationships
  reflexive : ∀ first second, .manyToMany first second (some t.name) ∈ s.relationships →
    ∀ name ∈ [first, second], modelName (modelName name) = model

theorem HalfKeyed.isMisshapen {s : Schema} {model : String} {t : Table} (h : HalfKeyed s model t) :
    IsMisshapen t := by
  refine ⟨h.pivot, ?_⟩
  rw [h.keys]
  simp

/-! ## Pivots that are accepted -/

/-- Validation accepts pivots of their shape only. -/
theorem hasPivotShape_of_valid {s : Schema} (hvalid : s.issues = []) {t : Table} (ht : t ∈ s.tables)
    (hpivot : t.isPivot = true) : hasPivotShape t.columns systemColumns = true := by
  by_contra hshape
  have hissue := Table.mem_issues.mpr
    (Or.inr (Or.inr ⟨hpivot, Bool.eq_false_iff.mpr hshape, rfl⟩))
  have hmem := Schema.mem_issues.mpr (Or.inl (mem_tableIssues.mpr (Or.inl ⟨t, ht, hissue⟩)))
  rw [hvalid] at hmem
  exact absurd hmem (by simp)

/-- Pivots that are made up are written if they are accepted. -/
theorem joins_synthesizePivot {first second : String} {custom : Option String}
    (hshape : hasPivotShape (synthesizePivot first second custom).columns systemColumns = true) :
    (synthesizePivot first second custom).Joins := by
  unfold hasPivotShape at hshape
  rw [Bool.and_eq_true, beq_iff_eq, List.all_eq_true] at hshape
  refine ⟨hshape.1, fun c hc hname => foreignKey_synthesizePivot hc hname, fun c hc hname => ?_⟩
  have hsystem := hshape.2 c hc
  rwa [hname, Bool.false_or] at hsystem

/-- Of two things with one that is chosen, either both are or that one alone. -/
theorem filter_pair {α : Type} {p : α → Bool} {x y z : α} (hz : z ∈ [x, y]) (hp : p z = true)
    (hlength : ([x, y].filter p).length ≠ 2) :
    [x, y].filter p = [z] ∧ ∃ w ∈ [x, y], p w = false := by
  rcases List.mem_pair.mp hz with rfl | rfl
  · cases hy : p y with
    | false =>
      refine ⟨?_, y, by simp, hy⟩
      rw [List.filter_cons_of_pos hp, List.filter_singleton, hy]
      rfl
    | true => exact absurd (by rw [List.filter_eq_self.mpr (by simp [hp, hy])]; rfl) hlength
  · cases hx : p x with
    | false =>
      refine ⟨?_, x, by simp, hx⟩
      rw [List.filter_cons_of_neg (by simp [hx]), List.filter_singleton, hp]
      rfl
    | true => exact absurd (by rw [List.filter_eq_self.mpr (by simp [hp, hx])]; rfl) hlength

/-- **A drawn pivot that is accepted and not written** has the key to one model only, and is drawn
with another column that looks like a key. -/
theorem halfKeyed_of_accounted {ts : List Table} {s : Schema} (h : Accounted ts s.relationships)
    {t : Table} (ht : t ∈ ts) (hshape : hasPivotShape t.columns systemColumns = true)
    (hmisshapen : IsMisshapen t) : ∃ model, HalfKeyed s model t := by
  obtain ⟨hpivot, hlength⟩ := hmisshapen
  have hfound := h.first.find? ht hpivot
  obtain ⟨first, second, hr⟩ := h.adopted t ht hpivot
  -- the columns that look like keys
  obtain ⟨x, y, hpair⟩ : ∃ x y, t.columns.filter Column.hasKeyName = [x, y] := by
    unfold hasPivotShape at hshape
    rw [Bool.and_eq_true, beq_iff_eq, List.countP_eq_length_filter] at hshape
    exact List.length_eq_two.mp hshape.1
  have hkeyed : ∀ one other, .manyToMany one other (some t.name) ∈ s.relationships →
      ∀ name ∈ [one, other], ∃ c ∈ [x, y], c.name = modelName (modelName name) ++ keySuffix
        ∧ c.foreignKey.isSome = true := by
    intro one other hmem name hname
    obtain ⟨-, models, hkeyed, hmodels⟩ := h.joined one other t.name hmem t hfound
    obtain ⟨c, hc, heq, hkey⟩ := hkeyed.exists_column (hmodels name hname)
    refine ⟨c, hpair ▸ List.mem_filter.mpr ⟨hc, ?_⟩, heq, by rw [hkey]; rfl⟩
    unfold Column.hasKeyName
    rw [heq]
    exact isKeyName_keyName _
  have hnames : keyNames t = ([x, y].filter fun c => c.foreignKey.isSome).map Column.name := by
    unfold keyNames Table.keyColumns
    rw [← hpair, List.filter_filter, List.filter_filter]
    simp only [Bool.and_comm]
  rw [hnames, List.length_map] at hlength
  obtain ⟨c, hc, hname, hkey⟩ := hkeyed first second hr first (by simp)
  obtain ⟨hone, other, hother, hnone⟩ := filter_pair hc hkey hlength
  refine ⟨modelName (modelName first), hpivot, ?_, ?_, ⟨first, second, hr⟩, ?_⟩
  · rw [hnames, hone, List.map_singleton, hname]
  · rw [← hpair] at hother
    obtain ⟨hmem, hlike⟩ := List.mem_filter.mp hother
    exact ⟨other, hmem, hlike, Option.isSome_eq_false_iff.mp hnone |> Option.isNone_iff_eq_none.mp⟩
  · intro one other hmem name hentity
    obtain ⟨e, he, hename, hekey⟩ := hkeyed one other hmem name hentity
    have hsame : e ∈ [x, y].filter fun c => c.foreignKey.isSome := List.mem_filter.mpr ⟨he, hekey⟩
    rw [hone, List.mem_singleton] at hsame
    rw [hsame, hname] at hename
    exact (keyName_inj hename).symm

/-! ## Schemas that are accepted -/

/-- Where the schema of a diagram is there, its migrations fail as writing it does. -/
theorem writeAll_of_migrationsOfDiagram {o : Options} {startedAt : Timestamp} {text : String}
    {s : Schema} (hs : schemaOfDiagram text = .ok s) {e : ConversionError}
    (h : migrationsOfDiagram o startedAt text = .error e) :
    ∃ w, e = .write w ∧ writeAll o startedAt s = .error w := by
  unfold migrationsOfDiagram at h
  rw [hs] at h
  obtain ⟨w, hw, rfl⟩ := mapError_eq_error.mp h
  exact ⟨w, rfl, hw⟩

/-- **What validation accepts is written**, unless time runs out or a drawn pivot is half keyed:
then writing refuses it for the one key that it has. A many-to-many relationship never lacks its
pivot. -/
theorem migrationsOfDiagram_of_valid {text : String} {s : Schema}
    (hs : schemaOfDiagram text = .ok s) (hvalid : s.issues = []) (o : Options)
    (startedAt : Timestamp) :
    ∃ d, Document.parse text = .ok d
      ∧ (∀ e, migrationsOfDiagram o startedAt text = .error e →
        e = .write .endOfTime
          ∨ ∃ t ∈ s.tables, ∃ model, HalfKeyed s model t ∧ t.name ∈ d.tables.map Table.name
            ∧ e = .write (.pivotShape t.name [model ++ keySuffix]))
      ∧ ∀ t ∈ s.tables, ∀ model, HalfKeyed s model t →
        ∀ files, migrationsOfDiagram o startedAt text ≠ .ok files := by
  have hsound := (sound_schemaOfDiagram hs).1
  obtain ⟨d, hd, rfl⟩ := schemaOfDiagram_eq_ok.mp hs
  have haccounted : Accounted (augment d).tables (inferFromDiagram d).relationships :=
    accounted_augment (parsedDocument hd)
  refine ⟨d, hd, fun e he => ?_, fun t ht model hhalf files hfiles => ?_⟩
  · obtain ⟨w, rfl, hw⟩ := writeAll_of_migrationsOfDiagram hs he
    rcases writeAll_eq_error hsound hw with rfl | ⟨t, ht, hmisshapen, rfl⟩
    · exact Or.inl rfl
    · have hshape := hasPivotShape_of_valid hvalid ht hmisshapen.1
      rcases List.mem_append.mp (Table.mem_order.mp ht) with hdrawn | hmade
      · obtain ⟨model, hhalf⟩ := halfKeyed_of_accounted haccounted hdrawn hshape hmisshapen
        have hstored : t.storageName = t.name := if_pos hmisshapen.1
        refine Or.inr ⟨t, ht, model, hhalf, ?_, by rw [hstored, hhalf.keys]⟩
        rw [← map_name_augment]
        exact List.mem_map_of_mem hdrawn
      · obtain ⟨first, second, custom, -, rfl⟩ := eq_synthesizePivot_of_mem_pivots hmade
        exact absurd hmisshapen (joins_synthesizePivot hshape).not_isMisshapen
  · obtain ⟨s', hs', hwritten⟩ := writeTables_of_migrationsOfDiagram hfiles
    obtain rfl : inferFromDiagram d = s' := Except.ok.inj (hs.symm.trans hs')
    exact (contents_of_writeTables hwritten).2 t ht hhalf.isMisshapen

/-! ### A pivot that is refused -/

/-- Users who are friends of each other, in a table that is drawn with both keys. -/
def friendsText : String :=
  "entity User \x7b
  * id : bigint
\x7d
entity friends \x7b
  user_id : bigint
  friend_id : bigint
\x7d
User \x7do--o\x7b User : friends
"

/-- What the text draws. -/
def drawnFriends : Document :=
  { tables :=
      [{ name := "User", columns := [idColumn] },
       { name := "friends"
         columns :=
          [{ name := "user_id", type := .bigint }, { name := "friend_id", type := .bigint }] }]
    relationships := [.manyToMany "User" "User" (some "friends")] }

set_option maxRecDepth 8000 in
theorem schemaOfDiagram_friendsText :
    schemaOfDiagram friendsText = .ok (inferFromDiagram drawnFriends) := by
  apply schemaOfDiagram_of_parse
  unfold Document.parse friendsText
  rw [String.toList_ofList]
  decide

theorem issues_friends : (inferFromDiagram drawnFriends).issues = [] := by
  decide

theorem migrationsOfDiagram_of_valid_friends :
    ∃ s, schemaOfDiagram friendsText = .ok s ∧ s.issues = []
      ∧ ∃ d, Document.parse friendsText = .ok d
        ∧ (∀ e, migrationsOfDiagram {} ⟨2024, 3, 5, 14, 7, 9⟩ friendsText = .error e →
          e = .write .endOfTime
            ∨ ∃ t ∈ s.tables, ∃ model, HalfKeyed s model t ∧ t.name ∈ d.tables.map Table.name
              ∧ e = .write (.pivotShape t.name [model ++ keySuffix]))
        ∧ ∀ t ∈ s.tables, ∀ model, HalfKeyed s model t →
          ∀ files, migrationsOfDiagram {} ⟨2024, 3, 5, 14, 7, 9⟩ friendsText ≠ .ok files :=
  ⟨_, schemaOfDiagram_friendsText, issues_friends,
    migrationsOfDiagram_of_valid schemaOfDiagram_friendsText issues_friends {} _⟩

/-- Validation accepts the diagram and writing refuses it. -/
theorem refuses_friends :
    ∃ s, schemaOfDiagram friendsText = .ok s ∧ s.issues = []
      ∧ migrationsOfDiagram {} ⟨2024, 3, 5, 14, 7, 9⟩ friendsText
        = .error (.write (.pivotShape "friends" ["user_id"])) := by
  refine ⟨_, schemaOfDiagram_friendsText, issues_friends, ?_⟩
  have hwrite : writeAll {} ⟨2024, 3, 5, 14, 7, 9⟩ (inferFromDiagram drawnFriends)
      = .error (.pivotShape "friends" ["user_id"]) := by
    decide
  unfold migrationsOfDiagram
  rw [schemaOfDiagram_friendsText]
  simp only [Except.mapError, bind, Except.bind, hwrite]

end Crowsfoot.Inference
