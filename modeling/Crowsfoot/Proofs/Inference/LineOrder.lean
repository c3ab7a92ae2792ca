import Mathlib.Data.List.Nodup
import Crowsfoot.Proofs.Inference.Sound

/-!
# The order of relationship lines

The lines of a diagram act one after another, on tables that earlier lines have changed. In
`rearranged_of_perm` their order does not matter beyond the order of what they add, as long as no
pivot is drawn and lines share a pivot only between the same models (`SharePivots`).

* Each table gets the keys of the links that it is the first to answer, and which these are does not
  depend on columns (`linkAll_eq_mapIdx`). In another order these are the same keys, so its drawn
  columns are the same and the new ones trade places (`keyedAlike_ensureKeys`).
* Pivots are those of the many-to-many lines, each once: `mem_pivotsOf`, `nodup_pivotsOf`.
* Relationships and unresolved references are those of each line for itself.

Without `SharePivots` a pivot has the keys of the first line with its name.
-/

namespace Crowsfoot.Inference

open Crowsfoot.Diagram Crowsfoot.Naming

/-! ## Keys in another order -/

/-- Two versions of a drawn table that have different orders of new keys, and nothing else. -/
def KeyedAlike (t u v : Table) : Prop :=
  ∃ (kept : List Column) (added added' : List String),
    u = { t with columns := kept ++ added.map Column.keyTo }
      ∧ v = { t with columns := kept ++ added'.map Column.keyTo }
      ∧ kept.map (fun c => { c with foreignKey := none }) = t.columns
      ∧ added.Nodup ∧ added.Perm added'

theorem keyedAlike_ensureKeys {t : Table} (h : Unkeyed t) {parents others : List String}
    (hperm : parents.Perm others) : KeyedAlike t (ensureKeys t parents) (ensureKeys t others) := by
  -- the models are the same, so drawn columns have the same keys; only new ones have an order
  have hmodels := hperm.map modelName
  have hkept : withKeyOf (others.map modelName) = withKeyOf (parents.map modelName) := by
    unfold withKeyOf
    rw [keyOf_congr fun _ => hmodels.mem_iff]
  obtain ⟨added, hcolumns, hnodup, hadded⟩ := h.columns_ensureKeys parents
  obtain ⟨added', hcolumns', hnodup', hadded'⟩ := h.columns_ensureKeys others
  rw [hkept] at hcolumns'
  refine ⟨t.columns.map (withKeyOf (parents.map modelName)), added, added', ?_, ?_, ?_, hnodup, ?_⟩
  · exact Table.eq_of_parts (name_ensureKeys t parents) hcolumns (isPivot_ensureKeys t parents)
  · exact Table.eq_of_parts (name_ensureKeys t others) hcolumns' (isPivot_ensureKeys t others)
  · rw [List.map_map]
    refine (List.map_congr_left fun c hc => ?_).trans (List.map_id _)
    have hnone : c.foreignKey = none := by
      rw [← h.columns.keys c hc]
      rfl
    show { c with foreignKey := none } = c
    rw [← hnone]
  · rw [List.perm_ext_iff_of_nodup hnodup hnodup']
    intro model
    rw [hadded, hadded', hmodels.mem_iff]

theorem parentsAt_perm {ls others : List (String × String)} (h : ls.Perm others) (ts : List Table)
    (i : Nat) : (parentsAt ls ts i).Perm (parentsAt others ts i) :=
  (h.filter _).map _

/-! ## Pivots in another order -/

/-- The models that a relationship joins through a pivot. -/
def joined : Relationship → List String
  | .manyToMany first second _ => [modelName first, modelName second]
  | _ => []

/-- Relationships with the same pivot join the same models, on whichever sides. -/
def SharePivots (rs : List Relationship) : Prop :=
  ∀ r ∈ rs, ∀ s ∈ rs, pivotName? r = pivotName? s → (joined r).Perm (joined s)

instance (rs : List Relationship) : Decidable (SharePivots rs) :=
  inferInstanceAs (Decidable (∀ r ∈ rs, ∀ s ∈ rs, _ → _))

theorem SharePivots.perm {rs others : List Relationship} (h : SharePivots rs)
    (hperm : rs.Perm others) : SharePivots others :=
  fun r hr s hs => h r (hperm.mem_iff.mpr hr) s (hperm.mem_iff.mpr hs)

/-- The pivot of two models does not depend on their sides. -/
theorem synthesizePivot_congr {a b a' b' : String} {custom custom' : Option String}
    (hname : pivotName a b custom = pivotName a' b' custom')
    (hmodels : [modelName a, modelName b].Perm [modelName a', modelName b']) :
    synthesizePivot a b custom = synthesizePivot a' b' custom' := by
  have hjoined : joinedModels a b = joinedModels a' b' := by
    unfold joinedModels
    dsimp only
    by_cases hsame : modelName a = modelName b
    · obtain ⟨ha, hb⟩ : modelName a' = modelName a ∧ modelName b' = modelName a := by
        have hmem : ∀ model ∈ [modelName a', modelName b'], model = modelName a := by
          intro model hmodel
          rw [← hmodels.mem_iff, ← hsame, List.mem_pair, or_self] at hmodel
          exact hmodel
        exact ⟨hmem _ (by simp), hmem _ (by simp)⟩
      rw [if_pos hsame, ha, hb, if_pos rfl]
    · have hdifferent : modelName a' ≠ modelName b' := by
        have hnodup : [modelName a, modelName b].Nodup := by simpa using hsame
        simpa using hmodels.nodup_iff.mp hnodup
      rw [if_neg hsame, if_neg hdifferent, Text.sorted_congr hmodels]
  unfold synthesizePivot
  rw [hname, hjoined]

/-- **Each many-to-many relationship has its pivot**, and there are no others. -/
theorem mem_pivotsOf {rs : List Relationship} (h : SharePivots rs) {p : Table} :
    p ∈ pivotsOf rs
      ↔ ∃ a b custom, .manyToMany a b custom ∈ rs ∧ p = synthesizePivot a b custom := by
  refine ⟨eq_of_mem_pivotsOf, ?_⟩
  rintro ⟨a, b, custom, hr, rfl⟩
  obtain ⟨q, hq, hname⟩ := List.any_eq_true.mp (any_pivotsOf hr _ rfl)
  obtain ⟨a', b', custom', hr', rfl⟩ := eq_of_mem_pivotsOf hq
  have hname : pivotName a' b' custom' = pivotName a b custom := beq_iff_eq.mp hname
  rwa [← synthesizePivot_congr hname (h _ hr' _ hr (congrArg some hname))]

theorem nodup_pivotsOf (rs : List Relationship) : ((pivotsOf rs).map Table.name).Nodup := by
  induction rs using List.reverseRecOn with
  | nil => exact List.nodup_nil
  | append_singleton rs r ih =>
    rw [pivotsOf_concat]
    cases r with
    | oneToOne | oneToMany => exact ih
    | manyToMany a b custom =>
      unfold addPivot
      dsimp only
      split
      · exact ih
      · rename_i hfresh
        rw [List.map_append, List.nodup_append]
        refine ⟨ih, List.nodup_singleton _, ?_⟩
        rintro _ hname name hnew rfl
        obtain ⟨p, hp, hsame⟩ := List.mem_map.mp hname
        rw [List.mem_singleton.mp hnew] at hsame
        exact hfresh (List.any_eq_true.mpr ⟨p, hp, beq_iff_eq.mpr hsame⟩)

theorem pivotsOf_perm {rs others : List Relationship} (h : SharePivots rs)
    (hperm : rs.Perm others) : (pivotsOf rs).Perm (pivotsOf others) := by
  rw [List.perm_ext_iff_of_nodup (nodup_pivotsOf rs).of_map (nodup_pivotsOf others).of_map]
  intro p
  simp only [mem_pivotsOf h, mem_pivotsOf (h.perm hperm), hperm.mem_iff]

/-! ## Lines in another order -/

/-- Two schemas with these tables that have different orders of what lines add, and nothing else. -/
structure Rearranged (ts : List Table) (s s' : Schema) : Prop where
  length : s.domainTables.length = ts.length ∧ s'.domainTables.length = ts.length
  domain : ∀ (i : Nat) t, ts[i]? = some t →
    ∃ u v, s.domainTables[i]? = some u ∧ s'.domainTables[i]? = some v ∧ KeyedAlike t u v
  pivots : s.pivotTables.Perm s'.pivotTables
  relationships : s.relationships.Perm s'.relationships
  unresolved : s.unresolved.Perm s'.unresolved

/-- **The order of relationship lines does not matter**, if no pivot is drawn and lines with the same
pivot join the same models. Domain tables stay where they are drawn, with the same columns and keys,
and get the same new keys behind them. The pivots are the same, each line keeps the relationship that
it keeps in any place, and the same references are left unresolved. -/
theorem rearranged_of_perm {text : String} {d : Document} (hparse : Document.parse text = .ok d)
    (hfree : ∀ r ∈ meant d.tables d.relationships, Unadopted d.tables r)
    (hshare : SharePivots (meant d.tables d.relationships)) {rs : List Relationship}
    (hperm : d.relationships.Perm rs) :
    Rearranged d.tables (inferFromDiagram d) (inferFromDiagram { d with relationships := rs })
      ∧ ∃ kept : Relationship → Option Relationship,
        (inferFromDiagram d).relationships = d.relationships.filterMap kept
          ∧ (inferFromDiagram { d with relationships := rs }).relationships
            = rs.filterMap kept := by
  have hparsed := parsedDocument hparse
  have hdomain : ∀ t ∈ d.tables, t.isPivot = false := fun t ht => (hparsed.tables t ht).domain
  have hmeant : (meant d.tables d.relationships).Perm (meant d.tables rs) := hperm.filter _
  have hfree' : ∀ r ∈ meant d.tables rs, Unadopted d.tables r :=
    fun r hr => hfree r (hmeant.mem_iff.mpr hr)
  obtain ⟨htables, hpivots⟩ := domainTables_inferFromDiagram hdomain hfree
  obtain ⟨htables', hpivots'⟩ :=
    domainTables_inferFromDiagram (d := { d with relationships := rs }) hdomain hfree'
  have hkept := (inferFromDiagram_eq hdomain hfree).2
  have hkept' := (inferFromDiagram_eq (d := { d with relationships := rs }) hdomain hfree').2
  have hlinks : (links (meant d.tables d.relationships)).Perm (links (meant d.tables rs)) :=
    hmeant.filterMap _
  refine ⟨⟨?_, ?_, ?_, ?_, ?_⟩, ?_⟩
  · rw [htables, htables', linkAll_eq_mapIdx, linkAll_eq_mapIdx, List.length_mapIdx,
      List.length_mapIdx]
    exact ⟨rfl, rfl⟩
  · intro i t ht
    have hunkeyed := unkeyed_of_parsed (hparsed.tables t (List.mem_of_getElem? ht))
    rw [htables, htables', linkAll_eq_mapIdx, linkAll_eq_mapIdx, List.getElem?_mapIdx,
      List.getElem?_mapIdx, ht]
    exact ⟨_, _, rfl, rfl, keyedAlike_ensureKeys hunkeyed (parentsAt_perm hlinks d.tables i)⟩
  · rw [hpivots, hpivots']
    exact pivotsOf_perm hshare hmeant
  · rw [hkept, hkept']
    exact hmeant.map named
  · rw [unresolved_inferFromDiagram hfree,
      unresolved_inferFromDiagram (d := { d with relationships := rs }) hfree']
    exact hperm.flatMap_right _
  · refine ⟨fun r => (Option.guard (fun r => r.ends.all (declared d.tables)) r).map named, ?_, ?_⟩
    · rw [hkept, meant, ← List.filterMap_eq_filter, List.map_filterMap]
    · rw [hkept', meant, ← List.filterMap_eq_filter, List.map_filterMap]

/-- Posts that two lines give the same key and another its own, a pivot that two lines ask for, and
an entity that is not there. -/
def rolesText : String :=
  "entity User
entity Role
entity Post \x7b
  user_id : bigint
\x7d
Role ||--o\x7b Post
User \x7do--o\x7b Role : Member
User ||--o\x7b Post
Role \x7do--o\x7b User : member
Team ||--o\x7b Post
User ||--|| Post
"

/-- What the text draws. -/
def drawnRoles : Document :=
  { tables :=
      [{ name := "User" }, { name := "Role" },
       { name := "Post", columns := [{ name := "user_id", type := .bigint }] }]
    relationships :=
      [.oneToMany "Role" "Post", .manyToMany "User" "Role" (some "Member"),
       .oneToMany "User" "Post", .manyToMany "Role" "User" (some "member"),
       .oneToMany "Team" "Post", .oneToOne "User" "Post"] }

set_option maxRecDepth 8000 in
theorem parse_rolesText : Document.parse rolesText = .ok drawnRoles := by
  unfold Document.parse rolesText
  rw [String.toList_ofList]
  decide

theorem rearranged_of_perm_roles :
    (∀ r ∈ meant drawnRoles.tables drawnRoles.relationships, Unadopted drawnRoles.tables r)
      ∧ SharePivots (meant drawnRoles.tables drawnRoles.relationships)
      ∧ ∃ d s', Document.parse rolesText = .ok d
        ∧ s' = inferFromDiagram { d with relationships := d.relationships.reverse }
        ∧ Rearranged d.tables (inferFromDiagram d) s'
        ∧ ∃ kept : Relationship → Option Relationship,
          (inferFromDiagram d).relationships = d.relationships.filterMap kept
            ∧ s'.relationships = d.relationships.reverse.filterMap kept := by
  have hfree : ∀ r ∈ meant drawnRoles.tables drawnRoles.relationships,
      Unadopted drawnRoles.tables r :=
    fun _ _ => unadopted_of_capitalized (by decide)
  have hshare : SharePivots (meant drawnRoles.tables drawnRoles.relationships) := by
    decide
  exact ⟨hfree, hshare, _, _, parse_rolesText, rfl, rearranged_of_perm parse_rolesText hfree hshare
    (List.reverse_perm _).symm⟩

end Crowsfoot.Inference
