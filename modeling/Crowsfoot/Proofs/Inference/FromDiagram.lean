import Crowsfoot.Inference.FromDiagram
import Crowsfoot.Proofs.Inference.Keys
import Crowsfoot.Proofs.Schema.Relationships

/-!
# Schemas from diagrams, line by line and as a whole

The lines of a diagram act one after another. `augment_eq` says what they do together, where no
pivot is drawn: of the relationships between declared tables (`meant`), those with a parent link
their tables (`linkAll`), the others bring in pivots (`pivotsOf`), and all are kept.

* `linkAll_cons`: a table is given the keys that are meant for it, and the tables behind it get the
  rest. From that, by induction on the tables, `linkAll_drawn`: drawn tables that are linked again,
  by the same links in any order, are the tables.
* `pivotsOf_firstOfEachKey`: relationships that are not the first of their key bring in no pivot.
-/

namespace Crowsfoot.Inference

open Crowsfoot.Diagram Crowsfoot.Naming

/-! ## Declared names -/

/-- A table without its columns, which is what lookups see of it. -/
def bare (t : Table) : Table :=
  { t with columns := [] }

/-- Whether a name refers to one of the tables. -/
def declared (ts : List Table) (name : String) : Bool :=
  (findTable? ts name).isSome

theorem declared_eq_any (ts : List Table) (name : String) :
    declared ts name = (ts.map bare).any (Table.hasNameIn (lookupNames name)) := by
  unfold declared findTable?
  rw [List.any_map, List.isSome_find?]
  rfl

theorem declared_congr {ts us : List Table} (h : ts.map bare = us.map bare) :
    declared ts = declared us := by
  funext name
  rw [declared_eq_any, declared_eq_any, h]

/-- A table answers to its own name. -/
theorem hasNameIn_name (t : Table) : t.hasNameIn (lookupNames t.name) = true := by
  unfold Table.hasNameIn lookupNames
  simp

theorem declared_of_mem {ts : List Table} {name : String} (h : name ∈ ts.map Table.name) :
    declared ts name = true := by
  obtain ⟨t, ht, rfl⟩ := List.mem_map.mp h
  unfold declared findTable?
  rw [List.find?_isSome]
  exact ⟨t, ht, hasNameIn_name t⟩

theorem bare_ensureKeys (t : Table) (parents : List String) :
    bare (ensureKeys t parents) = bare t :=
  Table.eq_of_parts (name_ensureKeys t parents) rfl (isPivot_ensureKeys t parents)

/-! ## Links -/

/-- The parent and the child of a relationship that has them. -/
def link? : Relationship → Option (String × String)
  | .oneToOne parent child => some (parent, child)
  | .oneToMany parent child => some (parent, child)
  | .manyToMany _ _ _ => none

/-- The links that relationships ask for. -/
def links (rs : List Relationship) : List (String × String) :=
  rs.filterMap link?

/-- Whether the child of a link refers to the table. -/
def answers (t : Table) (l : String × String) : Bool :=
  t.hasNameIn (lookupNames l.2)

/-- The tables with one more link. -/
def linkOne (ts : List Table) (l : String × String) : List Table :=
  modifyFirst (Table.hasNameIn (lookupNames l.2)) (·.ensureKey l.1) ts

theorem linkOne_cons (t : Table) (ts : List Table) (l : String × String) :
    linkOne (t :: ts) l
      = if answers t l then t.ensureKey l.1 :: ts else t :: linkOne ts l :=
  rfl

/-- The tables with all links, one after the other. -/
def linkAll (ls : List (String × String)) (ts : List Table) : List Table :=
  ls.foldl linkOne ts

variable {ls : List (String × String)} {ts : List Table}

theorem linkAll_nil (ls : List (String × String)) : linkAll ls [] = [] := by
  unfold linkAll
  induction ls with
  | nil => rfl
  | cons l ls ih => exact ih

theorem answers_bare (t : Table) (l : String × String) : answers (bare t) l = answers t l :=
  rfl

/-- Which table is the first to answer a link does not depend on columns. -/
theorem findIdx?_answers_congr {us : List Table} (h : ts.map bare = us.map bare)
    (l : String × String) : ts.findIdx? (answers · l) = us.findIdx? (answers · l) := by
  have hbare : ∀ vs : List Table,
      vs.findIdx? (answers · l) = (vs.map bare).findIdx? (answers · l) := by
    intro vs
    rw [List.findIdx?_map]
    rfl
  rw [hbare, h, ← hbare]

theorem declared_of_findIdx? {l : String × String} {i : Nat}
    (h : ts.findIdx? (answers · l) = some i) : declared ts l.2 = true := by
  have hsome : (ts.findIdx? (answers · l)).isSome = true := by rw [h]; rfl
  rw [List.findIdx?_isSome] at hsome
  unfold declared findTable?
  rw [List.isSome_find?]
  exact hsome

theorem answers_ensureKey (t : Table) (parent : String) (l : String × String) :
    answers (t.ensureKey parent) l = answers t l := by
  have hbare : bare (t.ensureKey parent) = bare t := bare_ensureKeys t [parent]
  rw [← answers_bare, hbare, answers_bare]

/-- **A table gets the keys that are meant for it**, and the tables behind it the others. -/
theorem linkAll_cons (ls : List (String × String)) (t : Table) (ts : List Table) :
    linkAll ls (t :: ts)
      = ensureKeys t ((ls.filter (answers t)).map Prod.fst)
        :: linkAll (ls.filter fun l => !answers t l) ts := by
  induction ls generalizing t ts with
  | nil => rfl
  | cons l ls ih =>
    have hstep : linkAll (l :: ls) (t :: ts) = linkAll ls (linkOne (t :: ts) l) := rfl
    rw [hstep, linkOne_cons]
    by_cases hl : answers t l = true
    · have hsame : answers (t.ensureKey l.1) = answers t := by
        funext m
        exact answers_ensureKey t l.1 m
      rw [if_pos hl, ih, List.filter_cons_of_pos hl, List.filter_cons_of_neg (by simp [hl]), hsame]
      rfl
    · rw [if_neg hl, ih, List.filter_cons_of_neg hl, List.filter_cons_of_pos (by simp [hl])]
      rfl

/-- A linked table is a table with the keys to some parents. -/
theorem mem_linkAll {u : Table} (h : u ∈ linkAll ls ts) :
    ∃ t ∈ ts, ∃ parents, (∀ parent ∈ parents, parent ∈ ls.map Prod.fst)
      ∧ u = ensureKeys t parents := by
  induction ts generalizing ls with
  | nil =>
    rw [linkAll_nil] at h
    exact absurd h (by simp)
  | cons t ts ih =>
    rw [linkAll_cons] at h
    rcases List.mem_cons.mp h with rfl | h
    · refine ⟨t, List.mem_cons_self, _, ?_, rfl⟩
      intro parent hparent
      obtain ⟨l, hl, rfl⟩ := List.mem_map.mp hparent
      exact List.mem_map_of_mem (List.mem_filter.mp hl).1
    · obtain ⟨v, hv, parents, hparents, rfl⟩ := ih h
      refine ⟨v, List.mem_cons_of_mem t hv, parents, ?_, rfl⟩
      intro parent hparent
      obtain ⟨l, hl, rfl⟩ := List.mem_map.mp (hparents parent hparent)
      exact List.mem_map_of_mem (List.mem_filter.mp hl).1

/-- **The child that a link finds has the key to the parent.** -/
theorem find?_linkAll {l : String × String} (hl : l ∈ ls) {u : Table}
    (h : (linkAll ls ts).find? (answers · l) = some u) :
    ∃ t ∈ ts, ∃ parents, l.1 ∈ parents ∧ u = ensureKeys t parents := by
  induction ts generalizing ls with
  | nil =>
    rw [linkAll_nil] at h
    exact nomatch h
  | cons t ts ih =>
    have hanswers : ∀ parents, answers (ensureKeys t parents) l = answers t l := by
      intro parents
      rw [← answers_bare, bare_ensureKeys, answers_bare]
    rw [linkAll_cons, List.find?_cons, hanswers] at h
    cases hfirst : answers t l with
    | true =>
      rw [hfirst] at h
      refine ⟨t, List.mem_cons_self, _, ?_, (Option.some.inj h).symm⟩
      exact List.mem_map_of_mem (List.mem_filter.mpr ⟨hl, hfirst⟩)
    | false =>
      rw [hfirst] at h
      have hrest : l ∈ ls.filter fun l => !answers t l :=
        List.mem_filter.mpr ⟨hl, by rw [hfirst]; rfl⟩
      obtain ⟨v, hv, parents, hparent, heq⟩ := ih hrest h
      exact ⟨v, List.mem_cons_of_mem t hv, parents, hparent, heq⟩

/-- The parents that links put on the table at an index: those of the links that it is the first
table to answer. -/
def parentsAt (ls : List (String × String)) (ts : List Table) (i : Nat) : List String :=
  (ls.filter fun l => ts.findIdx? (answers · l) == some i).map Prod.fst

/-- **Each table gets the keys of the links that it is the first to answer.** -/
theorem linkAll_eq_mapIdx (ls : List (String × String)) (ts : List Table) :
    linkAll ls ts = ts.mapIdx fun i t => ensureKeys t (parentsAt ls ts i) := by
  induction ts generalizing ls with
  | nil => exact linkAll_nil ls
  | cons t ts ih =>
    have hhead : (fun l => (t :: ts).findIdx? (answers · l) == some 0) = answers t := by
      funext l
      rw [List.findIdx?_cons]
      cases answers t l with
      | true => rfl
      | false => cases ts.findIdx? (answers · l) <;> rfl
    have htail : ∀ i, (fun l => (t :: ts).findIdx? (answers · l) == some (i + 1))
        = fun l => (ts.findIdx? (answers · l) == some i) && !answers t l := by
      intro i
      funext l
      rw [List.findIdx?_cons]
      cases answers t l with
      | true => simp
      | false => cases ts.findIdx? (answers · l) <;> simp
    unfold parentsAt at ih ⊢
    rw [linkAll_cons, List.mapIdx_cons, ih, hhead]
    simp only [List.filter_filter, htail]

theorem map_bare_linkAll (ls : List (String × String)) (ts : List Table) :
    (linkAll ls ts).map bare = ts.map bare := by
  induction ts generalizing ls with
  | nil => rw [linkAll_nil]
  | cons t ts ih => rw [linkAll_cons, List.map_cons, List.map_cons, bare_ensureKeys, ih]

/-- **Drawn tables that are linked again are the tables**, whatever the order of the links. -/
theorem linkAll_drawn (h : ∀ t ∈ ts, Unkeyed t) {others : List (String × String)}
    (hsame : ∀ l, l ∈ ls ↔ l ∈ others) :
    linkAll others ((linkAll ls ts).map drawnTable) = linkAll ls ts := by
  induction ts generalizing ls others with
  | nil => rw [linkAll_nil, List.map_nil, linkAll_nil]
  | cons t ts ih =>
    have ht : Unkeyed t := h t List.mem_cons_self
    have hanswers : ∀ parents, answers (drawnTable (ensureKeys t parents)) = answers t := by
      intro parents
      have hbare : bare (drawnTable (ensureKeys t parents)) = bare t :=
        Table.eq_of_parts (name_ensureKeys t parents) rfl ht.domain.symm
      funext l
      rw [← answers_bare, hbare, answers_bare]
    rw [linkAll_cons ls, List.map_cons, linkAll_cons others, hanswers]
    congr 1
    · apply ensureKeys_drawn ht
      intro parent
      simp only [List.mem_map, List.mem_filter, hsame]
    · apply ih fun u hu => h u (List.mem_cons_of_mem t hu)
      intro l
      simp only [List.mem_filter, hsame]

/-- A diagram shows all links. -/
theorem mem_links_drawnRelationships {rs : List Relationship} (h : ∀ r ∈ rs, r.Unhyphenated)
    (l : String × String) : l ∈ links (drawnRelationships rs) ↔ l ∈ links rs := by
  unfold links
  rw [List.mem_filterMap, List.mem_filterMap]
  constructor
  · rintro ⟨r, hr, hlink⟩
    exact ⟨r, mem_of_mem_drawnRelationships hr, hlink⟩
  · rintro ⟨r, hr, hlink⟩
    have hparent : r.kind ≠ .manyToMany := by
      intro hkind
      cases r with
      | manyToMany => exact absurd hlink (by simp [link?])
      | oneToOne | oneToMany => exact absurd hkind (by simp [Relationship.kind])
    obtain ⟨s, hs, hkind, hkey⟩ := Relationship.exists_mem_firstOfEachKey hr
    have hsame : s = r := Relationship.eq_of_key (h r hr)
      (h s (Relationship.mem_of_mem_firstOfEachKey hs)) hkind hkey hparent
    exact ⟨r, mem_drawnRelationships.mpr (hsame ▸ hs), hlink⟩

/-! ## Pivots -/

/-- The name of the pivot that a relationship asks for. -/
def pivotName? : Relationship → Option String
  | .manyToMany first second custom => some (pivotName first second custom)
  | _ => none

/-- A relationship with the name of its pivot. -/
def named : Relationship → Relationship
  | .manyToMany first second custom =>
    .manyToMany first second (some (pivotName first second custom))
  | r => r

/-- The pivots with that of a relationship, if it brings in one. -/
def addPivot (pivots : List Table) : Relationship → List Table
  | .manyToMany first second custom =>
    if pivots.any fun p => p.name == pivotName first second custom then pivots
    else pivots ++ [synthesizePivot first second custom]
  | _ => pivots

/-- The pivots that relationships bring in. -/
def pivotsOf (rs : List Relationship) : List Table :=
  rs.foldl addPivot []

theorem pivotsOf_concat (rs : List Relationship) (r : Relationship) :
    pivotsOf (rs ++ [r]) = addPivot (pivotsOf rs) r := by
  unfold pivotsOf
  rw [List.foldl_append]
  rfl

theorem addPivot_of_any {pivots : List Table} {r : Relationship}
    (h : ∀ name ∈ pivotName? r, (pivots.any fun p => p.name == name) = true) :
    addPivot pivots r = pivots := by
  cases r with
  | oneToOne | oneToMany => rfl
  | manyToMany first second custom =>
    unfold addPivot
    dsimp only
    rw [h _ rfl, if_pos rfl]

/-- A relationship has its pivot afterwards, and those that were there stay. -/
theorem any_addPivot (pivots : List Table) (r : Relationship) :
    (∀ name, (pivots.any fun p => p.name == name) = true →
        ((addPivot pivots r).any fun p => p.name == name) = true)
      ∧ ∀ name ∈ pivotName? r, ((addPivot pivots r).any fun p => p.name == name) = true := by
  cases r with
  | oneToOne | oneToMany => exact ⟨fun _ h => h, by simp [pivotName?]⟩
  | manyToMany first second custom =>
    unfold addPivot
    dsimp only
    by_cases hany : (pivots.any fun p => p.name == pivotName first second custom) = true
    · rw [if_pos hany]
      refine ⟨fun _ h => h, ?_⟩
      intro name hname
      rw [← Option.mem_some_iff.mp hname]
      exact hany
    · rw [if_neg hany]
      constructor
      · intro name h
        rw [List.any_append, h, Bool.true_or]
      · intro name hname
        rw [← Option.mem_some_iff.mp hname, List.any_append]
        simp [synthesizePivot]

theorem any_pivotsOf {rs : List Relationship} {r : Relationship} (h : r ∈ rs) :
    ∀ name ∈ pivotName? r, ((pivotsOf rs).any fun p => p.name == name) = true := by
  induction rs using List.reverseRecOn with
  | nil => exact absurd h (by simp)
  | append_singleton rs s ih =>
    rw [pivotsOf_concat]
    obtain ⟨hkept, hnew⟩ := any_addPivot (pivotsOf rs) s
    rcases List.mem_append.mp h with h | h
    · exact fun name hname => hkept name (ih h name hname)
    · rw [List.mem_singleton.mp h]
      exact hnew

/-- **What is not the first of its key brings in no pivot**, as long as the key tells the name of
the pivot. -/
theorem pivotsOf_firstOfEachKey {rs : List Relationship}
    (h : ∀ r ∈ rs, ∀ s ∈ rs, s.kind = r.kind → s.key = r.key → pivotName? s = pivotName? r) :
    pivotsOf (Relationship.firstOfEachKey rs) = pivotsOf rs := by
  induction rs using List.reverseRecOn with
  | nil => rfl
  | append_singleton rs r ih =>
    have hrest := ih fun s hs u hu =>
      h s (List.mem_append_left _ hs) u (List.mem_append_left _ hu)
    rw [Relationship.firstOfEachKey_concat, pivotsOf_concat]
    by_cases hlike : (Relationship.firstOfEachKey rs).any (Relationship.isLike r) = true
    · obtain ⟨s, hs, hsame⟩ := List.any_eq_true.mp hlike
      obtain ⟨hkind, hkey⟩ := Relationship.isLike_iff.mp hsame
      have hsmem := Relationship.mem_of_mem_firstOfEachKey hs
      have hname := h r (List.mem_append_right _ (List.mem_singleton_self r)) s
        (List.mem_append_left _ hsmem) hkind hkey
      rw [if_pos hlike, hrest, addPivot_of_any]
      rw [← hname]
      exact any_pivotsOf hsmem
    · rw [if_neg hlike, pivotsOf_concat, hrest]

/-- Relationships of other kinds bring in no pivot. -/
theorem foldl_addPivot_filter (kind : Relationship.Kind) (rs : List Relationship)
    (pivots : List Table) :
    (rs.filter fun r => r.kind == kind).foldl addPivot pivots
      = if kind = .manyToMany then rs.foldl addPivot pivots else pivots := by
  induction rs generalizing pivots with
  | nil => split <;> rfl
  | cons r rs ih =>
    by_cases hr : r.kind = kind
    · rw [List.filter_cons_of_pos (by simpa using hr), List.foldl_cons, ih]
      split
      · rfl
      · rename_i hother
        cases r with
        | oneToOne | oneToMany => rfl
        | manyToMany => exact absurd hr.symm hother
    · rw [List.filter_cons_of_neg (by simpa using hr), ih]
      split
      · rename_i hkind
        rw [List.foldl_cons]
        cases r with
        | oneToOne | oneToMany => rfl
        | manyToMany => exact absurd hkind.symm hr
      · rfl

theorem pivotsOf_drawnRelationships (rs : List Relationship) :
    pivotsOf (drawnRelationships rs) = pivotsOf (Relationship.firstOfEachKey rs) := by
  unfold pivotsOf drawnRelationships Relationship.Kind.all Relationship.ofKind
  rw [List.flatMap_cons, List.flatMap_cons, List.flatMap_cons, List.flatMap_nil, List.append_nil,
    List.foldl_append, List.foldl_append, foldl_addPivot_filter, foldl_addPivot_filter,
    foldl_addPivot_filter, if_pos rfl]
  rfl

/-- The pivots are the same when they are named. -/
theorem pivotsOf_map_named {rs : List Relationship} (h : ∀ r ∈ rs, named (named r) = named r) :
    pivotsOf (rs.map named) = pivotsOf rs := by
  unfold pivotsOf
  generalize ([] : List Table) = pivots
  induction rs generalizing pivots with
  | nil => rfl
  | cons r rs ih =>
    have hstep : addPivot pivots (named r) = addPivot pivots r := by
      cases r with
      | oneToOne | oneToMany => rfl
      | manyToMany first second custom =>
        have hname : pivotName first second (some (pivotName first second custom))
            = pivotName first second custom :=
          Option.some.inj (Relationship.manyToMany.inj (h _ List.mem_cons_self)).2.2
        unfold named addPivot synthesizePivot
        dsimp only
        rw [hname]
    rw [List.map_cons, List.foldl_cons, List.foldl_cons, hstep,
      ih fun s hs => h s (List.mem_cons_of_mem r hs)]

/-! ## All lines -/

/-- The relationships whose ends are both declared. -/
def meant (ts : List Table) (rs : List Relationship) : List Relationship :=
  rs.filter fun r => r.ends.all (declared ts)

theorem ends_of_link? {r : Relationship} {l : String × String} (h : link? r = some l) :
    r.ends = [l.1, l.2] := by
  cases r with
  | manyToMany => exact absurd h (by simp [link?])
  | oneToOne parent child | oneToMany parent child =>
    rw [← Option.some.inj h]
    rfl

/-- The links that are acted on are those between declared tables. -/
theorem mem_links_meant {rs : List Relationship} {l : String × String} :
    l ∈ links (meant ts rs) ↔ l ∈ links rs ∧ declared ts l.1 = true ∧ declared ts l.2 = true := by
  have hends : ∀ {r : Relationship}, link? r = some l →
      (r.ends.all (declared ts) = true ↔ declared ts l.1 = true ∧ declared ts l.2 = true) := by
    intro r hlink
    rw [ends_of_link? hlink]
    simp
  unfold links meant
  rw [List.mem_filterMap, List.mem_filterMap]
  constructor
  · rintro ⟨r, hr, hlink⟩
    obtain ⟨hr, hdeclared⟩ := List.mem_filter.mp hr
    exact ⟨⟨r, hr, hlink⟩, (hends hlink).mp hdeclared⟩
  · rintro ⟨⟨r, hr, hlink⟩, hdeclared⟩
    exact ⟨r, List.mem_filter.mpr ⟨hr, (hends hlink).mpr hdeclared⟩, hlink⟩

/-- No table is drawn under the name of a pivot. -/
def Unadopted (ts : List Table) (r : Relationship) : Prop :=
  ∀ name ∈ pivotName? r, ∀ t ∈ ts, t.name ≠ name

/-- The references that a relationship between undeclared entities leaves unresolved. -/
def missing (ts : List Table) (r : Relationship) : List Unresolved :=
  (r.ends.filter fun name => !declared ts name).map Augmentation.undeclared

/-- A relationship between declared entities leaves nothing unresolved. -/
theorem missing_eq_nil {ts : List Table} {r : Relationship} (h : r.ends.all (declared ts) = true) :
    missing ts r = [] := by
  unfold missing
  rw [List.map_eq_nil_iff, List.filter_eq_nil_iff]
  intro name hname
  rw [List.all_eq_true.mp h name hname]
  exact Bool.false_ne_true

theorem name_mem_of_map_bare {ts us : List Table} (h : us.map bare = ts.map bare) {u : Table}
    (hu : u ∈ us) : ∃ t ∈ ts, t.name = u.name := by
  have hmem : bare u ∈ ts.map bare := h ▸ List.mem_map_of_mem hu
  obtain ⟨t, ht, heq⟩ := List.mem_map.mp hmem
  exact ⟨t, ht, show (bare t).name = (bare u).name by rw [heq]⟩

/-- Columns do not tell whether a table is drawn under the name of a pivot. -/
theorem Unadopted.congr {ts us : List Table} {r : Relationship} (h : Unadopted ts r)
    (hbare : us.map bare = ts.map bare) : Unadopted us r := by
  intro name hname u hu
  obtain ⟨t, ht, hsame⟩ := name_mem_of_map_bare hbare hu
  rw [← hsame]
  exact h name hname t ht

theorem linkAll_links_cons (r : Relationship) (rs : List Relationship) (ts : List Table) :
    linkAll (links (r :: rs)) ts = linkAll (links rs) (linkAll (links [r]) ts) := by
  have hlinks : links (r :: rs) = links [r] ++ links rs := List.filterMap_append (l := [r])
  unfold linkAll
  rw [hlinks, List.foldl_append]

/-- What is asked of all relationships is asked of those that are meant. -/
theorem forall_mem_meant {P : Relationship → Prop} {ts : List Table} {rs : List Relationship}
    (h : ∀ r ∈ rs, P r) : ∀ r ∈ meant ts rs, P r :=
  fun r hr => h r (List.mem_filter.mp hr).1

/-- Only many-to-many relationships have pivots. -/
theorem unadopted_of_pivotName {ts : List Table} {r : Relationship}
    (h : ∀ first second custom, r = .manyToMany first second custom →
      ∀ t ∈ ts, t.name ≠ pivotName first second custom) : Unadopted ts r := by
  intro name hname t ht
  cases r with
  | oneToOne | oneToMany => exact absurd hname (by simp [pivotName?])
  | manyToMany first second custom =>
    rw [← Option.mem_some_iff.mp hname]
    exact h first second custom rfl t ht

namespace Augmentation

variable {a : Augmentation} {r : Relationship}

theorem findDrawnPivot?_eq_none {name : String} (h : ∀ t ∈ a.tables, t.name ≠ name) :
    findDrawnPivot? a.tables name = none := by
  unfold findDrawnPivot?
  rw [List.find?_eq_none]
  intro t ht
  simpa using h t ht

theorem all_declared (a : Augmentation) (first second : String) :
    [first, second].all (declared a.tables) = (a.declares first && a.declares second) := by
  rw [List.all_cons, List.all_cons, List.all_nil, Bool.and_true]
  rfl

/-- What a line does whose ends are declared. -/
theorem add_declared (hdeclared : r.ends.all (declared a.tables) = true)
    (hfree : Unadopted a.tables r) :
    (a.add r).tables = linkAll (links [r]) a.tables ∧ (a.add r).pivots = addPivot a.pivots r
      ∧ (a.add r).relationships = a.relationships ++ [named r]
      ∧ (a.add r).unresolved = a.unresolved := by
  cases r with
  | oneToOne parent child | oneToMany parent child =>
    have hboth : (a.declares child && a.declares parent) = true := by
      rw [Bool.and_comm, ← all_declared]
      exact hdeclared
    unfold add
    dsimp only
    rw [if_pos hboth]
    exact ⟨rfl, rfl, rfl, rfl⟩
  | manyToMany first second custom =>
    have hboth : (a.declares first && a.declares second) = true := by
      rw [← all_declared]
      exact hdeclared
    have hnone : findDrawnPivot? a.tables (synthesizePivot first second custom).name = none :=
      findDrawnPivot?_eq_none (hfree _ rfl)
    unfold add
    dsimp only
    rw [if_pos hboth]
    unfold join keep
    dsimp only
    rw [hnone]
    dsimp only
    unfold addPivot
    dsimp only
    split
    · rename_i hany
      exact ⟨rfl, (if_pos hany).symm, rfl, rfl⟩
    · rename_i hany
      exact ⟨rfl, (if_neg hany).symm, rfl, rfl⟩

/-- What a line does whose ends are not both declared. -/
theorem add_undeclared (hdeclared : r.ends.all (declared a.tables) = false) :
    (a.add r).tables = a.tables ∧ (a.add r).pivots = a.pivots
      ∧ (a.add r).relationships = a.relationships
      ∧ (a.add r).unresolved = a.unresolved ++ missing a.tables r := by
  cases r with
  | oneToOne parent child | oneToMany parent child =>
    have hboth : (a.declares child && a.declares parent) = false := by
      rw [Bool.and_comm, ← all_declared]
      exact hdeclared
    unfold add
    dsimp only
    rw [hboth, if_neg Bool.false_ne_true]
    exact ⟨rfl, rfl, rfl, rfl⟩
  | manyToMany first second custom =>
    have hboth : (a.declares first && a.declares second) = false := by
      rw [← all_declared]
      exact hdeclared
    unfold add
    dsimp only
    rw [hboth, if_neg Bool.false_ne_true]
    exact ⟨rfl, rfl, rfl, rfl⟩

/-- **What all lines do**, one after the other: they link tables, bring in pivots and are kept, or
leave references unresolved. -/
theorem foldl_add {ts : List Table} {rs : List Relationship}
    (hfree : ∀ r ∈ meant ts rs, Unadopted ts r) (hbare : a.tables.map bare = ts.map bare) :
    (rs.foldl add a).tables = linkAll (links (meant ts rs)) a.tables
      ∧ (rs.foldl add a).pivots = (meant ts rs).foldl addPivot a.pivots
      ∧ (rs.foldl add a).relationships = a.relationships ++ (meant ts rs).map named
      ∧ (rs.foldl add a).unresolved = a.unresolved ++ rs.flatMap (missing ts) := by
  induction rs generalizing a with
  | nil => exact ⟨rfl, rfl, (List.append_nil _).symm, (List.append_nil _).symm⟩
  | cons r rs ih =>
    have hsame := declared_congr hbare
    by_cases hdeclared : r.ends.all (declared ts) = true
    · have hmeant : meant ts (r :: rs) = r :: meant ts rs := List.filter_cons_of_pos hdeclared
      rw [hmeant] at hfree
      obtain ⟨hhead, hrest⟩ := List.forall_mem_cons.mp hfree
      obtain ⟨htables, hpivots, hkept, hunresolved⟩ :=
        add_declared (hsame ▸ hdeclared) (hhead.congr hbare)
      have hbare' : (a.add r).tables.map bare = ts.map bare := by
        rw [htables, map_bare_linkAll, hbare]
      obtain ⟨htables', hpivots', hkept', hunresolved'⟩ := ih hrest hbare'
      rw [List.foldl_cons, htables', hpivots', hkept', hunresolved', htables, hpivots, hkept,
        hunresolved, hmeant, List.flatMap_cons, missing_eq_nil hdeclared, List.append_assoc]
      exact ⟨(linkAll_links_cons r (meant ts rs) a.tables).symm, rfl, rfl, rfl⟩
    · have hnot : r.ends.all (declared a.tables) = false := by
        rw [hsame]
        simpa using hdeclared
      obtain ⟨htables, hpivots, hkept, hunresolved⟩ := add_undeclared hnot
      have hmeant : meant ts (r :: rs) = meant ts rs := List.filter_cons_of_neg hdeclared
      have hmissing : missing a.tables r = missing ts r := by
        unfold missing
        rw [hsame]
      rw [hmeant] at hfree
      obtain ⟨htables', hpivots', hkept', hunresolved'⟩ := ih hfree (htables ▸ hbare)
      rw [List.foldl_cons, htables', hpivots', hkept', hunresolved', htables, hpivots, hkept,
        hunresolved, hmeant, hmissing, List.flatMap_cons, List.append_assoc]
      exact ⟨rfl, rfl, rfl, rfl⟩

end Augmentation

/-- A pivot is made up for one of the relationships. -/
theorem eq_of_mem_pivotsOf {rs : List Relationship} {p : Table} (h : p ∈ pivotsOf rs) :
    ∃ first second custom, .manyToMany first second custom ∈ rs
      ∧ p = synthesizePivot first second custom := by
  induction rs using List.reverseRecOn with
  | nil => exact absurd h (by simp [pivotsOf])
  | append_singleton rs r ih =>
    have hearlier : p ∈ pivotsOf rs → ∃ first second custom,
        .manyToMany first second custom ∈ rs ++ [r] ∧ p = synthesizePivot first second custom := by
      intro hp
      obtain ⟨first, second, custom, hr, heq⟩ := ih hp
      exact ⟨first, second, custom, List.mem_append_left _ hr, heq⟩
    rw [pivotsOf_concat] at h
    cases r with
    | oneToOne | oneToMany => exact hearlier h
    | manyToMany first second custom =>
      unfold addPivot at h
      dsimp only at h
      split at h
      · exact hearlier h
      · rcases List.mem_append.mp h with h | h
        · exact hearlier h
        · exact ⟨first, second, custom, List.mem_append_right _ (List.mem_singleton_self _),
            List.mem_singleton.mp h⟩

theorem isPivot_pivotsOf (rs : List Relationship) : ∀ p ∈ pivotsOf rs, p.isPivot = true := by
  intro p hp
  obtain ⟨_, _, _, -, rfl⟩ := eq_of_mem_pivotsOf hp
  rfl

/-- **The schema of a document** in which no pivot is drawn. -/
theorem inferFromDiagram_eq {d : Document} (hdomain : ∀ t ∈ d.tables, t.isPivot = false)
    (hfree : ∀ r ∈ meant d.tables d.relationships, Unadopted d.tables r) :
    (inferFromDiagram d).tables = linkAll (links (meant d.tables d.relationships)) d.tables
        ++ pivotsOf (meant d.tables d.relationships)
      ∧ (inferFromDiagram d).relationships = (meant d.tables d.relationships).map named := by
  obtain ⟨htables, hpivots, hkept, -⟩ :=
    Augmentation.foldl_add (a := { tables := d.tables }) hfree rfl
  constructor
  · have hordered : (inferFromDiagram d).tables
        = Table.order (linkAll (links (meant d.tables d.relationships)) d.tables
          ++ pivotsOf (meant d.tables d.relationships)) :=
      congrArg₂ (fun ts ps => Table.order (ts ++ ps)) htables hpivots
    rw [hordered]
    refine Table.order_append ?_ (isPivot_pivotsOf _)
    intro u hu
    obtain ⟨t, ht, parents, -, rfl⟩ := mem_linkAll hu
    rw [isPivot_ensureKeys]
    exact hdomain t ht
  · exact hkept

/-- What it leaves unresolved. -/
theorem unresolved_inferFromDiagram {d : Document}
    (hfree : ∀ r ∈ meant d.tables d.relationships, Unadopted d.tables r) :
    (inferFromDiagram d).unresolved = d.relationships.flatMap (missing d.tables) :=
  (Augmentation.foldl_add (a := { tables := d.tables }) hfree rfl).2.2.2

/-- Declared entities have their table in the schema. -/
theorem tableName_mem_storageNames {d : Document} (hdomain : ∀ t ∈ d.tables, t.isPivot = false)
    (hfree : ∀ r ∈ meant d.tables d.relationships, Unadopted d.tables r) {name : String}
    (hname : name ∈ d.tables.map Table.name) :
    tableName name ∈ (inferFromDiagram d).storageNames := by
  obtain ⟨t, ht, rfl⟩ := List.mem_map.mp hname
  have hbare : bare t ∈ (linkAll (links (meant d.tables d.relationships)) d.tables).map bare := by
    rw [map_bare_linkAll]
    exact List.mem_map_of_mem ht
  obtain ⟨u, hu, heq⟩ := List.mem_map.mp hbare
  have hstored : (bare u).storageName = (bare t).storageName := by rw [heq]
  have hstored : u.storageName = t.storageName := hstored
  unfold Schema.storageNames
  rw [(inferFromDiagram_eq hdomain hfree).1, ← Table.storageName_of_domain (hdomain t ht), ← hstored]
  exact List.mem_map_of_mem (List.mem_append_left _ hu)

/-- The domain tables of the schema are the drawn ones, and the others are made up. -/
theorem domainTables_inferFromDiagram {d : Document} (hdomain : ∀ t ∈ d.tables, t.isPivot = false)
    (hfree : ∀ r ∈ meant d.tables d.relationships, Unadopted d.tables r) :
    (inferFromDiagram d).domainTables = linkAll (links (meant d.tables d.relationships)) d.tables
      ∧ (inferFromDiagram d).pivotTables = pivotsOf (meant d.tables d.relationships) := by
  have hlinked : ∀ u ∈ linkAll (links (meant d.tables d.relationships)) d.tables,
      u.isPivot = false := by
    intro u hu
    obtain ⟨t, ht, parents, -, rfl⟩ := mem_linkAll hu
    rw [isPivot_ensureKeys]
    exact hdomain t ht
  unfold Schema.domainTables Schema.pivotTables
  rw [(inferFromDiagram_eq hdomain hfree).1]
  exact Table.filter_append hlinked (isPivot_pivotsOf _)

end Crowsfoot.Inference
