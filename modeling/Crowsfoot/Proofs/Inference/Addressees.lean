import Crowsfoot.Proofs.Inference.Accounts
import Crowsfoot.Proofs.Inference.Adoption

/-!
# The table that a line acts on

A line with a parent puts its key on the first table that answers to the name of the child
(`addressee?`). Tables answer to other spellings than their own name, so this can be a table before
the one that is called exactly so: an entity `role_user` takes the lines of `RoleUser`, also when it
has become a pivot (`team_keys_pivot`).

`link_keys_addressee` is what is true of every line whose ends are declared by their names. The
tables that earlier lines leave decide, and the line changes just one of them. `Develops` carries
this to the end: whatever lines follow, the table at a position keeps its name and its keys.
-/

namespace Crowsfoot.Inference

open Crowsfoot.Diagram Crowsfoot.Naming

/-! ## Positions -/

/-- The position of the first table that answers to a name. -/
def addressee? (ts : List Table) (name : String) : Option Nat :=
  ts.findIdx? (Table.hasNameIn (lookupNames name))

/-- The position of the first table that is called exactly so. -/
def namesake? (ts : List Table) (name : String) : Option Nat :=
  ts.findIdx? (·.name == name)

theorem namesake?_congr {ts us : List Table} (h : ts.map Table.name = us.map Table.name)
    (name : String) : namesake? ts name = namesake? us name := by
  have hnames : ∀ vs : List Table,
      namesake? vs name = (vs.map Table.name).findIdx? (· == name) := by
    intro vs
    rw [List.findIdx?_map]
    rfl
  rw [hnames, h, ← hnames]

theorem exists_namesake? {ts : List Table} {name : String} (h : name ∈ ts.map Table.name) :
    ∃ k, namesake? ts name = some k := by
  obtain ⟨t, ht, hname⟩ := List.mem_map.mp h
  unfold namesake?
  rw [← Option.isSome_iff_exists, List.findIdx?_isSome, List.any_eq_true]
  exact ⟨t, ht, beq_iff_eq.mpr hname⟩

/-- **Who answers to a name is at most as far behind as who has it**, and is the same exactly if
nobody before answers. -/
theorem addressee?_of_namesake? {ts : List Table} {name : String} {k : Nat}
    (h : namesake? ts name = some k) :
    ∃ i, addressee? ts name = some i ∧ i ≤ k
      ∧ (i = k ↔ ∀ t ∈ ts.take k, t.hasNameIn (lookupNames name) = false) := by
  obtain ⟨hk, hname, -⟩ := List.findIdx?_eq_some_iff_getElem.mp h
  have hanswers : ts[k].hasNameIn (lookupNames name) = true :=
    beq_iff_eq.mp hname ▸ hasNameIn_name ts[k]
  obtain ⟨i, hi⟩ : ∃ i, addressee? ts name = some i := by
    unfold addressee?
    rw [← Option.isSome_iff_exists, List.findIdx?_isSome, List.any_eq_true]
    exact ⟨ts[k], List.getElem_mem hk, hanswers⟩
  obtain ⟨hlength, hfirst, hnone⟩ := List.findIdx?_eq_some_iff_getElem.mp hi
  have hle : i ≤ k := Nat.le_of_not_lt fun hlt => hnone k hlt hanswers
  refine ⟨i, hi, hle, ?_⟩
  constructor
  · rintro rfl t ht
    obtain ⟨j, hj, rfl⟩ := List.mem_take_iff_getElem.mp ht
    exact eq_false_of_ne_true (hnone j (by omega))
  · intro hbefore
    by_contra hne
    have hmem : ts[i] ∈ ts.take k := List.mem_take_iff_getElem.mpr ⟨i, by omega, rfl⟩
    rw [hbefore _ hmem] at hfirst
    exact absurd hfirst Bool.false_ne_true

theorem modifyFirst_eq_modify {p : Table → Bool} {f : Table → Table} {ts : List Table} {i : Nat}
    (h : ts.findIdx? p = some i) : modifyFirst p f ts = ts.modify i f := by
  induction ts generalizing i with
  | nil => exact nomatch h
  | cons t ts ih =>
    unfold modifyFirst
    rw [List.findIdx?_cons] at h
    split at h
    · rename_i hp
      cases h
      rw [if_pos hp]
      rfl
    · rename_i hp
      obtain ⟨j, hj, rfl⟩ := Option.map_eq_some_iff.mp h
      rw [if_neg hp, ih hj]
      rfl

/-! ## Tables through lines -/

/-- What lines make of a table: it keeps its name and its keys, and becomes a pivot only under a
name in lower case. -/
structure Develops (t u : Table) : Prop where
  name : u.name = t.name
  pivot : u.isPivot = true → t.isPivot = true ∨ Text.lowered t.name = t.name
  keys : ∀ models, KeyedTo models t → ∃ more, KeyedTo (models ++ more) u

theorem lowered_pivotName (first second : String) (custom : Option String) :
    Text.lowered (pivotName first second custom) = pivotName first second custom := by
  unfold Text.lowered
  rw [Text.lower_eq_self fun c => lowerChar_of_mem_pivotName, String.ofList_toList]

namespace Develops

variable {t u v : Table}

theorem refl (t : Table) : Develops t t :=
  ⟨rfl, Or.inl, fun _ h => ⟨[], by rwa [List.append_nil]⟩⟩

theorem trans (h : Develops t u) (h' : Develops u v) : Develops t v := by
  refine ⟨h'.name.trans h.name, fun hpivot => ?_, fun models hkeyed => ?_⟩
  · rcases h'.pivot hpivot with hu | hu
    · exact h.pivot hu
    · exact Or.inr (h.name ▸ hu)
  · obtain ⟨more, hmore⟩ := h.keys models hkeyed
    obtain ⟨others, hothers⟩ := h'.keys _ hmore
    exact ⟨more ++ others, by rwa [← List.append_assoc]⟩

theorem ensureKey (t : Table) (parent : String) : Develops t (t.ensureKey parent) :=
  ⟨name_ensureKey t parent, fun h => Or.inl ((isPivot_ensureKey t parent).symm.trans h),
    fun _ h => ⟨_, h.ensureKey parent⟩⟩

theorem adopt {first second : String} {custom : Option String}
    (h : t.name = pivotName first second custom) : Develops t (t.adopt first second) :=
  ⟨name_adopt t first second, fun _ => Or.inr (h ▸ lowered_pivotName first second custom),
    fun _ hkeyed => ⟨_, hkeyed.adopt first second⟩⟩

/-- A drawn table answers to all names that it answers to later. -/
theorem hasNameIn (h : Develops t u) (ht : t.isPivot = false) {names : List String}
    (hanswers : u.hasNameIn names = true) : t.hasNameIn names = true := by
  unfold Table.hasNameIn Table.storageName at hanswers ⊢
  rw [h.name] at hanswers
  rw [ht, if_neg Bool.false_ne_true]
  -- A pivot is stored under its own name, which is in lower case, so it answers to no other.
  cases hpivot : u.isPivot with
  | false => rwa [hpivot, if_neg Bool.false_ne_true] at hanswers
  | true =>
    rcases h.pivot hpivot with hflag | hlower
    · rw [ht] at hflag
      exact absurd hflag Bool.false_ne_true
    · rw [hpivot, if_pos rfl, hlower, Bool.or_self] at hanswers
      rw [hlower, hanswers, Bool.true_or]

/-- A key that is given to a drawn table on the way is there in the end. -/
theorem column? (h : Develops t u) (ht : KeyedTo [] t) {parent : String}
    (h' : Develops (u.ensureKey parent) v) :
    ∃ c, v.column? (foreignKeyName parent) = some c
      ∧ c.foreignKey = some (.toModel (modelName parent)) := by
  obtain ⟨models, hkeyed⟩ := h.keys [] ht
  obtain ⟨more, hkeyed'⟩ := h'.keys _ (hkeyed.ensureKey parent)
  exact hkeyed'.column? (by simp)

/-- **Lines let the tables develop**, each at its position. -/
theorem addAll (a : Augmentation) (rs : List Relationship) :
    List.Forall₂ Develops a.tables (rs.foldl Augmentation.add a).tables :=
  forall₂_addAll (R := Develops) (fun _ _ _ => trans) refl ensureKey (fun _ _ _ _ => adopt) a rs

/-- Where no drawn table answers to a name, no table answers to it later. -/
theorem hasNameIn_take {a : Augmentation} (hdomain : ∀ t ∈ a.tables, t.isPivot = false)
    {names : List String} {k : Nat} (h : ∀ t ∈ a.tables.take k, t.hasNameIn names = false)
    (rs : List Relationship) :
    ∀ u ∈ (rs.foldl Augmentation.add a).tables.take k, u.hasNameIn names = false := by
  intro u hu
  obtain ⟨j, hj, hget⟩ := List.mem_take_iff_getElem.mp hu
  obtain ⟨t, ht, hdevelops⟩ := exists_getElem?_of_forall₂ (addAll a rs).flip
    (List.getElem?_eq_some_iff.mpr ⟨by omega, hget⟩)
  obtain ⟨hlength, hget'⟩ := List.getElem?_eq_some_iff.mp ht
  have hsilent := h t (List.mem_take_iff_getElem.mpr ⟨j, by omega, hget'⟩)
  refine eq_false_of_ne_true fun hanswers => ?_
  rw [hdevelops.hasNameIn (hdomain t (List.mem_of_getElem? ht)) hanswers] at hsilent
  exact nomatch hsilent

end Develops

/-! ## Lines -/

/-- A line between declared tables gives its key to the one that is addressed. -/
theorem tables_add_of_link {a : Augmentation} {r : Relationship} {parent child : String} {i : Nat}
    (hlink : link? r = some (parent, child)) (hparent : parent ∈ a.tables.map Table.name)
    (hchild : child ∈ a.tables.map Table.name) (hi : addressee? a.tables child = some i) :
    (a.add r).tables = a.tables.modify i (·.ensureKey parent) := by
  have hdeclared : (a.declares child && a.declares parent) = true :=
    Bool.and_eq_true_iff.mpr ⟨declared_of_mem hchild, declared_of_mem hparent⟩
  cases r with
  | manyToMany => exact nomatch hlink
  | oneToOne one other | oneToMany one other =>
    cases hlink
    unfold Augmentation.add
    dsimp only
    rw [if_pos hdeclared]
    exact modifyFirst_eq_modify hi

/-- **A line keys the table that it addresses.** Let a line with a parent stand in a diagram that
declares both of its ends by exactly their names. Among the tables that the lines before it leave,
it gives its key to the first one that answers to the name of the child, and changes no other. This
is the first table called exactly so, or one before it; it is the first one called so exactly if
none before it answers, and so it is if no entity that is declared before it answers. In the end the
table has the column of the key, which refers to the parent. -/
theorem link_keys_addressee {text : String} {d : Document} (hparse : Document.parse text = .ok d)
    {before after : List Relationship} {r : Relationship}
    (hlines : d.relationships = before ++ r :: after) {parent child : String}
    (hlink : link? r = some (parent, child)) (hparent : parent ∈ d.tables.map Table.name)
    (hchild : child ∈ d.tables.map Table.name) :
    ∃ (a : Augmentation) (i k : Nat),
      a = augment { d with relationships := before }
        ∧ augment d = after.foldl Augmentation.add (a.add r)
        ∧ addressee? a.tables child = some i
        ∧ (a.add r).tables = a.tables.modify i (·.ensureKey parent)
        ∧ namesake? d.tables child = some k
        ∧ i ≤ k
        ∧ (i = k ↔ ∀ u ∈ a.tables.take k, u.hasNameIn (lookupNames child) = false)
        ∧ ((∀ t ∈ d.tables.take k, t.hasNameIn (lookupNames child) = false) → i = k)
        ∧ ∃ t c, (augment d).tables[i]? = some t
          ∧ t ∈ (inferFromDiagram d).tables
          ∧ (d.tables.map Table.name)[i]? = some t.name
          ∧ t.column? (foreignKeyName parent) = some c
          ∧ c.foreignKey = some (.toModel (modelName parent)) := by
  have hparsed := parsedDocument hparse
  let a := augment { d with relationships := before }
  have hnames : a.tables.map Table.name = d.tables.map Table.name := map_name_augment _
  have hrun : augment d = after.foldl Augmentation.add (a.add r) := by
    unfold augment
    rw [hlines, List.foldl_append]
    rfl
  obtain ⟨k, hk⟩ := exists_namesake? hchild
  obtain ⟨i, hi, hle, hexact⟩ := addressee?_of_namesake? ((namesake?_congr hnames child).trans hk)
  have htables := tables_add_of_link hlink (hnames ▸ hparent) (hnames ▸ hchild) hi
  have hdrawn : (∀ t ∈ d.tables.take k, t.hasNameIn (lookupNames child) = false) → i = k :=
    fun hnone => hexact.mpr (Develops.hasNameIn_take (a := { tables := d.tables })
      (fun t ht => (hparsed.tables t ht).domain) hnone before)
  refine ⟨a, i, k, rfl, hrun, hi, htables, hk, hle, hexact, hdrawn, ?_⟩
  -- The table that is addressed comes from a drawn one, and goes on to the end with the key.
  obtain ⟨u, hu⟩ : ∃ u, a.tables[i]? = some u := by
    obtain ⟨hlength, -⟩ := List.findIdx?_eq_some_iff_getElem.mp hi
    exact ⟨_, List.getElem?_eq_getElem hlength⟩
  obtain ⟨t, ht, hdevelops⟩ :=
    exists_getElem?_of_forall₂ (Develops.addAll { tables := d.tables } before).flip hu
  have hadded : (a.add r).tables[i]? = some (u.ensureKey parent) := by
    rw [htables, List.getElem?_modify_eq, hu]
    rfl
  obtain ⟨v, hv, hdevelops'⟩ := exists_getElem?_of_forall₂ (Develops.addAll _ after) hadded
  rw [← hrun] at hv
  obtain ⟨c, hc, hkey⟩ := hdevelops.column?
    (keyedTo_of_parsed (hparsed.tables t (List.mem_of_getElem? ht))) hdevelops'
  have hmem : v ∈ (inferFromDiagram d).tables :=
    Table.mem_order.mpr (List.mem_append_left _ (List.mem_of_getElem? hv))
  have hname : (d.tables.map Table.name)[i]? = some v.name := by
    rw [hdevelops'.name, name_ensureKey, hdevelops.name, List.getElem?_map, ht]
    rfl
  exact ⟨v, c, hv, hmem, hname, hc, hkey⟩

/-- Members of a role that are drawn as a pivot, and an entity of a similar name behind it that has
a team. -/
def teamText : String :=
  "entity User
entity Role
entity Team
entity role_user
entity RoleUser
Role \x7do--o\x7b User
Team ||--o\x7b RoleUser
"

/-- What the text draws. -/
def drawnTeam : Document :=
  { tables :=
      [{ name := "User" }, { name := "Role" }, { name := "Team" }, { name := "role_user" },
        { name := "RoleUser" }]
    relationships := [.manyToMany "Role" "User" none, .oneToMany "Team" "RoleUser"] }

set_option maxRecDepth 8000 in
theorem parse_teamText : Document.parse teamText = .ok drawnTeam := by
  unfold Document.parse teamText
  rw [String.toList_ofList]
  decide

theorem tables_team :
    (inferFromDiagram drawnTeam).tables
      = [{ name := "User" }, { name := "Role" }, { name := "Team" }, { name := "RoleUser" },
        { name := "role_user"
          columns := [.keyTo "role", .keyTo "user", .keyTo "team"]
          isPivot := true }] := by
  unfold inferFromDiagram augment drawnTeam
  simp only [List.foldl_cons, List.foldl_nil, Augmentation.add, Augmentation.join,
    synthesizePivot_roles, Table.adopt, joinedModels_roles]
  decide

theorem link_keys_addressee_team :
    Document.parse teamText = .ok drawnTeam
      ∧ drawnTeam.relationships
        = [.manyToMany "Role" "User" none] ++ .oneToMany "Team" "RoleUser" :: []
      ∧ link? (.oneToMany "Team" "RoleUser") = some ("Team", "RoleUser")
      ∧ "Team" ∈ drawnTeam.tables.map Table.name
      ∧ "RoleUser" ∈ drawnTeam.tables.map Table.name
      ∧ ∃ (a : Augmentation) (i k : Nat),
        a = augment { drawnTeam with relationships := [.manyToMany "Role" "User" none] }
          ∧ augment drawnTeam = [].foldl Augmentation.add (a.add (.oneToMany "Team" "RoleUser"))
          ∧ addressee? a.tables "RoleUser" = some i
          ∧ (a.add (.oneToMany "Team" "RoleUser")).tables
            = a.tables.modify i (·.ensureKey "Team")
          ∧ namesake? drawnTeam.tables "RoleUser" = some k
          ∧ i ≤ k
          ∧ (i = k ↔ ∀ u ∈ a.tables.take k, u.hasNameIn (lookupNames "RoleUser") = false)
          ∧ ((∀ t ∈ drawnTeam.tables.take k, t.hasNameIn (lookupNames "RoleUser") = false) → i = k)
          ∧ ∃ t c, (augment drawnTeam).tables[i]? = some t
            ∧ t ∈ (inferFromDiagram drawnTeam).tables
            ∧ (drawnTeam.tables.map Table.name)[i]? = some t.name
            ∧ t.column? (foreignKeyName "Team") = some c
            ∧ c.foreignKey = some (.toModel (modelName "Team")) :=
  have hlines : drawnTeam.relationships
      = [.manyToMany "Role" "User" none] ++ .oneToMany "Team" "RoleUser" :: [] := rfl
  have hparent : "Team" ∈ drawnTeam.tables.map Table.name := by decide
  have hchild : "RoleUser" ∈ drawnTeam.tables.map Table.name := by decide
  ⟨parse_teamText, hlines, rfl, hparent, hchild,
    link_keys_addressee parse_teamText hlines rfl hparent hchild⟩

/-- The line of `RoleUser` keys the pivot `role_user` before it, which then has three keys, and
`RoleUser` itself gets no column. -/
theorem team_keys_pivot :
    ∃ d, Document.parse teamText = .ok d
      ∧ .oneToMany "Team" "RoleUser" ∈ d.relationships
      ∧ "Team" ∈ d.tables.map Table.name ∧ "RoleUser" ∈ d.tables.map Table.name
      ∧ (∀ t ∈ (inferFromDiagram d).tables, t.name = "RoleUser" → t.columns = [])
      ∧ ∃ t ∈ (inferFromDiagram d).tables, t.name = "role_user" ∧ t.isPivot = true
        ∧ t.column? (foreignKeyName "Team") = some (.keyTo "team") := by
  refine ⟨drawnTeam, parse_teamText, by decide, by decide, by decide, ?_⟩
  rw [tables_team]
  decide

end Crowsfoot.Inference
