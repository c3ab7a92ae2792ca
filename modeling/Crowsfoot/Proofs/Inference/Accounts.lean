import Crowsfoot.Proofs.Inference.Sound

/-!
# Where the foreign keys of a diagram come from

Relationship lines put foreign keys on drawn tables and make pivots of them. `Accounted` says that
the relationships that are kept account for both: a domain table has only the keys of links that it
answers, a drawn table is a pivot only if it joins entities, and then it has the keys to all
entities that it joins. Lines keep this (`Accounted.link`, `Accounted.join`), so it is true of what
a document leads to (`accounted_augment`).

A drawn pivot is the first table of its name (`Accounted.first`), which is why later lines find it
again. What a line can do to a drawn table is said once, in `forall₂_add`; what all lines do follows
from it for every relation that goes together (`forall₂_addAll`).
-/

namespace Crowsfoot.Inference

open Crowsfoot.Diagram Crowsfoot.Naming

/-! ## Keys to models -/

/-- A table with the keys to these models and no others, each on the column of its name. -/
structure KeyedTo (models : List String) (t : Table) : Prop where
  keyed : Keyed models t.columns
  named : ∀ model ∈ models, model ++ keySuffix ∈ t.columns.map Column.name

section KeyedTo

variable {models : List String} {t : Table}

theorem KeyedTo.foreignKey (h : KeyedTo models t) {c : Column} (hc : c ∈ t.columns)
    {key : ForeignKey} :
    c.foreignKey = some key
      ↔ ∃ model ∈ models, model ++ keySuffix = c.name ∧ ForeignKey.toModel model = key := by
  have hkey : keyOf models c.name = c.foreignKey :=
    congrArg Column.foreignKey (h.keyed.keys c hc)
  rw [← hkey, keyOf_eq_some]

theorem KeyedTo.exists_column (h : KeyedTo models t) {model : String} (hmodel : model ∈ models) :
    ∃ c ∈ t.columns, c.name = model ++ keySuffix ∧ c.foreignKey = some (.toModel model) := by
  obtain ⟨c, hc, hname⟩ := List.mem_map.mp (h.named model hmodel)
  exact ⟨c, hc, hname, (h.foreignKey hc).mpr ⟨model, hmodel, hname.symm, rfl⟩⟩

/-- The column of a key is found by its name. -/
theorem KeyedTo.column? (h : KeyedTo models t) {model : String} (hmodel : model ∈ models) :
    ∃ c, t.column? (model ++ keySuffix) = some c ∧ c.foreignKey = some (.toModel model) := by
  obtain ⟨c, hfound⟩ := Table.exists_column? (h.named model hmodel)
  obtain ⟨hc, hname⟩ := Table.column?_eq_some hfound
  exact ⟨c, hfound, (h.foreignKey hc).mpr ⟨model, hmodel, hname.symm, rfl⟩⟩

theorem KeyedTo.ensureKey (h : KeyedTo models t) (parent : String) :
    KeyedTo (models ++ [modelName parent]) (t.ensureKey parent) := by
  refine ⟨h.keyed.ensureKey parent, fun model hmodel => ?_⟩
  rw [map_name_ensureKey]
  rcases List.mem_append.mp hmodel with hmodel | hmodel
  · split
    · exact h.named model hmodel
    · exact List.mem_append_left _ (h.named model hmodel)
  · rw [List.mem_singleton.mp hmodel]
    split
    · assumption
    · exact List.mem_append_right _ (List.mem_singleton_self _)

theorem KeyedTo.ensureKeys (h : KeyedTo models t) (parents : List String) :
    KeyedTo (models ++ parents.map modelName) (ensureKeys t parents) := by
  unfold Inference.ensureKeys
  induction parents generalizing t models with
  | nil =>
    rw [List.map_nil, List.append_nil]
    exact h
  | cons parent parents ih =>
    have hrest := ih (h.ensureKey parent)
    rwa [List.append_assoc, List.singleton_append, ← List.map_cons] at hrest

theorem KeyedTo.adopt (h : KeyedTo models t) (first second : String) :
    KeyedTo (models ++ (joinedModels first second).map modelName) (t.adopt first second) := by
  have hflagged : KeyedTo models { t with isPivot := true } := ⟨h.keyed, h.named⟩
  rw [adopt_eq]
  exact hflagged.ensureKeys _

theorem keyedTo_of_parsed (h : ParsedTable t) : KeyedTo [] t := by
  refine ⟨⟨h.distinct, fun c hc => ?_⟩, by simp⟩
  have hnone : c.foreignKey = none := by
    rw [← (h.columns c hc).complete]
    rfl
  rw [(h.columns c hc).complete]
  unfold withKeyOf keyOf
  rw [List.find?_nil, Option.map_none, ← hnone]

end KeyedTo

/-- **The child of a link has the key to its parent**, where no pivot is drawn. -/
theorem exists_column_of_link {d : Document} (hparsed : ParsedDocument d)
    (hfree : ∀ r ∈ meant d.tables d.relationships, Unadopted d.tables r) {l : String × String}
    (hlink : l ∈ links (meant d.tables d.relationships)) :
    ∃ t c, (inferFromDiagram d).table? l.2 = some t ∧ t.column? (foreignKeyName l.1) = some c
      ∧ c.foreignKey = some (.toModel (modelName l.1)) := by
  have htables := (inferFromDiagram_eq (fun t ht => (hparsed.tables t ht).domain) hfree).1
  obtain ⟨t, ht⟩ : ∃ t, (linkAll (links (meant d.tables d.relationships)) d.tables).find?
      (answers · l) = some t := by
    have hdeclared := (mem_links_meant.mp hlink).2.2
    rw [← declared_congr (map_bare_linkAll (links (meant d.tables d.relationships)) d.tables)]
      at hdeclared
    exact Option.isSome_iff_exists.mp hdeclared
  have hfound : (inferFromDiagram d).table? l.2 = some t := by
    unfold Schema.table? findTable?
    rw [htables, List.find?_append]
    exact congrArg (Option.or · _) ht
  obtain ⟨u, hu, parents, hparent, rfl⟩ := find?_linkAll hlink ht
  have hkeyed : KeyedTo ([] ++ parents.map modelName) (ensureKeys u parents) :=
    (keyedTo_of_parsed (hparsed.tables u hu)).ensureKeys parents
  have hmodel : modelName l.1 ∈ [] ++ parents.map modelName := List.mem_map_of_mem hparent
  obtain ⟨c, hc, hkey⟩ := hkeyed.column? hmodel
  exact ⟨_, c, hfound, hc, hkey⟩

/-! ## Changing the first table of a kind -/

section ModifyFirst

variable {p q : Table → Bool} {f : Table → Table} {ts : List Table}

/-- Changing nothing about the table that is found changes nothing. -/
theorem modifyFirst_eq_self (h : ∀ t, ts.find? p = some t → f t = t) : modifyFirst p f ts = ts := by
  induction ts with
  | nil => rfl
  | cons t ts ih =>
    unfold modifyFirst
    rw [List.find?_cons] at h
    cases hp : p t with
    | true =>
      rw [hp] at h
      rw [if_pos rfl, h t rfl]
    | false =>
      rw [hp] at h
      rw [if_neg Bool.false_ne_true, ih h]

/-- What is looked for by what does not change is found where it was. -/
theorem find?_modifyFirst (hq : ∀ t, q (f t) = q t) {u : Table}
    (h : (modifyFirst p f ts).find? q = some u) :
    ∃ t, ts.find? q = some t ∧ (u = t ∨ u = f t) := by
  induction ts with
  | nil => exact nomatch h
  | cons t ts ih =>
    unfold modifyFirst at h
    rw [List.find?_cons]
    split at h
    · rw [List.find?_cons, hq] at h
      split at h
      · exact ⟨t, rfl, Or.inr (Option.some.inj h).symm⟩
      · exact ⟨u, h, Or.inl rfl⟩
    · rw [List.find?_cons] at h
      split at h
      · exact ⟨t, rfl, Or.inl (Option.some.inj h).symm⟩
      · exact ih h

/-- What is looked for like what is changed is found changed. -/
theorem find?_modifyFirst_self (hp : ∀ t, p (f t) = p t) :
    (modifyFirst p f ts).find? p = (ts.find? p).map f := by
  induction ts with
  | nil => rfl
  | cons t ts ih =>
    unfold modifyFirst
    rw [List.find?_cons]
    cases ht : p t with
    | true => rw [if_pos rfl, List.find?_cons, hp, ht, Option.map_some]
    | false => rw [if_neg Bool.false_ne_true, List.find?_cons, ht, ih]

end ModifyFirst

/-! ## Pivots among drawn tables -/

/-- A pivot is the first table of its name. -/
def PivotsFirst (ts : List Table) : Prop :=
  ts.Pairwise fun t u => u.isPivot = true → t.name ≠ u.name

theorem PivotsFirst.find? {ts : List Table} (h : PivotsFirst ts) {t : Table} (ht : t ∈ ts)
    (hpivot : t.isPivot = true) : findDrawnPivot? ts t.name = some t := by
  unfold findDrawnPivot?
  induction ts with
  | nil => exact absurd ht (by simp)
  | cons u ts ih =>
    obtain ⟨hhead, htail⟩ := List.pairwise_cons.mp h
    rw [List.find?_cons]
    rcases List.mem_cons.mp ht with rfl | ht
    · rw [beq_self_eq_true]
    · rw [beq_eq_false_iff_ne.mpr (hhead t ht hpivot)]
      exact ih htail ht

/-- Tables keep their names, and a table becomes a pivot only as the first of its name. -/
theorem PivotsFirst.modifyFirst {ts : List Table} (h : PivotsFirst ts) {p : Table → Bool}
    {f : Table → Table} (hname : ∀ t, (f t).name = t.name)
    (hnew : ∀ t u, p t = false → p u = true → (f u).isPivot = true →
      u.isPivot = true ∨ t.name ≠ u.name) : PivotsFirst (modifyFirst p f ts) := by
  induction ts with
  | nil => exact h
  | cons t ts ih =>
    obtain ⟨hhead, htail⟩ := List.pairwise_cons.mp h
    unfold Crowsfoot.modifyFirst
    cases ht : p t with
    | true =>
      rw [if_pos rfl]
      refine List.pairwise_cons.mpr ⟨fun u hu hpivot => ?_, htail⟩
      rw [hname]
      exact hhead u hu hpivot
    | false =>
      rw [if_neg Bool.false_ne_true]
      refine List.pairwise_cons.mpr ⟨fun u hu hpivot => ?_, ih htail⟩
      rcases mem_modifyFirst hu with hu | ⟨v, hv, hpv, rfl⟩
      · exact hhead u hu hpivot
      · rw [hname]
        exact (hnew t v ht hpv hpivot).elim (hhead v hv) id

/-! ## Tables that relationships account for -/

/-- Relationships account for the keys of drawn tables, and for their being pivots. -/
structure Accounted (ts : List Table) (rs : List Relationship) : Prop where
  first : PivotsFirst ts
  /-- A domain table has only the keys of links that it answers. -/
  linked : ∀ t ∈ ts, t.isPivot = false → ∃ models, KeyedTo models t
    ∧ ∀ model ∈ models, ∃ l ∈ links rs, answers t l = true ∧ modelName l.1 = model
  /-- A pivot joins entities. -/
  adopted : ∀ t ∈ ts, t.isPivot = true → ∃ first second, .manyToMany first second (some t.name) ∈ rs
  /-- A table that joins entities is a pivot and has the keys to them. -/
  joined : ∀ first second name, .manyToMany first second (some name) ∈ rs →
    ∀ t, findDrawnPivot? ts name = some t → t.isPivot = true ∧ ∃ models, KeyedTo models t
      ∧ ∀ entity ∈ [first, second], modelName (modelName entity) ∈ models

section Accounted

variable {ts : List Table} {rs : List Relationship}

theorem Accounted.keyedTo (h : Accounted ts rs) {t : Table} (ht : t ∈ ts) :
    ∃ models, KeyedTo models t := by
  cases hpivot : t.isPivot with
  | false =>
    obtain ⟨models, hkeyed, -⟩ := h.linked t ht hpivot
    exact ⟨models, hkeyed⟩
  | true =>
    obtain ⟨first, second, hr⟩ := h.adopted t ht hpivot
    obtain ⟨-, models, hkeyed, -⟩ := h.joined first second t.name hr t (h.first.find? ht hpivot)
    exact ⟨models, hkeyed⟩

theorem mem_links_concat {r : Relationship} {l : String × String} (h : l ∈ links rs) :
    l ∈ links (rs ++ [r]) := by
  unfold links at h ⊢
  rw [List.filterMap_append]
  exact List.mem_append_left _ h

/-- What accounts for the keys of a table does so with more relationships. -/
theorem Accounted.linked_concat (h : Accounted ts rs) (r : Relationship) {t : Table} (ht : t ∈ ts)
    (hdomain : t.isPivot = false) : ∃ models, KeyedTo models t
      ∧ ∀ model ∈ models, ∃ l ∈ links (rs ++ [r]), answers t l = true ∧ modelName l.1 = model := by
  obtain ⟨models, hkeyed, hlinks⟩ := h.linked t ht hdomain
  refine ⟨models, hkeyed, fun model hmodel => ?_⟩
  obtain ⟨l, hl, hsame⟩ := hlinks model hmodel
  exact ⟨l, mem_links_concat hl, hsame⟩

/-- **A link that is kept accounts for the key** that it puts on a table. -/
theorem Accounted.link (h : Accounted ts rs) {r : Relationship} {l : String × String}
    (hlink : link? r = some l) : Accounted (linkOne ts l) (rs ++ [r]) := by
  have hnew : l ∈ links (rs ++ [r]) := by
    unfold links
    exact List.mem_filterMap.mpr ⟨r, List.mem_append_right _ (List.mem_singleton_self r), hlink⟩
  constructor
  case first =>
    refine h.first.modifyFirst (fun t => name_ensureKey t l.1) fun t u _ _ hpivot => Or.inl ?_
    rwa [isPivot_ensureKey] at hpivot
  case linked =>
    intro u hu hdomain
    rcases mem_modifyFirst hu with hu | ⟨t, ht, hanswers, rfl⟩
    · exact h.linked_concat r hu hdomain
    · rw [isPivot_ensureKey] at hdomain
      obtain ⟨models, hkeyed, hlinks⟩ := h.linked_concat r ht hdomain
      refine ⟨_, hkeyed.ensureKey l.1, fun model hmodel => ?_⟩
      simp only [answers_ensureKey]
      rcases List.mem_append.mp hmodel with hmodel | hmodel
      · exact hlinks model hmodel
      · exact ⟨l, hnew, hanswers, (List.mem_singleton.mp hmodel).symm⟩
  case adopted =>
    intro u hu hpivot
    obtain ⟨t, ht, hname, hflag⟩ : ∃ t ∈ ts, t.name = u.name ∧ t.isPivot = true := by
      rcases mem_modifyFirst hu with hu | ⟨t, ht, -, rfl⟩
      · exact ⟨u, hu, rfl, hpivot⟩
      · exact ⟨t, ht, (name_ensureKey t l.1).symm, (isPivot_ensureKey t l.1).symm.trans hpivot⟩
    obtain ⟨first, second, hr⟩ := h.adopted t ht hflag
    exact ⟨first, second, List.mem_append_left _ (hname ▸ hr)⟩
  case joined =>
    intro first second name hr u hu
    have hr : .manyToMany first second (some name) ∈ rs := by
      rcases List.mem_append.mp hr with hr | hr
      · exact hr
      · rw [← List.mem_singleton.mp hr] at hlink
        exact nomatch hlink
    obtain ⟨t, hfound, hu⟩ :=
      find?_modifyFirst (fun t => by rw [name_ensureKey t l.1]) hu
    obtain ⟨hflag, models, hkeyed, hmodels⟩ := h.joined first second name hr t hfound
    rcases hu with rfl | rfl
    · exact ⟨hflag, models, hkeyed, hmodels⟩
    · refine ⟨(isPivot_ensureKey t l.1).trans hflag, _, hkeyed.ensureKey l.1, fun entity he => ?_⟩
      exact List.mem_append_left _ (hmodels entity he)

/-- **A pivot that is kept accounts for the table that is drawn under its name.** -/
theorem Accounted.join (h : Accounted ts rs) (first second name : String) :
    Accounted (modifyFirst (·.name == name) (·.adopt first second) ts)
      (rs ++ [.manyToMany first second (some name)]) := by
  have hsame : ∀ other, ∀ t : Table, ((t.adopt first second).name == other) = (t.name == other) :=
    fun other t => by rw [name_adopt]
  constructor
  case first =>
    have hname : ∀ t : Table, (t.adopt first second).name = t.name :=
      fun t => name_adopt t first second
    refine h.first.modifyFirst hname fun t u ht hu _ => Or.inr ?_
    rw [beq_iff_eq.mp hu]
    exact beq_eq_false_iff_ne.mp ht
  case linked =>
    intro u hu hdomain
    rcases mem_modifyFirst hu with hu | ⟨t, -, -, heq⟩
    · exact h.linked_concat _ hu hdomain
    · rw [heq, isPivot_adopt] at hdomain
      exact nomatch hdomain
  case adopted =>
    intro u hu hpivot
    rcases mem_modifyFirst hu with hu | ⟨t, -, hname, heq⟩
    · obtain ⟨one, other, hr⟩ := h.adopted u hu hpivot
      exact ⟨one, other, List.mem_append_left _ hr⟩
    · refine ⟨first, second, List.mem_append_right _ ?_⟩
      rw [heq, name_adopt, beq_iff_eq.mp hname]
      exact List.mem_singleton_self _
  case joined =>
    intro one other pivot hr u hu
    rcases List.mem_append.mp hr with hr | hr
    · obtain ⟨t, hfound, hu⟩ := find?_modifyFirst (q := (·.name == pivot)) (hsame pivot) hu
      obtain ⟨hflag, models, hkeyed, hmodels⟩ := h.joined one other pivot hr t hfound
      rcases hu with heq | heq
      · rw [heq]
        exact ⟨hflag, models, hkeyed, hmodels⟩
      · rw [heq]
        refine ⟨isPivot_adopt t first second, _, hkeyed.adopt first second, fun entity he => ?_⟩
        exact List.mem_append_left _ (hmodels entity he)
    · obtain ⟨rfl, rfl, hpivot⟩ := Relationship.manyToMany.inj (List.mem_singleton.mp hr)
      obtain rfl : pivot = name := Option.some.inj hpivot
      unfold findDrawnPivot? at hu
      rw [find?_modifyFirst_self (p := (·.name == pivot)) (hsame pivot)] at hu
      obtain ⟨t, hfound, heq⟩ := Option.map_eq_some_iff.mp hu
      obtain ⟨models, hkeyed⟩ := h.keyedTo (List.mem_of_find?_eq_some hfound)
      rw [← heq]
      refine ⟨isPivot_adopt t one other, _, hkeyed.adopt one other, fun entity he => ?_⟩
      refine List.mem_append_right _ (List.mem_map_of_mem (mem_joinedModels.mpr ?_))
      rcases List.mem_pair.mp he with rfl | rfl
      · exact Or.inl rfl
      · exact Or.inr rfl

end Accounted

/-! ## Lines -/

section Lines

variable {a : Augmentation}

/-- Joining two entities adopts the table drawn under the name of their pivot, if there is one. -/
theorem tables_join (a : Augmentation) (first second : String) (custom : Option String) :
    (a.join first second custom).tables
      = modifyFirst (·.name == pivotName first second custom) (·.adopt first second) a.tables := by
  have hmade : (synthesizePivot first second custom).name = pivotName first second custom := rfl
  unfold Augmentation.join
  dsimp only
  rw [hmade]
  split
  · rfl
  · rename_i hnone
    rw [modifyFirst_eq_self fun t ht => nomatch hnone.symm.trans ht]
    split <;> rfl

theorem relationships_join (a : Augmentation) (first second : String) (custom : Option String) :
    (a.join first second custom).relationships = a.relationships := by
  unfold Augmentation.join
  dsimp only
  split
  · rfl
  · split <;> rfl

/-- **What a line does is accounted for.** -/
theorem Accounted.add (h : Accounted a.tables a.relationships) (r : Relationship) :
    Accounted (a.add r).tables (a.add r).relationships := by
  cases r with
  | oneToOne parent child | oneToMany parent child =>
    unfold Augmentation.add
    dsimp only
    split
    · show Accounted (linkOne a.tables (parent, child)) (a.relationships ++ [_])
      exact h.link rfl
    · exact h
  | manyToMany first second custom =>
    unfold Augmentation.add
    dsimp only
    split
    · have hjoin := h.join first second (pivotName first second custom)
      rwa [← tables_join a first second custom, ← relationships_join a first second custom] at hjoin
    · exact h

/-- **What a line does to the drawn tables.** Each stays as it is, gets a key, or is adopted under
the name of a pivot. -/
theorem forall₂_add {R : Table → Table → Prop} (hsame : ∀ t, R t t)
    (hkey : ∀ t parent, R t (t.ensureKey parent))
    (hadopt : ∀ t first second custom, t.name = pivotName first second custom →
      R t (t.adopt first second)) (a : Augmentation) (r : Relationship) :
    List.Forall₂ R a.tables (a.add r).tables := by
  have hrefl : List.Forall₂ R a.tables a.tables := List.forall₂_same.mpr fun t _ => hsame t
  cases r with
  | oneToOne parent child | oneToMany parent child =>
    unfold Augmentation.add
    dsimp only
    split
    · exact forall₂_modifyFirst hsame (fun t _ => hkey t parent) a.tables
    · exact hrefl
  | manyToMany first second custom =>
    unfold Augmentation.add
    dsimp only
    split
    · show List.Forall₂ R a.tables (a.join first second custom).tables
      rw [tables_join]
      exact forall₂_modifyFirst hsame
        (fun t ht => hadopt t first second custom (beq_iff_eq.mp ht)) a.tables
    · exact hrefl

/-- Lines one after another do what each of them does. -/
theorem forall₂_addAll {R : Table → Table → Prop} (htrans : ∀ t u v, R t u → R u v → R t v)
    (hsame : ∀ t, R t t) (hkey : ∀ t parent, R t (t.ensureKey parent))
    (hadopt : ∀ t first second custom, t.name = pivotName first second custom →
      R t (t.adopt first second)) (a : Augmentation) (rs : List Relationship) :
    List.Forall₂ R a.tables (rs.foldl Augmentation.add a).tables := by
  induction rs generalizing a with
  | nil => exact List.forall₂_same.mpr fun t _ => hsame t
  | cons r rs ih =>
    exact forall₂_trans (R := R) htrans (forall₂_add hsame hkey hadopt a r) (ih (a.add r))

/-- Every pivot that a line adds is made up of what the line says. -/
theorem pivots_add (a : Augmentation) (r : Relationship) {p : Table} (h : p ∈ (a.add r).pivots) :
    p ∈ a.pivots ∨ ∃ first second custom,
      r = .manyToMany first second custom ∧ p = synthesizePivot first second custom := by
  cases r with
  | oneToOne parent child | oneToMany parent child =>
    unfold Augmentation.add at h
    dsimp only at h
    split at h <;> exact Or.inl h
  | manyToMany first second custom =>
    unfold Augmentation.add at h
    dsimp only at h
    split at h
    · have h : p ∈ (a.join first second custom).pivots := h
      unfold Augmentation.join at h
      dsimp only at h
      split at h
      · exact Or.inl h
      · split at h
        · exact Or.inl h
        · exact (List.mem_append.mp h).imp_right
            fun h => ⟨first, second, custom, rfl, List.mem_singleton.mp h⟩
    · exact Or.inl h

theorem Accounted.addAll (h : Accounted a.tables a.relationships) (rs : List Relationship) :
    Accounted (rs.foldl Augmentation.add a).tables (rs.foldl Augmentation.add a).relationships := by
  induction rs generalizing a with
  | nil => exact h
  | cons r rs ih => exact ih (h.add r)

theorem map_name_addAll (a : Augmentation) (rs : List Relationship) :
    (rs.foldl Augmentation.add a).tables.map Table.name = a.tables.map Table.name := by
  have hnames := forall₂_addAll (R := fun t u => u.name = t.name) (fun _ _ _ h h' => h'.trans h)
    (fun _ => rfl) name_ensureKey (fun t first second _ _ => name_adopt t first second) a rs
  rw [← List.forall₂_eq_eq_eq, List.forall₂_map_left_iff, List.forall₂_map_right_iff]
  exact hnames.flip

theorem pivots_addAll (a : Augmentation) (rs : List Relationship) {p : Table}
    (h : p ∈ (rs.foldl Augmentation.add a).pivots) :
    p ∈ a.pivots ∨ ∃ first second custom,
      .manyToMany first second custom ∈ rs ∧ p = synthesizePivot first second custom := by
  induction rs generalizing a with
  | nil => exact Or.inl h
  | cons r rs ih =>
    rcases ih (a.add r) h with h | ⟨first, second, custom, hmem, hp⟩
    · rcases pivots_add a r h with h | ⟨first, second, custom, rfl, hp⟩
      · exact Or.inl h
      · exact Or.inr ⟨first, second, custom, List.mem_cons_self, hp⟩
    · exact Or.inr ⟨first, second, custom, List.mem_cons_of_mem r hmem, hp⟩

end Lines

variable {d : Document}

/-- **What a document leads to is accounted for**: no key and no pivot among its tables without the
relationship that asks for it. -/
theorem accounted_augment (h : ParsedDocument d) :
    Accounted (augment d).tables (augment d).relationships := by
  refine Accounted.addAll (a := { tables := d.tables }) ?_ d.relationships
  have hdomain : ∀ t ∈ d.tables, t.isPivot ≠ true := by
    intro t ht
    rw [(h.tables t ht).domain]
    exact Bool.false_ne_true
  refine ⟨?_, ?_, ?_, by simp⟩
  · exact List.pairwise_of_forall_mem_list fun t _ u hu hpivot => absurd hpivot (hdomain u hu)
  · exact fun t ht _ => ⟨[], keyedTo_of_parsed (h.tables t ht), by simp⟩
  · exact fun t ht hpivot => absurd hpivot (hdomain t ht)

/-- Pivots beside the drawn tables are made up. -/
theorem eq_synthesizePivot_of_mem_pivots {p : Table} (h : p ∈ (augment d).pivots) :
    ∃ first second custom, .manyToMany first second custom ∈ d.relationships
      ∧ p = synthesizePivot first second custom :=
  (pivots_addAll { tables := d.tables } d.relationships h).resolve_left (by simp)

/-- Lines do not rename, add or drop drawn tables. -/
theorem map_name_augment (d : Document) :
    (augment d).tables.map Table.name = d.tables.map Table.name :=
  map_name_addAll { tables := d.tables } d.relationships

end Crowsfoot.Inference
