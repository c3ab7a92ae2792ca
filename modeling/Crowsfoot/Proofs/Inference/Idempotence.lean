import Crowsfoot.Proofs.Inference.Accounts
import Crowsfoot.Proofs.Inference.LineOrder
import Crowsfoot.Proofs.Naming.Entities

/-!
# Inferring a schema again

A schema is a document as well: its tables with its relationships. `inferFromDiagram_again`: the
schema of this document is the schema, if entities and the ends of lines are named in Pascal case
and the ends in the singular, and lines share a pivot only between the same models.

Lines do something else the second time. The keys of links are there, and the pivots that were made
up are found as drawn tables and adopted. `Settled` says that a line changes nothing all the same:

* `settled_link`: the child that a link finds has its key (`exists_column_of_link`), among tables
  that now include pivots, since domain tables come first.
* `settled_manyToMany`: only the pivot that was made up has its name, and it has the keys to the
  models that it is adopted for. For this the name of a model has to name the model again
  (`modelName_modelName`), and so has the name of the pivot (`pivotName_pivotName_of_isName`).
-/

namespace Crowsfoot.Inference

open Crowsfoot.Diagram Crowsfoot.Naming Crowsfoot.Text

/-! ## Keys that are there -/

/-- A key that is there is not ensured again. -/
theorem ensureKey_of_column? {t : Table} {parent : String} {c : Column}
    (h : t.column? (foreignKeyName parent) = some c) (hkey : c.foreignKey ≠ none) :
    t.ensureKey parent = t := by
  have hsame : modifyColumn (modelName parent ++ keySuffix)
      (·.withKey (.toModel (modelName parent))) t.columns = t.columns := by
    refine modifyColumn_eq_self fun d hd => ?_
    obtain rfl : c = d := Option.some.inj (h.symm.trans hd)
    unfold Column.withKey
    rw [if_neg]
    rwa [Option.isNone_iff_eq_none]
  have hthere : modelName parent ++ keySuffix ∈ t.columns.map Column.name := by
    obtain ⟨hc, hname⟩ := Table.column?_eq_some h
    exact List.mem_map.mpr ⟨c, hc, hname⟩
  refine Table.eq_of_parts (name_ensureKey t parent) ?_ (isPivot_ensureKey t parent)
  rw [columns_ensureKey, if_pos hthere, hsame]

theorem ensureKeys_eq_self {t : Table} {parents : List String}
    (h : ∀ parent ∈ parents, t.ensureKey parent = t) : ensureKeys t parents = t := by
  unfold ensureKeys
  induction parents with
  | nil => rfl
  | cons parent parents ih =>
    rw [List.foldl_cons, h parent List.mem_cons_self,
      ih fun other hother => h other (List.mem_cons_of_mem parent hother)]

/-- A pivot that is adopted for the models that it was made up for stays as it is. -/
theorem adopt_synthesizePivot {first second : String} {custom : Option String}
    (hmodels : ∀ model ∈ joinedModels first second, modelName model = model) :
    (synthesizePivot first second custom).adopt first second
      = synthesizePivot first second custom := by
  have hflagged : { synthesizePivot first second custom with isPivot := true }
      = synthesizePivot first second custom := rfl
  rw [adopt_eq, hflagged]
  refine ensureKeys_eq_self fun model hmodel => ?_
  refine ensureKey_of_column? (c := .keyTo model) ?_ (by simp [Column.keyTo])
  unfold foreignKeyName
  rw [hmodels model hmodel]
  exact column?_synthesizePivot hmodel

/-! ## Lines that change nothing -/

/-- A line changes nothing about the tables, and is kept as it is. -/
def Settled (ts : List Table) (r : Relationship) : Prop :=
  ∀ a : Augmentation, a.tables = ts → a.add r = a.keep r

theorem foldl_add_of_settled {rs : List Relationship} {a : Augmentation}
    (h : ∀ r ∈ rs, Settled a.tables r) :
    rs.foldl Augmentation.add a = { a with relationships := a.relationships ++ rs } := by
  induction rs generalizing a with
  | nil => rw [List.foldl_nil, List.append_nil]
  | cons r rs ih =>
    have hrest : ∀ s ∈ rs, Settled (a.keep r).tables s :=
      fun s hs => h s (List.mem_cons_of_mem r hs)
    rw [List.foldl_cons, h r List.mem_cons_self a rfl, ih hrest]
    unfold Augmentation.keep
    rw [List.append_assoc]
    rfl

/-- **A document whose lines are settled is its schema.** -/
theorem inferFromDiagram_of_settled {d : Document} (h : ∀ r ∈ d.relationships, Settled d.tables r)
    (horder : Table.order d.tables = d.tables) :
    inferFromDiagram d = { tables := d.tables, relationships := d.relationships } := by
  have hall : augment d = { tables := d.tables, relationships := d.relationships } :=
    foldl_add_of_settled (a := { tables := d.tables }) h
  unfold inferFromDiagram Augmentation.schema
  rw [hall]
  dsimp only
  rw [List.append_nil, horder]

/-- A link whose child has the key. -/
theorem settled_link {ts : List Table} {r : Relationship} {l : String × String}
    (hr : link? r = some l) (hparent : declared ts l.1 = true) {t : Table} {c : Column}
    (ht : findTable? ts l.2 = some t) (hc : t.column? (foreignKeyName l.1) = some c)
    (hkey : c.foreignKey ≠ none) : Settled ts r := by
  rintro a rfl
  have hsame : a.link l.1 l.2 = a := by
    unfold Augmentation.link
    rw [modifyFirst_eq_self]
    intro u hu
    obtain rfl : t = u := Option.some.inj (ht.symm.trans hu)
    exact ensureKey_of_column? hc hkey
  have hboth : (a.declares l.2 && a.declares l.1) = true := by
    have hchild : declared a.tables l.2 = true := Option.isSome_iff_exists.mpr ⟨t, ht⟩
    exact Bool.and_eq_true_iff.mpr ⟨hchild, hparent⟩
  cases r with
  | manyToMany => exact nomatch hr
  | oneToOne parent child | oneToMany parent child =>
    obtain rfl : (parent, child) = l := Option.some.inj hr
    unfold Augmentation.add
    dsimp only
    rw [if_pos hboth, hsame]

/-- A many-to-many line whose pivot is there. -/
theorem settled_manyToMany {ts : List Table} {first second name : String} {custom : Option String}
    (hdeclared : [first, second].all (declared ts) = true)
    (hagain : pivotName first second (some name) = name)
    (hmodels : ∀ model ∈ joinedModels first second, modelName model = model)
    (hfound : findDrawnPivot? ts name = some (synthesizePivot first second custom)) :
    Settled ts (.manyToMany first second (some name)) := by
  rintro a rfl
  have hsame : a.join first second (some name) = a := by
    have hmade : (synthesizePivot first second (some name)).name = name := hagain
    unfold Augmentation.join
    dsimp only
    rw [hmade, hfound]
    dsimp only
    rw [modifyFirst_eq_self]
    · have hreport : (synthesizePivot first second custom).adoptReport = [] := rfl
      rw [hreport, List.append_nil]
    · intro t ht
      obtain rfl : synthesizePivot first second custom = t :=
        Option.some.inj (hfound.symm.trans ht)
      exact adopt_synthesizePivot hmodels
  have hboth : (a.declares first && a.declares second) = true := by
    rw [← Augmentation.all_declared]
    exact hdeclared
  unfold Augmentation.add
  dsimp only
  rw [if_pos hboth, hsame, hagain]

/-! ## The schema as a document -/

section Again

variable {d : Document} (hdomain : ∀ t ∈ d.tables, t.isPivot = false)
  (hfree : ∀ r ∈ meant d.tables d.relationships, Unadopted d.tables r)
include hdomain hfree

/-- What the document declares the schema declares. -/
theorem declared_inferFromDiagram {name : String} (h : declared d.tables name = true) :
    declared (inferFromDiagram d).tables name = true := by
  rw [← declared_congr (map_bare_linkAll (links (meant d.tables d.relationships)) d.tables)] at h
  rw [(inferFromDiagram_eq hdomain hfree).1]
  unfold declared findTable? at h ⊢
  rw [List.find?_append, Option.isSome_or, h, Bool.true_or]

/-- **The pivot of a many-to-many line is found as a drawn table.** -/
theorem findDrawnPivot?_inferFromDiagram (hentities : ∀ t ∈ d.tables, IsCapitalized t.name)
    (hshare : SharePivots (meant d.tables d.relationships)) {first second : String}
    {custom : Option String} (hr : .manyToMany first second custom ∈ meant d.tables d.relationships) :
    findDrawnPivot? (inferFromDiagram d).tables (pivotName first second custom)
      = some (synthesizePivot first second custom) := by
  have hmade : synthesizePivot first second custom ∈ pivotsOf (meant d.tables d.relationships) :=
    (mem_pivotsOf hshare).mpr ⟨first, second, custom, hr, rfl⟩
  rw [(inferFromDiagram_eq hdomain hfree).1]
  unfold findDrawnPivot?
  obtain ⟨t, hfound⟩ : ∃ t, (linkAll (links (meant d.tables d.relationships)) d.tables
      ++ pivotsOf (meant d.tables d.relationships)).find?
        (·.name == pivotName first second custom) = some t :=
    Option.isSome_iff_exists.mp (List.find?_isSome.mpr
      ⟨_, List.mem_append_right _ hmade, beq_self_eq_true (pivotName first second custom)⟩)
  have hname : t.name = pivotName first second custom := by simpa using List.find?_some hfound
  rw [hfound]
  -- a domain table has no such name, and pivots of one name are the same
  rcases List.mem_append.mp (List.mem_of_find?_eq_some hfound) with ht | ht
  · obtain ⟨u, hu, parents, -, rfl⟩ := mem_linkAll ht
    rw [name_ensureKeys] at hname
    exact absurd hname (hentities u hu).ne_pivotName
  · obtain ⟨a, b, own, hown, rfl⟩ := eq_of_mem_pivotsOf ht
    rw [synthesizePivot_congr hname (hshare _ hown _ hr (congrArg some hname))]

end Again

/-- **Inferring a schema again changes nothing.** If entities are named in Pascal case, the ends of
lines are spelled in Pascal case and in the singular, and lines with the same pivot join the same
models, then the document that holds the tables and the relationships of the schema has these tables
and relationships as its schema, and no unresolved references. -/
theorem inferFromDiagram_again {text : String} {d : Document} (hparse : Document.parse text = .ok d)
    (hentities : ∀ t ∈ d.tables, IsCapitalized t.name)
    (hends : ∀ r ∈ d.relationships, ∀ name ∈ r.ends, IsPascal name ∧ isSingular name = true)
    (hshare : SharePivots (meant d.tables d.relationships)) :
    inferFromDiagram
        { tables := (inferFromDiagram d).tables
          relationships := (inferFromDiagram d).relationships }
      = { tables := (inferFromDiagram d).tables
          relationships := (inferFromDiagram d).relationships } := by
  have hparsed := parsedDocument hparse
  have hdomain : ∀ t ∈ d.tables, t.isPivot = false := fun t ht => (hparsed.tables t ht).domain
  have hfree : ∀ r ∈ meant d.tables d.relationships, Unadopted d.tables r :=
    fun _ _ => unadopted_of_capitalized hentities
  -- each line that is kept is settled among the tables of the schema
  refine inferFromDiagram_of_settled ?_ (Table.order_order _)
  show ∀ r ∈ (inferFromDiagram d).relationships, Settled (inferFromDiagram d).tables r
  rw [(inferFromDiagram_eq hdomain hfree).2]
  intro _ hr
  obtain ⟨r, hmeant, rfl⟩ := List.mem_map.mp hr
  obtain ⟨hmem, hall⟩ := List.mem_filter.mp hmeant
  have hdeclared : ∀ name ∈ r.ends, declared (inferFromDiagram d).tables name = true :=
    fun name hname => declared_inferFromDiagram hdomain hfree (List.all_eq_true.mp hall name hname)
  cases r with
  | oneToOne parent child | oneToMany parent child =>
    have hlink : (parent, child) ∈ links (meant d.tables d.relationships) :=
      List.mem_filterMap.mpr ⟨_, hmeant, rfl⟩
    obtain ⟨t, c, ht, hc, hkey⟩ := exists_column_of_link hparsed hfree hlink
    exact settled_link rfl (hdeclared parent List.mem_cons_self) ht hc (by simp [hkey])
  | manyToMany first second custom =>
    have hfirst := hends _ hmem first (by simp [Relationship.ends])
    have hsecond := hends _ hmem second (by simp [Relationship.ends])
    have hlabel : ∀ label ∈ custom, IsName label := fun label hlabel =>
      (hparsed.relationships _ hmem).label first second label (by rw [hlabel])
    refine settled_manyToMany (List.all_eq_true.mpr hdeclared)
      (pivotName_pivotName_of_isName hfirst.1 hsecond.1 hlabel) ?_
      (findDrawnPivot?_inferFromDiagram hdomain hfree hentities hshare hmeant)
    intro model hmodel
    rcases mem_joinedModels.mp hmodel with rfl | rfl
    · exact modelName_modelName hfirst.1 hfirst.2
    · exact modelName_modelName hsecond.1 hsecond.2

theorem inferFromDiagram_again_roles :
    (∀ t ∈ drawnRoles.tables, IsCapitalized t.name)
      ∧ (∀ r ∈ drawnRoles.relationships, ∀ name ∈ r.ends, IsPascal name ∧ isSingular name = true)
      ∧ SharePivots (meant drawnRoles.tables drawnRoles.relationships)
      ∧ ∃ d, Document.parse rolesText = .ok d
        ∧ inferFromDiagram
            { tables := (inferFromDiagram d).tables
              relationships := (inferFromDiagram d).relationships }
          = { tables := (inferFromDiagram d).tables
              relationships := (inferFromDiagram d).relationships } := by
  have hentities : ∀ t ∈ drawnRoles.tables, IsCapitalized t.name := by decide
  have hnames : ∀ name ∈ ["User", "Role", "Post", "Team"],
      IsPascal name ∧ isSingular name = true := by
    intro name hname
    simp only [List.mem_cons, List.not_mem_nil, or_false] at hname
    rcases hname with rfl | rfl | rfl | rfl
    · exact ⟨⟨["User".toList], by decide⟩, by decide⟩
    · exact ⟨⟨["Role".toList], by decide⟩, by decide⟩
    · exact ⟨⟨["Post".toList], by decide⟩, by decide⟩
    · exact ⟨⟨["Team".toList], by decide⟩, by decide⟩
  have hends : ∀ r ∈ drawnRoles.relationships, ∀ name ∈ r.ends,
      IsPascal name ∧ isSingular name = true := by
    have hspelled : ∀ r ∈ drawnRoles.relationships, ∀ name ∈ r.ends,
        name ∈ ["User", "Role", "Post", "Team"] := by
      decide
    exact fun r hr name hname => hnames name (hspelled r hr name hname)
  have hshare : SharePivots (meant drawnRoles.tables drawnRoles.relationships) := by
    decide
  exact ⟨hentities, hends, hshare, _, parse_rolesText,
    inferFromDiagram_again parse_rolesText hentities hends hshare⟩

end Crowsfoot.Inference
