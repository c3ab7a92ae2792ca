import Mathlib.Data.List.Find
import Crowsfoot.Proofs.Inference.Sound
import Crowsfoot.Proofs.Naming.Pascal

/-!
# The keys of pivots that are made up

Many-to-many relationships share a pivot if it has the same name, and it is made up for the first of
them (`pivotOf?_inferFromDiagram`). `keys_of_manyToMany` says what that means for the others: the
pivot has the foreign keys of both entities exactly if the first relationship joins the same models,
and the keys lead where the conventions for tables do. For names in Pascal case they do
(`Naming.pluralize_snake`).

So a label that is used again for other entities leaves these without a pivot of their own
(`misses_keys_membership`).
-/

namespace Crowsfoot.Inference

open Crowsfoot.Diagram Crowsfoot.Naming

/-- A table has the key column of an entity, which refers to the table the entity is stored in. -/
def HasKeyOf (p : Table) (entity : String) : Prop :=
  ∃ c ∈ p.columns, c.name = snake entity ++ keySuffix
    ∧ c.foreignKey = some { table := tableName entity, column := "id" }

/-- Whether a relationship has this pivot. -/
def joinsThrough (pivot : Option String) : Relationship → Bool
  | .manyToMany _ _ own => own == pivot
  | _ => false

theorem joinsThrough_eq_true {pivot : Option String} {r : Relationship} :
    joinsThrough pivot r = true ↔ ∃ first second, r = .manyToMany first second pivot := by
  cases r with
  | oneToOne | oneToMany => simp [joinsThrough]
  | manyToMany first second own =>
    simp only [joinsThrough, beq_iff_eq, Relationship.manyToMany.injEq]
    constructor
    · rintro rfl
      exact ⟨first, second, rfl, rfl, rfl⟩
    · rintro ⟨_, _, -, -, h⟩
      exact h

/-! ## Which pivot is found -/

/-- Pivots that are there are found where they were. -/
theorem find?_foldl_addPivot {q : Table → Bool} {ps : List Table} {p : Table}
    (h : ps.find? q = some p) (rs : List Relationship) :
    (rs.foldl addPivot ps).find? q = some p := by
  induction rs generalizing ps with
  | nil => exact h
  | cons r rs ih =>
    refine ih ?_
    cases r with
    | oneToOne | oneToMany => exact h
    | manyToMany first second custom =>
      unfold addPivot
      dsimp only
      split
      · exact h
      · rw [List.find?_append, h, Option.some_or]

/-- **The pivot of a name is that of the first relationship that asks for it.** -/
theorem find?_pivotsOf {before after : List Relationship} {a b name : String}
    {custom : Option String} (hfirst : ∀ r ∈ before, pivotName? r ≠ some name)
    (hname : pivotName a b custom = name) :
    (pivotsOf (before ++ .manyToMany a b custom :: after)).find? (·.name == name)
      = some (synthesizePivot a b custom) := by
  have hfresh : ∀ p ∈ pivotsOf before, (p.name == name) = false := by
    intro p hp
    obtain ⟨first, second, own, hr, rfl⟩ := eq_of_mem_pivotsOf hp
    rw [beq_eq_false_iff_ne]
    exact fun heq => hfirst _ hr (congrArg some heq)
  have hadded : addPivot (pivotsOf before) (.manyToMany a b custom)
      = pivotsOf before ++ [synthesizePivot a b custom] := by
    unfold addPivot
    dsimp only
    rw [if_neg]
    intro hany
    obtain ⟨p, hp, heq⟩ := List.any_eq_true.mp hany
    rw [hname, hfresh p hp] at heq
    exact nomatch heq
  have hthere : (addPivot (pivotsOf before) (.manyToMany a b custom)).find? (·.name == name)
      = some (synthesizePivot a b custom) := by
    have hnone : (pivotsOf before).find? (·.name == name) = none :=
      List.find?_eq_none.mpr fun p hp => by rw [hfresh p hp]; exact Bool.false_ne_true
    have hmade : (synthesizePivot a b custom).name = name := hname
    rw [hadded, List.find?_append, hnone, Option.none_or, List.find?_singleton, hmade,
      beq_self_eq_true, if_pos rfl]
  unfold pivotsOf at hthere ⊢
  rw [List.foldl_append, List.foldl_cons]
  exact find?_foldl_addPivot hthere after

/-- The pivot of a name in the schema of a diagram in Pascal case. -/
theorem pivotOf?_inferFromDiagram {d : Document} (hparsed : ParsedDocument d)
    (hnames : ∀ t ∈ d.tables, IsCapitalized t.name) {before after : List Relationship}
    {a b name : String} {custom : Option String}
    (hsplit : meant d.tables d.relationships = before ++ .manyToMany a b custom :: after)
    (hfirst : ∀ r ∈ before, pivotName? r ≠ some name) (hname : pivotName a b custom = name) :
    (inferFromDiagram d).pivotOf? (some name) = some (synthesizePivot a b custom) := by
  have hmem : .manyToMany a b custom ∈ d.relationships := by
    have : .manyToMany a b custom ∈ meant d.tables d.relationships := by
      rw [hsplit]
      exact List.mem_append_right _ List.mem_cons_self
    exact (List.mem_filter.mp this).1
  have hsome : name.isEmpty = false := by
    rw [← Bool.not_eq_true, String.isEmpty_iff, ← hname]
    exact pivotName_ne_empty fun label hlabel =>
      (hparsed.relationships _ hmem).label a b label (by rw [hlabel])
  have hlinked : (linkAll (links (meant d.tables d.relationships)) d.tables).find?
      (fun t => t.isPivot && t.storageName == name) = none := by
    rw [List.find?_eq_none]
    intro u hu
    obtain ⟨t, ht, parents, -, rfl⟩ := mem_linkAll hu
    rw [isPivot_ensureKeys, (hparsed.tables t ht).domain, Bool.false_and]
    exact Bool.false_ne_true
  have hstored : ∀ p ∈ pivotsOf (meant d.tables d.relationships),
      (p.isPivot && p.storageName == name) = (p.name == name) := by
    intro p hp
    unfold Table.storageName
    rw [isPivot_pivotsOf _ p hp, Bool.true_and, if_pos rfl]
  have htables := (inferFromDiagram_eq (fun t ht => (hparsed.tables t ht).domain)
    fun _ _ => unadopted_of_capitalized hnames).1
  unfold Schema.pivotOf? Schema.pivot?
  dsimp only
  rw [hsome, if_neg Bool.false_ne_true, htables, List.find?_append, hlinked, Option.none_or,
    List.find?_congr hstored, hsplit]
  exact find?_pivotsOf hfirst hname

/-! ## Which keys it has -/

theorem hasKeyOf_synthesizePivot {a b entity : String} {custom : Option String} :
    HasKeyOf (synthesizePivot a b custom) entity
      ↔ snake entity ∈ joinedModels a b ∧ pluralize (snake entity) = tableName entity := by
  unfold HasKeyOf
  simp only [mem_columns_synthesizePivot]
  constructor
  · rintro ⟨c, rfl | ⟨model, hmodel, rfl⟩, hname, hkey⟩
    · exact nomatch hkey
    · have hname : model ++ keySuffix = snake entity ++ keySuffix := hname
      have htable : pluralize model = tableName entity :=
        congrArg ForeignKey.table (Option.some.inj hkey)
      rw [← keyName_inj hname]
      exact ⟨hmodel, htable⟩
  · rintro ⟨hmodel, hconvention⟩
    refine ⟨Column.keyTo (snake entity), Or.inr ⟨_, hmodel, rfl⟩, rfl, ?_⟩
    show some (ForeignKey.toModel (snake entity)) = _
    rw [ForeignKey.toModel, hconvention]

/-- The first relationship with a pivot is the first that is meant with its name. -/
theorem exists_first_named {rs : List Relationship} {first second : String} {pivot : Option String}
    (h : .manyToMany first second pivot ∈ rs.map named) :
    ∃ before a b custom after, rs = before ++ .manyToMany a b custom :: after
      ∧ some (pivotName a b custom) = pivot ∧ (∀ r ∈ before, pivotName? r ≠ pivot)
      ∧ (rs.map named).find? (joinsThrough pivot) = some (.manyToMany a b pivot) := by
  obtain ⟨r, hfound⟩ : ∃ r, (rs.map named).find? (joinsThrough pivot) = some r :=
    Option.isSome_iff_exists.mp (List.find?_isSome.mpr
      ⟨_, h, joinsThrough_eq_true.mpr ⟨first, second, rfl⟩⟩)
  obtain ⟨a, b, rfl⟩ := joinsThrough_eq_true.mp (List.find?_some hfound)
  obtain ⟨-, _, _, hsplit, hfirst⟩ := List.find?_eq_some_iff_append.mp hfound
  obtain ⟨before, rest, rfl, rfl, hrest⟩ := List.map_eq_append_iff.mp hsplit
  obtain ⟨own, after, rfl, hown, -⟩ := List.map_eq_cons_iff.mp hrest
  obtain ⟨custom, rfl, rfl⟩ : ∃ custom, own = .manyToMany a b custom
      ∧ some (pivotName a b custom) = pivot := by
    cases own with
    | oneToOne | oneToMany => exact nomatch hown
    | manyToMany x y custom =>
      obtain ⟨rfl, rfl, hname⟩ := Relationship.manyToMany.inj hown
      exact ⟨custom, rfl, hname⟩
  refine ⟨before, a, b, custom, after, rfl, rfl, fun r hr hname => ?_, hfound⟩
  have hnot := hfirst (named r) (List.mem_map_of_mem hr)
  cases r with
  | oneToOne | oneToMany => exact nomatch hname
  | manyToMany x y own =>
    have hsame : joinsThrough (some (pivotName a b custom)) (named (.manyToMany x y own)) = true :=
      joinsThrough_eq_true.mpr ⟨x, y, congrArg (Relationship.manyToMany x y) hname⟩
    rw [hsame] at hnot
    exact nomatch hnot

/-- **The keys of the pivot of a many-to-many relationship.** The pivot is there, made up for the
first relationship with its name. It has the foreign key of an entity exactly if that relationship
joins the model of the entity, and the plural of the model is the table of the entity, which it is
for names in Pascal case. -/
theorem keys_of_manyToMany {text : String} {d : Document} {s : Schema}
    (hd : Document.parse text = .ok d) (hs : schemaOfDiagram text = .ok s)
    (hnames : ∀ t ∈ d.tables, IsCapitalized t.name ∧ isSingular t.name = true)
    {first second : String} {pivot : Option String}
    (hr : .manyToMany first second pivot ∈ s.relationships)
    (hends : ∀ e ∈ [first, second], e ∈ d.tables.map Table.name) :
    ∃ p a b, s.pivotOf? pivot = some p
      ∧ s.relationships.find? (joinsThrough pivot) = some (.manyToMany a b pivot)
      ∧ (∀ e ∈ [first, second],
        HasKeyOf p e ↔ modelName e ∈ joinedModels a b ∧ pluralize (modelName e) = tableName e)
      ∧ ∀ e ∈ [first, second], IsPascal e → pluralize (modelName e) = tableName e := by
  obtain rfl : inferFromDiagram d = s :=
    Except.ok.inj ((schemaOfDiagram_of_parse hd).symm.trans hs)
  have hparsed := parsedDocument hd
  have hcapital : ∀ t ∈ d.tables, IsCapitalized t.name := fun t ht => (hnames t ht).1
  have hmodel : ∀ e ∈ [first, second], modelName e = snake e := by
    intro e he
    obtain ⟨t, ht, rfl⟩ := List.mem_map.mp (hends e he)
    have hsingular : singularize t.name = t.name := beq_iff_eq.mp (hnames t ht).2
    unfold modelName
    rw [hsingular]
  have hkept := (inferFromDiagram_eq (fun t ht => (hparsed.tables t ht).domain)
    fun _ _ => unadopted_of_capitalized hcapital).2
  rw [hkept] at hr
  obtain ⟨before, a, b, custom, after, hmeant, rfl, hbefore, hfound⟩ := exists_first_named hr
  rw [← hkept] at hfound
  refine ⟨_, a, b, pivotOf?_inferFromDiagram hparsed hcapital hmeant hbefore rfl, hfound, ?_, ?_⟩
  · intro e he
    rw [hasKeyOf_synthesizePivot, hmodel e he]
  · intro e he hpascal
    rw [hmodel e he]
    exact pluralize_snake hpascal

/-! ### A pivot without the keys of a relationship -/

/-- Two pairs of entities with the same label. -/
def membershipText : String :=
  "entity Role
entity User
entity Post
entity Tag
Role \x7do--o\x7b User : membership
Post \x7do--o\x7b Tag : membership
"

/-- What the text draws. -/
def drawnMembership : Document :=
  { tables := [{ name := "Role" }, { name := "User" }, { name := "Post" }, { name := "Tag" }]
    relationships :=
      [.manyToMany "Role" "User" (some "membership"),
       .manyToMany "Post" "Tag" (some "membership")] }

set_option maxRecDepth 8000 in
theorem parse_membershipText : Document.parse membershipText = .ok drawnMembership := by
  unfold Document.parse membershipText
  rw [String.toList_ofList]
  decide

theorem schemaOfDiagram_membershipText :
    schemaOfDiagram membershipText = .ok (inferFromDiagram drawnMembership) :=
  schemaOfDiagram_of_parse parse_membershipText

theorem relationships_membership :
    (inferFromDiagram drawnMembership).relationships = drawnMembership.relationships := by
  have hfree : ∀ r ∈ drawnMembership.relationships, Unadopted drawnMembership.tables r :=
    fun _ _ => unadopted_of_capitalized (by decide)
  rw [(inferFromDiagram_eq (by decide) (forall_mem_meant hfree)).2]
  decide

theorem keys_of_manyToMany_membership :
    (∀ t ∈ drawnMembership.tables, IsCapitalized t.name ∧ isSingular t.name = true)
      ∧ ∃ s, Document.parse membershipText = .ok drawnMembership
        ∧ schemaOfDiagram membershipText = .ok s
        ∧ .manyToMany "Role" "User" (some "membership") ∈ s.relationships
        ∧ ∃ p a b, s.pivotOf? (some "membership") = some p
          ∧ s.relationships.find? (joinsThrough (some "membership"))
            = some (.manyToMany a b (some "membership"))
          ∧ (∀ e ∈ ["Role", "User"],
            HasKeyOf p e ↔ modelName e ∈ joinedModels a b ∧ pluralize (modelName e) = tableName e)
          ∧ ∀ e ∈ ["Role", "User"], IsPascal e → pluralize (modelName e) = tableName e := by
  have hnames : ∀ t ∈ drawnMembership.tables, IsCapitalized t.name ∧ isSingular t.name = true := by
    decide
  have hr : .manyToMany "Role" "User" (some "membership")
      ∈ (inferFromDiagram drawnMembership).relationships := by
    rw [relationships_membership]
    exact List.mem_cons_self
  exact ⟨hnames, _, parse_membershipText, schemaOfDiagram_membershipText, hr,
    keys_of_manyToMany parse_membershipText schemaOfDiagram_membershipText hnames hr
      (by decide)⟩

/-- The second pair has no keys in its pivot. -/
theorem misses_keys_membership :
    ∃ d s p, Document.parse membershipText = .ok d ∧ schemaOfDiagram membershipText = .ok s
      ∧ (∀ t ∈ d.tables, IsPascal t.name ∧ isSingular t.name = true)
      ∧ "Post" ∈ d.tables.map Table.name ∧ "Tag" ∈ d.tables.map Table.name
      ∧ .manyToMany "Post" "Tag" (some "membership") ∈ s.relationships
      ∧ s.pivotOf? (some "membership") = some p ∧ ¬HasKeyOf p "Post" ∧ ¬HasKeyOf p "Tag" := by
  have hmeant : meant drawnMembership.tables drawnMembership.relationships
      = [] ++ .manyToMany "Role" "User" (some "membership")
        :: [.manyToMany "Post" "Tag" (some "membership")] := by
    decide
  have hpivot : (inferFromDiagram drawnMembership).pivotOf? (some "membership")
      = some (synthesizePivot "Role" "User" (some "membership")) :=
    pivotOf?_inferFromDiagram (parsedDocument parse_membershipText) (by decide) hmeant
      (by simp) (by decide)
  refine ⟨_, _, _, parse_membershipText, schemaOfDiagram_membershipText, ?_, by decide, by decide,
    ?_, hpivot, ?_, ?_⟩
  · intro t ht
    simp only [drawnMembership, List.mem_cons, List.not_mem_nil, or_false] at ht
    rcases ht with rfl | rfl | rfl | rfl
    · exact ⟨⟨["Role".toList], by decide⟩, by decide⟩
    · exact ⟨⟨["User".toList], by decide⟩, by decide⟩
    · exact ⟨⟨["Post".toList], by decide⟩, by decide⟩
    · exact ⟨⟨["Tag".toList], by decide⟩, by decide⟩
  · rw [relationships_membership]
    exact List.mem_cons_of_mem _ List.mem_cons_self
  · rw [hasKeyOf_synthesizePivot, mem_joinedModels]
    decide
  · rw [hasKeyOf_synthesizePivot, mem_joinedModels]
    decide

end Crowsfoot.Inference
