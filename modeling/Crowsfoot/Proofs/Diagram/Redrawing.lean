import Crowsfoot.Conversion
import Crowsfoot.Proofs.Diagram.Stated
import Crowsfoot.Proofs.Inference.FromDiagram

/-!
# The schema of a diagram survives being drawn

`schemaOfDiagram_write`: the schema of a diagram in ASCII, written as a diagram and read again, has
the same tables, column by column and with their foreign keys and pivots, and relationships of the
same kinds and keys. It holds of diagrams that are `Redrawable`; in particular no comment may hold
the phrase `NOT NULL`, however many blanks are in it (`schemaOfDiagram_write_ne`).

Of the document that is read first, the schema draws the linked tables without their keys and the
first relationship of each kind and key (`redrawn`). What is read the second time is again such a
document (`redrawn_meant`): it has the links of the first (`mem_links_redrawn`) and brings in its
pivots (`pivotsOf_redrawn`).
-/

namespace Crowsfoot.Diagram

open Crowsfoot.Inference Crowsfoot.Naming Crowsfoot.Text

/-- Entities are named in Pascal case, many-to-many lines between the same two of them agree on
their pivot, and columns are legible. -/
structure Redrawable (hasPhrase : List Char → Bool) (d : Document) : Prop where
  entities : ∀ t ∈ d.tables, IsPascal t.name
  ends : ∀ r ∈ d.relationships, ∀ name ∈ r.ends, IsPascal name
  pivots : ∀ first second custom first' second' custom',
    .manyToMany first second custom ∈ d.relationships →
    .manyToMany first' second' custom' ∈ d.relationships →
    [first, second].Perm [first', second'] →
    pivotName first second custom = pivotName first' second' custom'
  columns : ∀ t ∈ d.tables, ∀ c ∈ t.columns, LegibleColumn hasPhrase c

/-! ## Named relationships -/

theorem ends_named (r : Relationship) : (named r).ends = r.ends := by
  cases r <;> rfl

theorem kind_named (r : Relationship) : (named r).kind = r.kind := by
  cases r <;> rfl

theorem link?_named (r : Relationship) : link? (named r) = link? r := by
  cases r <;> rfl

theorem unhyphenated_of_isPascal {r : Relationship} (h : ∀ name ∈ r.ends, IsPascal name) :
    r.Unhyphenated :=
  fun name hname hmem => (letterFacts ((h name hname).letters '-' hmem)).2.2.2.2 rfl

theorem forall_ends_manyToMany {P : String → Prop} {first second : String} {custom : Option String}
    (h : ∀ name ∈ (Relationship.manyToMany first second custom).ends, P name) :
    P first ∧ P second :=
  ⟨h first (by simp [Relationship.ends]), h second (by simp [Relationship.ends])⟩

/-- A name that is settled on stays. -/
theorem named_named {r : Relationship} (hends : ∀ name ∈ r.ends, IsPascal name)
    (hr : StatedRelationship r) : named (named r) = named r := by
  cases r with
  | oneToOne | oneToMany => rfl
  | manyToMany first second custom =>
    obtain ⟨hfirst, hsecond⟩ := forall_ends_manyToMany hends
    unfold named
    dsimp only
    rw [pivotName_pivotName hfirst hsecond hr]

theorem pivotName?_named {r : Relationship} (h : named (named r) = named r) :
    pivotName? (named r) = pivotName? r := by
  cases r with
  | oneToOne | oneToMany => rfl
  | manyToMany first second custom => exact (Relationship.manyToMany.inj h).2.2

theorem drawableRelationship_named {r : Relationship} (hends : ∀ name ∈ r.ends, IsPascal name)
    (hr : StatedRelationship r) : DrawableRelationship (named r) := by
  cases r with
  | oneToOne parent child | oneToMany parent child =>
    exact ⟨(hends parent (by simp [Relationship.ends])).isName,
      (hends child (by simp [Relationship.ends])).isName⟩
  | manyToMany first second custom =>
    obtain ⟨hfirst, hsecond⟩ := forall_ends_manyToMany hends
    refine ⟨hfirst.isName, hsecond.isName, ?_⟩
    intro name hname
    obtain ⟨hsnake, hne⟩ := isSnake_pivotName hfirst hsecond hr
    rw [← Option.mem_some_iff.mp hname]
    exact hsnake.isName hne

/-! ## What is drawn -/

theorem drawable_withKey {c : Column} (h : Drawable c) (key : ForeignKey) :
    Drawable (c.withKey key) := by
  rw [withKey_eq]
  obtain ⟨name, primary, quotable, noPhrase, parameters⟩ := h
  refine ⟨name, primary, quotable, noPhrase, ?_⟩
  cases parameters with
  | none values precision scale size => exact .none values precision scale size
  | values type nonempty quotable plain precision scale size =>
    exact .values type nonempty quotable plain precision scale size
  | precisionAndScale p s type values precision scale size hp hs =>
    exact .precisionAndScale p s type values precision scale size hp hs
  | precision p type values precision scale size hp =>
    exact .precision p type values precision scale size hp
  | size n notDecimal notEnum values precision scale size hn =>
    exact .size n notDecimal notEnum values precision scale size hn

theorem drawable_keyTo {parent : String} (h : IsPascal parent) :
    Drawable (Column.keyTo (modelName parent)) :=
  ⟨isName_keyName h, fun hprimary => absurd hprimary (by simp [Column.keyTo]),
    fun text htext => absurd htext (by simp [Column.keyTo]),
    fun text htext => absurd htext (by simp [Column.keyTo]), .none rfl rfl rfl rfl⟩

theorem unkeyed_of_stated {t : Table} (h : StatedTable t) : Unkeyed t :=
  unkeyed_of_complete h.domain h.distinct fun c hc => (h.columns c hc).complete

/-! ## The document that a schema draws -/

variable {d : Document}

/-- The relationships of the schema of a document. -/
def kept (d : Document) : List Relationship :=
  (meant d.tables d.relationships).map named

/-- The tables of the schema of a document, without pivots. -/
def linked (d : Document) : List Table :=
  linkAll (links (meant d.tables d.relationships)) d.tables

/-- The document that the schema of a document draws. -/
def redrawn (d : Document) : Document :=
  { tables := (linked d).map drawnTable, relationships := drawnRelationships (kept d) }

theorem mem_kept {r : Relationship} (hr : r ∈ kept d) :
    ∃ s ∈ d.relationships, s.ends.all (declared d.tables) = true ∧ r = named s := by
  obtain ⟨s, hs, rfl⟩ := List.mem_map.mp hr
  obtain ⟨hmem, hdeclared⟩ := List.mem_filter.mp hs
  exact ⟨s, hmem, hdeclared, rfl⟩

theorem mem_kept_of_mem_redrawn {r : Relationship} (hr : r ∈ (redrawn d).relationships) :
    r ∈ kept d :=
  Relationship.mem_of_mem_firstOfEachKey (mem_drawnRelationships.mp hr)

theorem unhyphenated_of_mem_kept {hasPhrase : List Char → Bool} (h : Redrawable hasPhrase d)
    {r : Relationship} (hr : r ∈ kept d) : r.Unhyphenated := by
  obtain ⟨s, hs, -, rfl⟩ := mem_kept hr
  apply unhyphenated_of_isPascal
  rw [ends_named]
  exact h.ends s hs

theorem bare_redrawn (hstated : StatedDocument d) :
    (redrawn d).tables.map bare = d.tables.map bare := by
  have hdrawn : ∀ t ∈ linked d, bare (drawnTable t) = bare t := by
    intro u hu
    obtain ⟨t, ht, parents, -, rfl⟩ := mem_linkAll hu
    refine Table.eq_of_parts rfl rfl ?_
    show false = (ensureKeys t parents).isPivot
    rw [isPivot_ensureKeys, (hstated.tables t ht).domain]
  unfold redrawn
  rw [List.map_map]
  exact (List.map_congr_left hdrawn).trans (map_bare_linkAll _ _)

/-- All relationships that are drawn are between drawn tables. -/
theorem redrawn_meant (hstated : StatedDocument d) :
    meant (redrawn d).tables (redrawn d).relationships = (redrawn d).relationships := by
  unfold meant
  rw [List.filter_eq_self, declared_congr (bare_redrawn hstated)]
  intro r hr
  obtain ⟨s, -, hdeclared, rfl⟩ := mem_kept (mem_kept_of_mem_redrawn hr)
  rw [ends_named]
  exact hdeclared

/-- The links are the same, whatever their order. -/
theorem mem_links_redrawn {hasPhrase : List Char → Bool} (h : Redrawable hasPhrase d)
    (l : String × String) :
    l ∈ links (meant d.tables d.relationships) ↔ l ∈ links (redrawn d).relationships := by
  have hnamed : links (kept d) = links (meant d.tables d.relationships) := by
    unfold links kept
    rw [List.filterMap_map]
    exact List.filterMap_congr fun r _ => link?_named r
  rw [← hnamed]
  exact (mem_links_drawnRelationships (fun r hr => unhyphenated_of_mem_kept h hr) l).symm

/-! ## The schema of a document -/

section Redrawable

variable (hstated : StatedDocument d) (h : Redrawable (hasNotNull false) d)
include hstated h

theorem unadopted_of_redrawable {r : Relationship} (hr : r ∈ d.relationships) :
    Unadopted d.tables r := by
  refine unadopted_of_pivotName ?_
  rintro first second custom rfl t ht heq
  obtain ⟨hfirst, hsecond⟩ := forall_ends_manyToMany (h.ends _ hr)
  have hsnake := (isSnake_pivotName hfirst hsecond (hstated.relationships _ hr)).1
  exact (h.entities t ht).not_isSnake (heq ▸ hsnake)

theorem inferFromDiagram_redrawable :
    (inferFromDiagram d).tables = linked d ++ pivotsOf (meant d.tables d.relationships)
      ∧ (inferFromDiagram d).relationships = kept d :=
  inferFromDiagram_eq (fun t ht => (hstated.tables t ht).domain)
    (forall_mem_meant fun _ hr => unadopted_of_redrawable hstated h hr)

theorem drawableTable_linked : ∀ t ∈ linked d, DrawableTable t := by
  intro u hu
  obtain ⟨t, ht, parents, hparents, rfl⟩ := mem_linkAll hu
  have hpascal : ∀ parent ∈ parents, IsPascal parent := by
    intro parent hparent
    obtain ⟨l, hl, rfl⟩ := List.mem_map.mp (hparents parent hparent)
    obtain ⟨r, hr, hlink⟩ := List.mem_filterMap.mp hl
    have hends := h.ends r (List.mem_filter.mp hr).1
    cases r with
    | manyToMany => exact absurd hlink (by simp [link?])
    | oneToOne parent child | oneToMany parent child =>
      rw [← Option.some.inj hlink]
      exact hends parent (by simp [Relationship.ends])
  have hkeyed := (unkeyed_of_stated (hstated.tables t ht)).columns.ensureKeys parents
  refine ⟨?_, ?_, hkeyed.distinct⟩
  · rw [name_ensureKeys]
    exact (h.entities t ht).isName
  · refine forall_mem_ensureKeys ?_ (fun c key hc => drawable_withKey hc key) ?_
    · exact fun c hc => ((hstated.tables t ht).columns c hc).drawable (h.columns t ht c hc)
    · exact fun parent hparent => drawable_keyTo (hpascal parent hparent)

theorem named_named_of_mem {r : Relationship} (hr : r ∈ d.relationships) :
    named (named r) = named r :=
  named_named (h.ends r hr) (hstated.relationships r hr)

/-- **The schema of a document draws the document anew.** -/
theorem parse_write_redrawn (generatedAt : Timestamp) :
    Document.parse (write (inferFromDiagram d) generatedAt) = .ok (redrawn d) := by
  obtain ⟨-, hkept⟩ := inferFromDiagram_redrawable hstated h
  have hdomain : (inferFromDiagram d).domainTables = linked d :=
    (domainTables_inferFromDiagram (fun t ht => (hstated.tables t ht).domain)
      (forall_mem_meant fun _ hr => unadopted_of_redrawable hstated h hr)).1
  have hdrawable : DrawableSchema (inferFromDiagram d) := by
    constructor
    · rw [hdomain]
      exact drawableTable_linked hstated h
    · rw [hkept]
      intro r hr
      obtain ⟨s, hs, -, rfl⟩ := mem_kept hr
      exact drawableRelationship_named (h.ends s hs) (hstated.relationships s hs)
  have hdecoded : decoded (inferFromDiagram d) = redrawn d := by
    unfold decoded redrawn
    rw [hdomain, hkept]
  rw [parse_write hdrawable.readable, ← hdecoded]
  rfl

/-- The names of pivots stay. -/
theorem map_named_redrawn :
    (redrawn d).relationships.map named = (redrawn d).relationships := by
  refine (List.map_congr_left fun r hr => ?_).trans (List.map_id _)
  obtain ⟨s, hs, -, rfl⟩ := mem_kept (mem_kept_of_mem_redrawn hr)
  exact named_named_of_mem hstated h hs

/-- The key of a relationship tells the name of its pivot. -/
theorem pivotName?_of_key {r s : Relationship} (hr : r ∈ kept d) (hs : s ∈ kept d)
    (hkind : s.kind = r.kind) (hkey : s.key = r.key) : pivotName? s = pivotName? r := by
  have hperm := Relationship.perm_ends_of_key (unhyphenated_of_mem_kept h hr)
    (unhyphenated_of_mem_kept h hs) hkind hkey
  obtain ⟨r, hrmem, -, rfl⟩ := mem_kept hr
  obtain ⟨s, hsmem, -, rfl⟩ := mem_kept hs
  rw [ends_named, ends_named] at hperm
  rw [kind_named, kind_named] at hkind
  rw [pivotName?_named (named_named_of_mem hstated h hsmem),
    pivotName?_named (named_named_of_mem hstated h hrmem)]
  cases r with
  | oneToOne | oneToMany =>
    cases s with
    | oneToOne | oneToMany => rfl
    | manyToMany => exact absurd hkind (by simp [Relationship.kind])
  | manyToMany first second custom =>
    cases s with
    | oneToOne | oneToMany => exact absurd hkind (by simp [Relationship.kind])
    | manyToMany first' second' custom' =>
      exact congrArg some (h.pivots _ _ _ _ _ _ hsmem hrmem hperm)

/-- The pivots are the same, in their order. -/
theorem pivotsOf_redrawn :
    pivotsOf (redrawn d).relationships = pivotsOf (meant d.tables d.relationships) := by
  have hsettled : ∀ r ∈ meant d.tables d.relationships, named (named r) = named r :=
    fun r hr => named_named_of_mem hstated h (List.mem_filter.mp hr).1
  unfold redrawn
  dsimp only
  rw [pivotsOf_drawnRelationships, pivotsOf_firstOfEachKey]
  · exact pivotsOf_map_named hsettled
  · exact fun r hr s hs hkind hkey => pivotName?_of_key hstated h hr hs hkind hkey

/-- **What is drawn has the schema of the document**: its tables, and the relationships that are
drawn. -/
theorem inferFromDiagram_redrawn :
    (inferFromDiagram (redrawn d)).tables = (inferFromDiagram d).tables
      ∧ (inferFromDiagram (redrawn d)).relationships
        = drawnRelationships (inferFromDiagram d).relationships := by
  obtain ⟨htables, hkept⟩ := inferFromDiagram_redrawable hstated h
  have hdomain : ∀ t ∈ (redrawn d).tables, t.isPivot = false := by
    intro u hu
    obtain ⟨t, -, rfl⟩ := List.mem_map.mp hu
    rfl
  have hfree : ∀ r ∈ (redrawn d).relationships, Unadopted (redrawn d).tables r := by
    intro r hr name hname u hu
    obtain ⟨s, hs, -, rfl⟩ := mem_kept (mem_kept_of_mem_redrawn hr)
    rw [pivotName?_named (named_named_of_mem hstated h hs)] at hname
    obtain ⟨t, ht, rfl⟩ := List.mem_map.mp hu
    obtain ⟨v, hv, parents, -, rfl⟩ := mem_linkAll ht
    show (ensureKeys v parents).name ≠ name
    rw [name_ensureKeys]
    exact unadopted_of_redrawable hstated h hs name hname v hv
  obtain ⟨htables', hkept'⟩ := inferFromDiagram_eq hdomain (forall_mem_meant hfree)
  rw [redrawn_meant hstated] at htables' hkept'
  constructor
  · rw [htables', htables, pivotsOf_redrawn hstated h]
    congr 1
    exact linkAll_drawn (fun t ht => unkeyed_of_stated (hstated.tables t ht))
      (mem_links_redrawn h)
  · rw [hkept', map_named_redrawn hstated h, hkept]
    rfl

end Redrawable

/-! ## Diagrams -/

/-- What identifies a relationship. -/
def kindAndKey (r : Relationship) : Relationship.Kind × String :=
  (r.kind, r.key)

theorem mem_kindAndKey_drawnRelationships (rs : List Relationship)
    (k : Relationship.Kind × String) :
    k ∈ (drawnRelationships rs).map kindAndKey ↔ k ∈ rs.map kindAndKey := by
  rw [List.mem_map, List.mem_map]
  constructor
  · rintro ⟨r, hr, rfl⟩
    exact ⟨r, Relationship.mem_of_mem_firstOfEachKey (mem_drawnRelationships.mp hr), rfl⟩
  · rintro ⟨r, hr, rfl⟩
    obtain ⟨s, hs, hkind, hkey⟩ := Relationship.exists_mem_firstOfEachKey hr
    exact ⟨s, mem_drawnRelationships.mpr hs, Prod.ext hkind hkey⟩

/-- **The schema of a diagram survives being drawn.** A redrawable diagram in ASCII is read, and so
is the diagram that is written of its schema; the second schema has the tables of the first, in
their order and with all that is known of their columns, and relationships of the same kinds and
keys. -/
theorem schemaOfDiagram_write {text : String} (hascii : ∀ c ∈ text.toList, isAscii c = true)
    (h : ∀ d, Document.parse text = .ok d → Redrawable (hasNotNull false) d)
    (generatedAt : Timestamp) :
    ∃ s s', schemaOfDiagram text = .ok s ∧ schemaOfDiagram (write s generatedAt) = .ok s'
      ∧ s'.tables = s.tables
      ∧ ∀ k, k ∈ s'.relationships.map kindAndKey ↔ k ∈ s.relationships.map kindAndKey := by
  obtain ⟨d, hd, hstated⟩ := parse_ascii hascii
  have hredrawable := h d hd
  obtain ⟨htables, hkept⟩ := inferFromDiagram_redrawn hstated hredrawable
  have hread : ∀ {text d}, Document.parse text = .ok d →
      schemaOfDiagram text = .ok (inferFromDiagram d) := by
    intro text d hd
    unfold schemaOfDiagram
    rw [hd]
    rfl
  refine ⟨inferFromDiagram d, inferFromDiagram (redrawn d), hread hd, ?_, htables, ?_⟩
  · exact hread (parse_write_redrawn hstated hredrawable generatedAt)
  · intro k
    rw [hkept]
    exact mem_kindAndKey_drawnRelationships _ k

/-- A shop whose tags are drawn twice, once under the name of their pivot. -/
def shopText : String :=
  "entity Customer \x7b
  * id : bigint
  name : varchar(80) NOT NULL \"as printed\"
\x7d
entity OrderItem \x7b
  state : enum(open,sent)
  customer_id : bigint NOT NULL
\x7d
entity Tag
Customer ||--o\x7b OrderItem
OrderItem \x7do--o\x7b Tag
Tag \x7do--o\x7b OrderItem : OrderItemTag
"

/-- What the text of the shop draws. -/
def drawnShop : Document :=
  { tables :=
      [{ name := "Customer"
         columns :=
          [{ name := "id", type := .bigint, nullable := false, primary := true },
           { name := "name", size := some 80, nullable := false, comment := some "as printed" }] },
       { name := "OrderItem"
         columns :=
          [{ name := "state", type := .enum, enumValues := ["open", "sent"] },
           { name := "customer_id", type := .bigint, nullable := false }] },
       { name := "Tag" }]
    relationships :=
      [.oneToMany "Customer" "OrderItem", .manyToMany "OrderItem" "Tag" none,
       .manyToMany "Tag" "OrderItem" (some "OrderItemTag")] }

theorem redrawable_drawnShop : Redrawable (hasNotNull false) drawnShop := by
  have hcustomer : IsPascal "Customer" := ⟨["Customer".toList], by decide, rfl, by decide⟩
  have hitem : IsPascal "OrderItem" :=
    ⟨["Order".toList, "Item".toList], by decide, rfl, by decide⟩
  have htag : IsPascal "Tag" := ⟨["Tag".toList], by decide, rfl, by decide⟩
  have hdrawn : pivotName "OrderItem" "Tag" none = "order_item_tag" := by
    have horder : modelName "OrderItem" = "order_item" := by decide
    have hmodel : modelName "Tag" = "tag" := by decide
    have hsorted : sorted ["order_item", "tag"] = ["order_item", "tag"] :=
      List.mergeSort_of_pairwise (by decide)
    show "_".intercalate (sorted [modelName "OrderItem", modelName "Tag"]) = _
    rw [horder, hmodel, hsorted]
    decide
  have hlabelled : pivotName "Tag" "OrderItem" (some "OrderItemTag") = "order_item_tag" := by
    decide
  refine ⟨?_, ?_, ?_, by decide⟩
  · simpa [drawnShop] using ⟨hcustomer, hitem, htag⟩
  · simpa [drawnShop, Relationship.ends] using ⟨⟨hcustomer, hitem⟩, ⟨hitem, htag⟩, htag, hitem⟩
  · intro first second custom first' second' custom' hr hs _
    simp only [drawnShop, List.mem_cons, reduceCtorEq, Relationship.manyToMany.injEq,
      List.not_mem_nil, or_false, false_or] at hr hs
    rcases hr with ⟨rfl, rfl, rfl⟩ | ⟨rfl, rfl, rfl⟩ <;>
      rcases hs with ⟨rfl, rfl, rfl⟩ | ⟨rfl, rfl, rfl⟩ <;> simp only [hdrawn, hlabelled]

set_option maxRecDepth 8000 in
theorem parse_shopText : Document.parse shopText = .ok drawnShop := by
  unfold Document.parse shopText
  rw [String.toList_ofList]
  decide

set_option maxRecDepth 8000 in
theorem schemaOfDiagram_write_shop :
    (∀ c ∈ shopText.toList, isAscii c = true)
      ∧ (∀ d, Document.parse shopText = .ok d → Redrawable (hasNotNull false) d)
      ∧ ∃ s s', schemaOfDiagram shopText = .ok s
        ∧ schemaOfDiagram (write s ⟨2024, 3, 5, 14, 7, 9⟩) = .ok s' ∧ s'.tables = s.tables
        ∧ ∀ k, k ∈ s'.relationships.map kindAndKey ↔ k ∈ s.relationships.map kindAndKey := by
  have hascii : ∀ c ∈ shopText.toList, isAscii c = true := by
    unfold shopText
    rw [String.toList_ofList]
    decide
  have hredrawable : ∀ d, Document.parse shopText = .ok d → Redrawable (hasNotNull false) d := by
    intro d hd
    rw [← Except.ok.inj (parse_shopText.symm.trans hd)]
    exact redrawable_drawnShop
  exact ⟨hascii, hredrawable, schemaOfDiagram_write hascii hredrawable _⟩

/-! ### A phrase with two blanks -/

/-- Whether `NOT NULL` stands in a text as it is spelled here, in any case. -/
def hasSpelledNotNull (cs : List Char) : Bool :=
  (lower cs).tails.any (startsWith "not null".toList)

/-- What is left of the phrases of this column is a comment with another one. -/
def nestedText : String :=
  "entity Ab \x7b
  a : int NOT NOT NULL NULL
\x7d"

/-- The schema of the text, and what is read where it is drawn. -/
def nestedSchema (comment : Option String) : Schema :=
  { tables :=
      [{ name := "Ab", columns := [{ name := "a", type := .int, nullable := false, comment }] }] }

set_option maxRecDepth 8000 in
/-- It does not help that a comment is free of `NOT NULL` with one blank: with two, it is taken for
the phrase as well. -/
theorem schemaOfDiagram_write_ne :
    (∀ c ∈ nestedText.toList, isAscii c = true)
      ∧ (∀ d, Document.parse nestedText = .ok d → Redrawable hasSpelledNotNull d)
      ∧ ∃ s s', schemaOfDiagram nestedText = .ok s
        ∧ schemaOfDiagram (write s ⟨2024, 3, 5, 14, 7, 9⟩) = .ok s' ∧ s'.tables ≠ s.tables := by
  have hparse : Document.parse nestedText
      = .ok { tables := (nestedSchema (some "NOT  NULL")).tables } := by
    unfold Document.parse nestedText
    rw [String.toList_ofList]
    decide
  refine ⟨?_, ?_, nestedSchema (some "NOT  NULL"), nestedSchema none, ?_, ?_, by decide⟩
  · unfold nestedText
    rw [String.toList_ofList]
    decide
  · intro d hd
    rw [← Except.ok.inj (hparse.symm.trans hd)]
    have hentity : IsPascal "Ab" := ⟨["Ab".toList], by decide, rfl, by decide⟩
    refine ⟨?_, by simp, by simp, by decide⟩
    simpa [nestedSchema] using hentity
  · unfold schemaOfDiagram
    rw [hparse]
    rfl
  · decide

end Crowsfoot.Diagram
