import Crowsfoot.Proofs.Diagram.Stated
import Crowsfoot.Proofs.Schema.Relationships

/-!
# What diagrams say, in any script

`parsedDocument`: whatever a diagram contains, what is read of it has words for names, no table is
a pivot, the columns of a table have different names, and no column has more than a diagram shows.
In particular no drawn column has a foreign key.

Each form of a line is looked at on its own (`parsedKind`), and `ParsedDraft` is what a line
preserves (`ParsedDraft.add`).
-/

namespace Crowsfoot.Diagram

open Crowsfoot.Text

/-! ## Lines -/

/-- A relationship between words, whose label is a word as well. -/
structure ParsedRelationship (r : Relationship) : Prop where
  ends : ∀ name ∈ r.ends, IsName name
  label : ∀ first second label, r = .manyToMany first second (some label) → IsName label

/-- A column as it is drawn, under a word. -/
structure ParsedColumn (c : Column) : Prop where
  name : IsName c.name
  complete : drawn c = c

theorem isName_entity? {line : List Char} {name : String} (h : entity? line = some name) :
    IsName name := by
  unfold entity? at h
  obtain ⟨_, -, h⟩ := Option.bind_eq_some_iff.mp h
  obtain ⟨_, -, h⟩ := Option.bind_eq_some_iff.mp h
  obtain ⟨⟨word, rest⟩, hword, h⟩ := Option.bind_eq_some_iff.mp h
  dsimp only at h
  split at h
  · rw [← Option.some.inj h]
    exact (mem_of_word? hword).1
  · exact nomatch h

theorem isName_joined? {sign : String} {cs rest : List Char} {left right : String}
    (h : joined? sign cs = some (left, right, rest)) : IsName left ∧ IsName right := by
  unfold joined? at h
  obtain ⟨⟨word, _⟩, hleft, h⟩ := Option.bind_eq_some_iff.mp h
  obtain ⟨_, -, h⟩ := Option.bind_eq_some_iff.mp h
  obtain ⟨_, -, h⟩ := Option.bind_eq_some_iff.mp h
  obtain ⟨_, -, h⟩ := Option.bind_eq_some_iff.mp h
  obtain ⟨⟨other, _⟩, hright, h⟩ := Option.bind_eq_some_iff.mp h
  obtain ⟨hleftName, hothers⟩ := Prod.mk.inj (Option.some.inj h)
  rw [← hleftName, ← (Prod.mk.inj hothers).1]
  exact ⟨(mem_of_word? hleft).1, (mem_of_word? hright).1⟩

theorem isName_ends? {sign : String} {cs : List Char} {left right : String}
    (h : ends? sign cs = some (left, right)) : IsName left ∧ IsName right := by
  unfold ends? at h
  obtain ⟨⟨_, _, _⟩, hjoined, h⟩ := Option.bind_eq_some_iff.mp h
  dsimp only at h
  split at h
  · obtain ⟨rfl, rfl⟩ := Prod.mk.inj (Option.some.inj h)
    exact isName_joined? hjoined
  · exact nomatch h

theorem isName_label? {cs : List Char} {label : String} (h : label? cs = some label) :
    IsName label := by
  unfold label? at h
  obtain ⟨_, -, h⟩ := Option.bind_eq_some_iff.mp h
  obtain ⟨⟨word, _⟩, hword, h⟩ := Option.bind_eq_some_iff.mp h
  dsimp only at h
  split at h
  · rw [← Option.some.inj h]
    exact (mem_of_word? hword).1
  · exact nomatch h

theorem parsedRelationship {line : List Char} {r : Relationship}
    (h : relationship? line = some r) : ParsedRelationship r := by
  have hpair : ∀ {a b : String}, IsName a ∧ IsName b → ∀ name ∈ [a, b], IsName name := by
    intro a b hab name hname
    rcases List.mem_cons.mp hname with rfl | hname
    · exact hab.1
    · rw [List.mem_singleton.mp hname]
      exact hab.2
  unfold relationship? at h
  split at h
  · rename_i parent child hends
    rw [← Option.some.inj h]
    exact ⟨hpair (isName_ends? hends), fun _ _ _ heq => nomatch heq⟩
  · split at h
    · rename_i parent child hends
      rw [← Option.some.inj h]
      exact ⟨hpair (isName_ends? hends), fun _ _ _ heq => nomatch heq⟩
    · unfold manyToMany? at h
      obtain ⟨⟨left, right, rest⟩, hjoined, h⟩ := Option.bind_eq_some_iff.mp h
      dsimp only at h
      split at h
      · rw [← Option.some.inj h]
        exact ⟨hpair (isName_joined? hjoined), fun _ _ _ heq => nomatch heq⟩
      · obtain ⟨label, hlabel, rfl⟩ := Option.map_eq_some_iff.mp h
        refine ⟨hpair (isName_joined? hjoined), fun _ _ _ heq => ?_⟩
        rw [← Option.some.inj (Relationship.manyToMany.inj heq).2.2]
        exact isName_label? hlabel

/-- Parameters do not touch the rest of a column. -/
theorem column_eq_plainColumn {t : ColumnText} {c : Column} (h : t.column = .ok c) :
    ∃ enumValues size precision scale,
      c = { t.plainColumn with enumValues, size, precision, scale } := by
  unfold ColumnText.column at h
  generalize t.plainColumn = plain at h
  dsimp only at h
  split at h
  · exact ⟨_, _, _, _, (Except.ok.inj h).symm⟩
  · split at h
    · exact ⟨_, _, _, _, (Except.ok.inj h).symm⟩
    · split at h
      · obtain ⟨_, -, h⟩ := bind_eq_ok.mp h
        split at h
        · exact ⟨_, _, _, _, (Except.ok.inj h).symm⟩
        · obtain ⟨_, -, h⟩ := bind_eq_ok.mp h
          exact ⟨_, _, _, _, (Except.ok.inj h).symm⟩
      · split at h
        · obtain ⟨_, -, h⟩ := bind_eq_ok.mp h
          exact ⟨_, _, _, _, (Except.ok.inj h).symm⟩
        · obtain ⟨_, -, h⟩ := bind_eq_ok.mp h
          exact ⟨_, _, _, _, (Except.ok.inj h).symm⟩

theorem parsedColumn {line : List Char} {c : Column} (h : column? line = .ok (some c)) :
    ParsedColumn c := by
  unfold column? at h
  split at h
  · rename_i t ht
    obtain ⟨d, hc, hd⟩ := map_eq_ok.mp h
    obtain rfl : d = c := Option.some.inj hd
    obtain ⟨enumValues, size, precision, scale, rfl⟩ := column_eq_plainColumn hc
    refine ⟨(columnText?_parts ht).1, ?_⟩
    have hset : drawn { t.plainColumn with enumValues, size, precision, scale }
        = { drawn t.plainColumn with enumValues, size, precision, scale } := rfl
    rw [hset, drawn_plainColumn]
  · exact nomatch h

/-- What a line says that has this kind. -/
def ParsedKind : LineKind → Prop
  | .entity name => IsName name
  | .relationship r => ParsedRelationship r
  | _ => True

theorem parsedKind (line : List Char) : ParsedKind (LineKind.of line) := by
  unfold LineKind.of
  split
  · trivial
  · split
    · rename_i hentity
      exact isName_entity? hentity
    · split
      · rename_i hrelationship
        exact parsedRelationship hrelationship
      · split <;> trivial

/-! ## Documents -/

/-- A table as it is drawn: no pivot, under a word, and with columns of different names. -/
structure ParsedTable (t : Table) : Prop where
  name : IsName t.name
  domain : t.isPivot = false
  columns : ∀ c ∈ t.columns, ParsedColumn c
  distinct : (t.columns.map Column.name).Nodup

/-- A document of drawn tables and relationships. -/
structure ParsedDocument (d : Document) : Prop where
  tables : ∀ t ∈ d.tables, ParsedTable t
  relationships : ∀ r ∈ d.relationships, ParsedRelationship r

/-- A draft whose complete part and whose open entity are drawn. -/
structure ParsedDraft (d : Draft) : Prop where
  tables : ∀ t ∈ d.document.tables ++ d.current.toList, ParsedTable t
  relationships : ∀ r ∈ d.document.relationships, ParsedRelationship r

theorem ParsedTable.withColumn {t : Table} (h : ParsedTable t) {c : Column} (hc : ParsedColumn c) :
    ParsedTable (Draft.withColumn t c) := by
  refine ⟨?_, (isPivot_withColumn t c).trans h.domain, ?_, nodup_withColumn h.distinct c⟩
  · rw [name_withColumn]
    exact h.name
  · intro d hd
    rcases mem_withColumn hd with hd | rfl
    · exact h.columns d hd
    · exact hc

/-- **A line that is read keeps a draft drawn.** -/
theorem ParsedDraft.add {d e : Draft} (h : ParsedDraft d) {kind : LineKind}
    (hkind : ParsedKind kind) (hadd : d.add kind = .ok e) : ParsedDraft e := by
  have hentity : ∀ name, kind = .entity name → ParsedTable { name } := by
    rintro name rfl
    exact ⟨hkind, rfl, by simp, by simp⟩
  have hrelationship : ∀ r, kind = .relationship r → ParsedRelationship r := by
    rintro r rfl
    exact hkind
  obtain ⟨htables, hrelationships⟩ := Draft.forall_add h.tables h.relationships hentity
    hrelationship (fun _ _ _ _ hcolumn ht => ht.withColumn (parsedColumn hcolumn)) hadd
  exact ⟨htables, hrelationships⟩

theorem ParsedDraft.addAll {kinds : List LineKind} (hkinds : ∀ kind ∈ kinds, ParsedKind kind)
    {d e : Draft} (h : ParsedDraft d) (hadd : kinds.foldlM Draft.add d = .ok e) :
    ParsedDraft e := by
  induction kinds generalizing d with
  | nil => rwa [← Except.ok.inj hadd]
  | cons kind kinds ih =>
    rw [List.foldlM_cons] at hadd
    obtain ⟨next, hnext, hadd⟩ := bind_eq_ok.mp hadd
    exact ih (fun k hk => hkinds k (List.mem_cons_of_mem kind hk))
      (h.add (hkinds kind List.mem_cons_self) hnext) hadd

/-- **What is read of a diagram is what can be drawn**, in any script. -/
theorem parsedDocument {text : String} {d : Document} (h : Document.parse text = .ok d) :
    ParsedDocument d := by
  unfold Document.parse at h
  obtain ⟨e, he, h⟩ := bind_eq_ok.mp h
  rw [← Except.ok.inj h]
  have hkinds : ∀ kind ∈ lineKinds text.toList, ParsedKind kind := by
    intro kind hkind
    obtain ⟨line, -, rfl⟩ := List.mem_map.mp hkind
    exact parsedKind _
  have hend := ParsedDraft.addAll hkinds (d := {}) ⟨by simp, by simp⟩ he
  exact ⟨hend.tables, hend.relationships⟩

end Crowsfoot.Diagram
