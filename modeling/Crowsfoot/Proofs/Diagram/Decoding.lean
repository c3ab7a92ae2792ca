import Crowsfoot.Proofs.Diagram.ColumnLine
import Crowsfoot.Proofs.Schema.Relationships

/-!
# A written diagram decodes to what it draws

`foldlM_add_lines`: the lines of a diagram, read one by one, give back its domain tables column by
column and its relationships in the order of their kinds. `parse_write` is the same for the whole
text; in a `DrawableSchema` each column is read as what its line shows (`parse_write_decodes`).

A draft in which no entity is open is what the induction is about: `foldlM_add_entityLines` leads
from one such draft to the next, with one table more.
-/

namespace Crowsfoot.Diagram

open Crowsfoot.Text

/-! ## Drawable schemas -/

/-- A table whose lines tell its columns apart. -/
structure DrawableTable (t : Table) : Prop where
  name : IsName t.name
  columns : ∀ c ∈ t.columns, Drawable c
  distinct : (t.columns.map Column.name).Nodup

/-- A relationship between names, with a name for the pivot if it has one. -/
def DrawableRelationship : Relationship → Prop
  | .oneToOne parent child => IsName parent ∧ IsName child
  | .oneToMany parent child => IsName parent ∧ IsName child
  | .manyToMany first second pivot => IsName first ∧ IsName second ∧ ∀ name ∈ pivot, IsName name

/-- A schema that a diagram can show. -/
structure DrawableSchema (s : Schema) : Prop where
  tables : ∀ t ∈ s.domainTables, DrawableTable t
  relationships : ∀ r ∈ s.relationships, DrawableRelationship r

/-- What a diagram shows of a domain table. -/
def drawnTable (t : Table) : Table :=
  { name := t.name, columns := t.columns.map drawn }

/-- What a diagram shows of a schema. -/
def decoded (s : Schema) : Document :=
  { tables := s.domainTables.map drawnTable, relationships := drawnRelationships s.relationships }

/-! ## Lines that are read -/

/-- A column whose line is read as a column of its name. -/
structure ReadsAs (c d : Column) : Prop where
  oneLine : OneLine (columnLine c).toList
  kind : LineKind.of (trim (columnLine c).toList) = .other (trim (columnLine c).toList)
  column : column? (trim (columnLine c).toList) = .ok (some d)
  name : d.name = c.name

/-- A table with a name for its entity, whose columns are told apart by their lines. -/
structure ReadableTable (read : Column → Column) (t : Table) : Prop where
  name : IsName t.name
  columns : ∀ c ∈ t.columns, ReadsAs c (read c)
  distinct : (t.columns.map Column.name).Nodup

/-- A schema whose lines are all read. -/
structure ReadableSchema (read : Column → Column) (s : Schema) : Prop where
  tables : ∀ t ∈ s.domainTables, ReadableTable read t
  relationships : ∀ r ∈ s.relationships, DrawableRelationship r

/-- What is read of the lines of a domain table. -/
def readTable (read : Column → Column) (t : Table) : Table :=
  { name := t.name, columns := t.columns.map read }

/-- What is read of the lines of a schema. -/
def readDocument (read : Column → Column) (s : Schema) : Document :=
  { tables := s.domainTables.map (readTable read)
    relationships := drawnRelationships s.relationships }

theorem Drawable.readsAs {c : Column} (h : Drawable c) : ReadsAs c (drawn c) :=
  ⟨oneLine_columnLine h.fitsLine, kind_columnLine h.fitsLine, column?_columnLine h, rfl⟩

theorem DrawableSchema.readable {s : Schema} (h : DrawableSchema s) : ReadableSchema drawn s :=
  ⟨fun t ht => ⟨(h.tables t ht).name, fun c hc => ((h.tables t ht).columns c hc).readsAs,
    (h.tables t ht).distinct⟩, h.relationships⟩

/-! ## Relationship lines -/

theorem kind_joinedLine {sign left right : String} {rest : List Char} {c : Char} {more : List Char}
    (hl : IsName left) (hsign : sign.toList = c :: more) (hword : isWord c = false)
    (hblank : isBlank c = false) {r : Relationship}
    (hr : relationship? (joinedLine sign left right rest) = some r) :
    LineKind.of (joinedLine sign left right rest) = .relationship r := by
  obtain ⟨d, ds, hds, hd⟩ := hl.exists_cons
  have hstart : StartsOutside isBlank (sign.toList ++ ' ' :: (right.toList ++ rest)) := by
    rw [hsign]
    exact startsOutside_cons.mpr hblank
  have hnext := afterWord_joinedLine hl hstart
  have hentity : entity? (joinedLine sign left right rest) = none := by
    apply entity?_eq_none
    rw [hnext, hsign]
    exact startsOutside_cons.mpr hword
  have hline : joinedLine sign left right rest
      = d :: (ds ++ ' ' :: (sign.toList ++ ' ' :: (right.toList ++ rest))) := by
    unfold joinedLine
    rw [hds]
    rfl
  have hquote : d ≠ '\'' := ne_of_isWord hd (by decide)
  unfold LineKind.of
  rw [hentity, hr, hline]
  simp [hquote]

theorem trim_joinedLine {sign left right : String} {rest : List Char} (hl : IsName left)
    (hr : IsName right) (hrest : EndsOutside isBlank rest) :
    trim (joinedLine sign left right rest) = joinedLine sign left right rest := by
  have hne : right.toList ++ rest ≠ [] := by simp [hr.nonempty]
  have hend : EndsOutside isBlank ((' ' :: (sign.toList ++ [' '])) ++ (right.toList ++ rest)) :=
    endsOutside_append hne (hr.endsOutside.append hrest)
  rw [List.cons_append, List.append_assoc, List.singleton_append] at hend
  exact strip_eq_self (hl.startsOutside _) (endsOutside_append (List.cons_ne_nil _ _) hend)

/-- The sign of a relationship, its ends and what follows them. -/
def relationshipParts : Relationship → String × String × String × List Char
  | .oneToOne parent child => (oneToOneSign, parent, child, [])
  | .oneToMany parent child => (oneToManySign, parent, child, [])
  | .manyToMany first second pivot => (manyToManySign, first, second, labelText pivot)

theorem toList_relationshipLine {r : Relationship} (h : DrawableRelationship r) :
    (relationshipLine r).toList
      = joinedLine (relationshipParts r).1 (relationshipParts r).2.1 (relationshipParts r).2.2.1
          (relationshipParts r).2.2.2 := by
  cases r with
  | oneToOne parent child => simp [relationshipLine, relationshipParts, joinedLine]
  | oneToMany parent child => simp [relationshipLine, relationshipParts, joinedLine]
  | manyToMany first second pivot =>
    cases pivot with
    | none => simp [relationshipLine, relationshipParts, joinedLine, labelText]
    | some name =>
      have hkept : (some name).filter (fun name => !name.isEmpty) = some name := by
        rw [Option.filter_some, (h.2.2 name rfl).isEmpty_eq_false]
        rfl
      simp only [relationshipLine, hkept]
      simp [relationshipParts, joinedLine, labelText]

theorem forall_mem_labelText {P : Char → Prop} {pivot : Option String}
    (hlead : ∀ c ∈ " : ".toList, P c) (hname : ∀ name ∈ pivot, ∀ c ∈ name.toList, P c) :
    ∀ c ∈ labelText pivot, P c := by
  cases pivot with
  | none => exact fun c hc => absurd hc (by simp [labelText])
  | some name =>
    intro c hc
    rcases List.mem_append.mp hc with hc | hc
    · exact hlead c hc
    · exact hname name rfl c hc

/-- **A relationship line states its relationship.** -/
theorem kind_relationshipLine {r : Relationship} (h : DrawableRelationship r) :
    LineKind.of (trim (relationshipLine r).toList) = .relationship r := by
  rw [toList_relationshipLine h]
  cases r with
  | oneToOne parent child =>
    obtain ⟨hp, hc⟩ := h
    dsimp only [relationshipParts]
    rw [trim_joinedLine hp hc endsOutside_nil]
    exact kind_joinedLine hp rfl (by decide) (by decide) (relationship?_oneToOne hp hc)
  | oneToMany parent child =>
    obtain ⟨hp, hc⟩ := h
    dsimp only [relationshipParts]
    rw [trim_joinedLine hp hc endsOutside_nil]
    exact kind_joinedLine hp rfl (by decide) (by decide) (relationship?_oneToMany hp hc)
  | manyToMany first second pivot =>
    obtain ⟨hf, hs, hpivot⟩ := h
    have hlabel : EndsOutside isBlank (labelText pivot) := by
      cases pivot with
      | none => exact endsOutside_nil
      | some name =>
        exact endsOutside_append (hpivot name rfl).nonempty (hpivot name rfl).endsOutside
    dsimp only [relationshipParts]
    rw [trim_joinedLine hf hs hlabel]
    exact kind_joinedLine hf rfl (by decide) (by decide) (relationship?_manyToMany hf hs hpivot)

/-! ## Reading the lines -/

/-- The kinds of lines. -/
def kinds (ls : List String) : List LineKind :=
  ls.map fun l => .of (trim l.toList)

variable {read : Column → Column}

/-- A draft without an open entity. -/
def closedDraft (tables : List Table) (relationships : List Relationship) : Draft :=
  { document := { tables, relationships } }

theorem kinds_cons (l : String) (ls : List String) :
    kinds (l :: ls) = LineKind.of (trim l.toList) :: kinds ls := rfl

theorem kinds_append (ls ms : List String) : kinds (ls ++ ms) = kinds ls ++ kinds ms :=
  List.map_append

/-- Lines are read one after the other. -/
theorem foldlM_kinds_append {ls : List String} {d e : Draft}
    (h : (kinds ls).foldlM Draft.add d = .ok e) (ms : List String) :
    (kinds (ls ++ ms)).foldlM Draft.add d = (kinds ms).foldlM Draft.add e := by
  rw [kinds_append, List.foldlM_append, h]
  rfl

theorem withColumn_of_fresh {t : Table} {c : Column} (h : ∀ d ∈ t.columns, d.name ≠ c.name) :
    Draft.withColumn t c = { t with columns := t.columns ++ [c] } := by
  have hnone : t.column? c.name = none := by
    unfold Table.column? findColumn?
    rw [List.find?_eq_none]
    intro d hd
    simpa using h d hd
  unfold Draft.withColumn
  rw [hnone]
  rfl

theorem add_columnLine {c d : Column} (h : ReadsAs c d) (name : String) {before : List Column}
    (hfresh : ∀ e ∈ before, e.name ≠ c.name) (document : Document) :
    Draft.add { document, current := some { name, columns := before } }
        (LineKind.of (trim (columnLine c).toList))
      = .ok { document, current := some { name, columns := before ++ [d] } } := by
  have hadd := withColumn_of_fresh (t := { name, columns := before }) (c := d)
    (by rw [h.name]; exact hfresh)
  rw [h.kind]
  simp only [Draft.add, h.column]
  show (Except.ok ⟨document, some (Draft.withColumn _ d)⟩ : Except ReadError Draft) = _
  rw [hadd]

theorem foldlM_add_columns (name : String) {columns before : List Column}
    (h : ∀ c ∈ columns, ReadsAs c (read c)) (hdistinct : (columns.map Column.name).Nodup)
    (hfresh : ∀ c ∈ columns, ∀ d ∈ before, d.name ≠ c.name) (document : Document) :
    (kinds (columns.map columnLine)).foldlM Draft.add
        { document, current := some { name, columns := before } }
      = .ok { document, current := some { name, columns := before ++ columns.map read } } := by
  induction columns generalizing before with
  | nil =>
    rw [List.map_nil, List.map_nil, List.append_nil]
    rfl
  | cons c columns ih =>
    rw [List.map_cons, List.nodup_cons] at hdistinct
    have hc := h c List.mem_cons_self
    have hstep := add_columnLine hc name (hfresh c List.mem_cons_self) document
    have hrest : ∀ e ∈ columns, ∀ d ∈ before ++ [read c], d.name ≠ e.name := by
      intro e he d hd
      rcases List.mem_append.mp hd with hd | hd
      · exact hfresh e (List.mem_cons_of_mem c he) d hd
      · rw [List.mem_singleton.mp hd, hc.name]
        intro heq
        exact hdistinct.1 (List.mem_map.mpr ⟨e, he, heq.symm⟩)
    rw [List.map_cons, kinds_cons, List.foldlM_cons, hstep]
    have := ih (fun d hd => h d (List.mem_cons_of_mem c hd)) hdistinct.2 hrest
    rw [List.append_assoc, List.singleton_append, ← List.map_cons] at this
    exact this

/-- **An entity is read back**, whatever has been read before. -/
theorem foldlM_add_entityLines {t : Table} (h : ReadableTable read t) (tables : List Table)
    (relationships : List Relationship) :
    (kinds (entityLines t ++ [""])).foldlM Draft.add (closedDraft tables relationships)
      = .ok (closedDraft (tables ++ [readTable read t]) relationships) := by
  have hopen : Draft.add (closedDraft tables relationships)
      (LineKind.of (trim ("entity " ++ t.name ++ " \x7b").toList))
      = .ok { document := { tables, relationships }, current := some { name := t.name } } := by
    rw [kind_entityLine h.name]
    simp [Draft.add, Draft.close, closedDraft]
  have hclose : kinds (["\x7d"] ++ [""]) = [.close, .silent] := by decide
  have hfresh : ∀ c ∈ t.columns, ∀ d ∈ ([] : List Column), d.name ≠ c.name := by simp
  have hcolumns := foldlM_add_columns t.name h.columns h.distinct hfresh { tables, relationships }
  unfold entityLines
  rw [List.append_assoc, List.append_assoc, List.singleton_append, kinds_cons, List.foldlM_cons,
    hopen]
  refine (foldlM_kinds_append hcolumns _).trans ?_
  rw [hclose]
  rfl

theorem foldlM_add_tables {ts : List Table} (h : ∀ t ∈ ts, ReadableTable read t)
    (before : List Table) :
    (kinds (ts.flatMap fun t => entityLines t ++ [""])).foldlM Draft.add (closedDraft before [])
      = .ok (closedDraft (before ++ ts.map (readTable read)) []) := by
  induction ts generalizing before with
  | nil =>
    rw [List.flatMap_nil, List.map_nil, List.append_nil]
    rfl
  | cons t ts ih =>
    have hstep := foldlM_add_entityLines (h t List.mem_cons_self) before []
    have hrest := ih (fun u hu => h u (List.mem_cons_of_mem t hu)) (before ++ [readTable read t])
    rw [List.append_assoc, List.singleton_append, ← List.map_cons] at hrest
    rw [List.flatMap_cons, foldlM_kinds_append hstep]
    exact hrest

theorem foldlM_add_relationshipLines {rs : List Relationship} (tables : List Table)
    (h : ∀ r ∈ rs, DrawableRelationship r) (read : List Relationship) :
    (kinds (rs.map relationshipLine)).foldlM Draft.add (closedDraft tables read)
      = .ok (closedDraft tables (read ++ rs)) := by
  induction rs generalizing read with
  | nil =>
    rw [List.map_nil, List.append_nil]
    rfl
  | cons r rs ih =>
    have hrest := ih (fun u hu => h u (List.mem_cons_of_mem r hu)) (read ++ [r])
    rw [List.append_assoc, List.singleton_append] at hrest
    rw [List.map_cons, kinds_cons, List.foldlM_cons, kind_relationshipLine (h r List.mem_cons_self)]
    exact hrest

/-- A comment line is not read. -/
theorem kind_comment (text : String) : LineKind.of (trim ("' " ++ text).toList) = .silent := by
  have hline : ("' " ++ text).toList = '\'' :: (' ' :: text.toList) := by
    rw [String.toList_append]
    rfl
  unfold trim LineKind.of
  rw [hline, strip_cons (by decide)]
  rfl

theorem mem_drawnRelationships {rs : List Relationship} {r : Relationship} :
    r ∈ drawnRelationships rs ↔ r ∈ Relationship.firstOfEachKey rs := by
  unfold drawnRelationships Relationship.ofKind
  rw [List.mem_flatMap]
  constructor
  · rintro ⟨kind, -, hr⟩
    exact (List.mem_filter.mp hr).1
  · intro hr
    refine ⟨r.kind, ?_, List.mem_filter.mpr ⟨hr, by simp⟩⟩
    cases r <;> simp [Relationship.kind, Relationship.Kind.all]

theorem mem_of_mem_drawnRelationships {rs : List Relationship} {r : Relationship}
    (h : r ∈ drawnRelationships rs) : r ∈ rs :=
  Relationship.mem_of_mem_firstOfEachKey (mem_drawnRelationships.mp h)

theorem foldlM_add_allRelationshipLines {rs : List Relationship} (tables : List Table)
    (h : ∀ r ∈ rs, DrawableRelationship r) :
    (kinds (relationshipLines rs)).foldlM Draft.add (closedDraft tables [])
      = .ok (closedDraft tables (drawnRelationships rs)) := by
  unfold relationshipLines
  cases rs with
  | nil => rfl
  | cons r rs =>
    have hlines := foldlM_add_relationshipLines tables
      (fun u hu => h u (mem_of_mem_drawnRelationships hu)) []
    have hcomment : LineKind.of (trim "' Relationships".toList) = .silent := by decide
    rw [List.isEmpty_cons, if_neg Bool.false_ne_true, kinds_cons, List.foldlM_cons, hcomment]
    exact hlines

/-- **The lines of a diagram**, read one by one, draw what it shows. -/
theorem foldlM_add_lines {s : Schema} (h : ReadableSchema read s) (generatedAt : Timestamp) :
    (kinds (lines s generatedAt)).foldlM Draft.add {} = .ok { document := readDocument read s } := by
  have hlead : (kinds ["@startuml", "' Generated on " ++ generatedAt.readable, ""]).foldlM
      Draft.add {} = .ok (closedDraft [] []) := by
    have hstamp : "' Generated on " ++ generatedAt.readable
        = "' " ++ ("Generated on " ++ generatedAt.readable) := by
      rw [← String.append_assoc]
      rfl
    have hstart : LineKind.of (trim "@startuml".toList) = .other "@startuml".toList := by decide
    rw [hstamp, kinds_cons, kinds_cons, hstart, kind_comment]
    rfl
  have htail : kinds ["", "@enduml"] = [.silent, .other "@enduml".toList] := by decide
  unfold lines
  rw [List.append_assoc, List.append_assoc, foldlM_kinds_append hlead,
    foldlM_kinds_append (foldlM_add_tables h.tables []),
    foldlM_kinds_append (foldlM_add_allRelationshipLines _ h.relationships), htail]
  rfl

/-! ## The text -/

theorem oneLine_repr (n : Nat) : OneLine (toString n).toList :=
  fun _ hc => isLineEnd_eq_false_of_isDigit (isDigit_of_mem_repr hc)

theorem oneLine_twoDigits (n : Nat) : OneLine (Timestamp.twoDigits n).toList := by
  unfold Timestamp.twoDigits
  split
  · rw [String.toList_append]
    exact OneLine.append (by decide) (oneLine_repr n)
  · exact oneLine_repr n

theorem oneLine_readable (t : Timestamp) : OneLine t.readable.toList := by
  have hdash : OneLine "-".toList := by decide
  have hspace : OneLine " ".toList := by decide
  have hcolon : OneLine ":".toList := by decide
  have hdate := ((((oneLine_repr t.year).append hdash).append (oneLine_twoDigits t.month)).append
    hdash).append (oneLine_twoDigits t.day)
  unfold Timestamp.readable
  simp only [String.toList_append]
  exact (((((hdate.append hspace).append (oneLine_twoDigits t.hour)).append hcolon).append
    (oneLine_twoDigits t.minute)).append hcolon).append (oneLine_twoDigits t.second)

theorem oneLine_joinedLine {sign left right : String} {rest : List Char} (hl : IsName left)
    (hsign : OneLine sign.toList) (hr : IsName right) (hrest : OneLine rest) :
    OneLine (joinedLine sign left right rest) := by
  have hspace : OneLine [' '] := by decide
  exact hl.oneLine.append (hspace.append (hsign.append (hspace.append (hr.oneLine.append hrest))))

theorem oneLine_relationshipLine {r : Relationship} (h : DrawableRelationship r) :
    OneLine (relationshipLine r).toList := by
  have hnil : OneLine [] := by decide
  have hone : OneLine oneToOneSign.toList := by decide
  have hmany : OneLine oneToManySign.toList := by decide
  have hboth : OneLine manyToManySign.toList := by decide
  rw [toList_relationshipLine h]
  cases r with
  | oneToOne parent child => exact oneLine_joinedLine h.1 hone h.2 hnil
  | oneToMany parent child => exact oneLine_joinedLine h.1 hmany h.2 hnil
  | manyToMany first second pivot =>
    have hlabel : OneLine (labelText pivot) :=
      forall_mem_labelText (by decide) fun name hname => (h.2.2 name hname).oneLine
    exact oneLine_joinedLine h.1 hboth h.2.1 hlabel

theorem oneLine_entityLines {t : Table} (h : ReadableTable read t) :
    ∀ l ∈ entityLines t, OneLine l.toList := by
  intro l hl
  unfold entityLines at hl
  rcases List.mem_append.mp hl with hl | hl
  · rcases List.mem_append.mp hl with hl | hl
    · rw [List.mem_singleton.mp hl, String.toList_append, String.toList_append]
      exact OneLine.append (OneLine.append (by decide) h.name.oneLine) (by decide)
    · obtain ⟨c, hc, rfl⟩ := List.mem_map.mp hl
      exact (h.columns c hc).oneLine
  · rw [List.mem_singleton.mp hl]
    decide

theorem oneLine_lines {s : Schema} (h : ReadableSchema read s) (generatedAt : Timestamp) :
    ∀ l ∈ lines s generatedAt, OneLine l.toList := by
  intro l hl
  simp only [lines, List.mem_append, List.mem_flatMap, List.mem_cons, List.not_mem_nil,
    or_false] at hl
  rcases hl with ((((rfl | rfl | rfl) | ⟨t, ht, hl | rfl⟩) | hl) | (rfl | rfl))
  · decide
  · rw [String.toList_append]
    exact OneLine.append (by decide) (oneLine_readable generatedAt)
  · decide
  · exact oneLine_entityLines (h.tables t ht) l hl
  · decide
  · unfold relationshipLines at hl
    split at hl
    · exact absurd hl (by simp)
    · rcases List.mem_cons.mp hl with rfl | hl
      · decide
      · obtain ⟨r, hr, rfl⟩ := List.mem_map.mp hl
        exact oneLine_relationshipLine (h.relationships r (mem_of_mem_drawnRelationships hr))
  · decide
  · decide

theorem lineKinds_write {s : Schema} (h : ReadableSchema read s) (generatedAt : Timestamp) :
    lineKinds (write s generatedAt).toList = kinds (lines s generatedAt) := by
  have hlines : splitLines (write s generatedAt).toList
      = (lines s generatedAt).map String.toList := by
    unfold write
    rw [String.toList_intercalate]
    apply splitLines_intercalate
    · intro l hl
      obtain ⟨line, hline, rfl⟩ := List.mem_map.mp hl
      exact oneLine_lines h generatedAt line hline
    · unfold lines
      rw [List.map_append, List.getLast?_append]
      exact fun heq => absurd (Option.some.inj heq) (by decide)
  unfold lineKinds kinds
  rw [hlines, List.map_map]
  rfl

/-- **A written diagram is read back**, each column as what its line is read as. -/
theorem parse_write {s : Schema} (h : ReadableSchema read s) (generatedAt : Timestamp) :
    Document.parse (write s generatedAt) = .ok (readDocument read s) := by
  unfold Document.parse
  rw [lineKinds_write h, foldlM_add_lines h]
  have hclosed : (Draft.close { document := readDocument read s }).document
      = readDocument read s := by
    simp [Draft.close]
  exact congrArg Except.ok hclosed

/-- **A written diagram decodes to what it draws**: the domain tables in their order, every column
with what its line shows, and the relationships by kind, the first of each key. -/
theorem parse_write_decodes {s : Schema} (h : DrawableSchema s) (generatedAt : Timestamp) :
    Document.parse (write s generatedAt) = .ok (decoded s) := by
  have hdrawn : readDocument drawn s = decoded s := rfl
  rw [parse_write h.readable, hdrawn]

/-- A shop: a customer has orders, and a column of each kind is among theirs. -/
def shop : Schema :=
  { tables :=
      [{ name := "Customer"
         columns :=
          [{ name := "id", type := .bigint, nullable := false, primary := true },
           { name := "name", size := some 100, nullable := false, comment := some "as printed" }] },
       { name := "Order"
         columns :=
          [{ name := "total", type := .decimal, precision := some 8, scale := some 2 },
           { name := "state", type := .enum, enumValues := ["open", "sent"] }] }]
    relationships := [.oneToMany "Customer" "Order"] }

theorem parse_write_decodes_shop :
    DrawableSchema shop
      ∧ Document.parse (write shop ⟨2024, 3, 5, 14, 7, 9⟩) = .ok (decoded shop) := by
  have hprinted : Quotable "as printed" := by decide
  have hopen : Quotable "open" := by decide
  have hsent : Quotable "sent" := by decide
  have hcustomer : DrawableTable shop.tables[0] := by
    refine ⟨by decide, ?_, by decide⟩
    intro c hc
    simp only [shop, List.getElem_cons_zero, List.mem_cons, List.not_mem_nil, or_false] at hc
    rcases hc with rfl | rfl
    · exact ⟨by decide, by decide, by simp, by simp, .none rfl rfl rfl rfl⟩
    · refine ⟨by decide, by decide, ?_, ?_, .size 100 (by decide) (by decide) rfl rfl rfl rfl
        (by decide)⟩
      · intro text ht
        rw [← Option.mem_some_iff.mp ht]
        exact hprinted
      · intro text ht
        rw [← Option.mem_some_iff.mp ht]
        decide
  have horder : DrawableTable shop.tables[1] := by
    refine ⟨by decide, ?_, by decide⟩
    intro c hc
    simp only [shop, List.getElem_cons_succ, List.getElem_cons_zero, List.mem_cons,
      List.not_mem_nil, or_false] at hc
    rcases hc with rfl | rfl
    · exact ⟨by decide, by decide, by simp, by simp,
        .precisionAndScale 8 2 (by decide) rfl rfl rfl rfl (by decide) (by decide)⟩
    · refine ⟨by decide, by decide, by simp, by simp, .values rfl (by decide) ?_ ?_ rfl rfl rfl⟩
      · simpa using ⟨hopen, hsent⟩
      · decide
  have hshop : DrawableSchema shop := by
    refine ⟨?_, ?_⟩
    · intro t ht
      have : t = shop.tables[0] ∨ t = shop.tables[1] := by
        simpa [Schema.domainTables, shop] using ht
      rcases this with rfl | rfl
      · exact hcustomer
      · exact horder
    · intro r hr
      rw [List.mem_singleton.mp hr]
      exact (⟨by decide, by decide⟩ : IsName "Customer" ∧ IsName "Order")
  exact ⟨hshop, parse_write_decodes hshop _⟩

end Crowsfoot.Diagram
