import Crowsfoot.Proofs.Diagram.Parsing

/-!
# Where the lines of a diagram stand

`parse_placement`: lines of no form do not count, wherever they stand; a relationship line may stand
anywhere, also inside an entity, as only the order of the relationships follows from it; and a
diagram that leaves no entity open can be continued by another.

What a line does depends on the draft only through the entity that is open. So a line commutes with
whatever leaves that entity alone: with stating relationships (`add_stating`) and with putting a
document before the draft (`add_following`). `foldlM_map` carries either to all lines. With the
first, the relationship lines of a diagram are collected apart from the others (`foldlM_add`).
-/

namespace Crowsfoot.Diagram

open Crowsfoot.Text

/-! ## Lines of no form -/

/-- A trimmed line that is blank, a comment or of no form. -/
def IsNoise (line : List Char) : Prop :=
  line = [] ∨ line.head? = some '\'' ∨ entity? line = none ∧ relationship? line = none
    ∧ line ≠ ['\x7d'] ∧ columnText? line = none

instance (line : List Char) : Decidable (IsNoise line) :=
  inferInstanceAs (Decidable (_ ∨ _ ∨ _ ∧ _ ∧ _ ∧ _))

theorem add_of_isNoise {line : List Char} (h : IsNoise line) (d : Draft) :
    d.add (LineKind.of line) = .ok d := by
  rcases h with rfl | hcomment | ⟨hentity, hrelationship, hclose, hcolumn⟩
  · rfl
  · have hkind : LineKind.of line = .silent := by
      unfold LineKind.of
      rw [if_pos (by simp [hcomment])]
    rw [hkind]
    rfl
  · unfold LineKind.of
    split
    · rfl
    · simp only [hentity, hrelationship, beq_iff_eq, hclose, if_false]
      unfold Draft.add
      cases d.current with
      | none => rfl
      | some t =>
        simp only [column?, hcolumn]
        rfl

/-! ## Relationship lines -/

/-- A relationship line begins with a word, which a sign follows. -/
theorem sign_of_relationship? {line : List Char} {r : Relationship}
    (h : relationship? line = some r) :
    ∃ c, (afterWord line).head? = some c ∧ isWord c = false ∧ ¬StartsOutside isWord line := by
  have hfound : ∃ sign c more, (sign.toList = c :: more ∧ isWord c = false)
      ∧ joined? sign line ≠ none := by
    by_contra hnone
    have hjoined : ∀ (sign : String) (c : Char) (more : List Char),
        sign.toList = c :: more → isWord c = false → joined? sign line = none := by
      intro sign c more hsign hc
      by_contra hne
      exact hnone ⟨sign, c, more, ⟨hsign, hc⟩, hne⟩
    have hmany := hjoined _ _ _ toList_oneToManySign (by decide)
    have hone := hjoined _ _ _ toList_oneToOneSign (by decide)
    have hboth := hjoined _ _ _ toList_manyToManySign (by decide)
    simp [relationship?, ends?, manyToMany?, hmany, hone, hboth] at h
  obtain ⟨sign, c, more, ⟨hsign, hc⟩, hne⟩ := hfound
  refine ⟨c, ?_, hc, fun hstart => ?_⟩
  · by_contra hhead
    exact hne (joined?_eq_none hsign hhead)
  · apply hne
    unfold joined?
    rw [word?_eq_none hstart]
    rfl

/-- **A relationship line is nothing else.** -/
theorem kind_of_relationship? {line : List Char} {r : Relationship}
    (h : relationship? line = some r) : LineKind.of line = .relationship r := by
  obtain ⟨c, hhead, hc, hstart⟩ := sign_of_relationship? h
  have hentity : entity? line = none := by
    apply entity?_eq_none
    intro d hd
    rw [hhead] at hd
    rwa [← Option.some.inj hd]
  have hsilent : ¬(line.isEmpty || line.head? == some '\'') = true := by
    intro hsilent
    apply hstart
    intro d hd
    cases line with
    | nil => exact nomatch hd
    | cons e line =>
      simp only [List.isEmpty_cons, Bool.false_or, List.head?_cons, beq_iff_eq, Option.some.injEq]
        at hsilent
      rw [← Option.some.inj hd, hsilent]
      decide
  unfold LineKind.of
  rw [if_neg hsilent, hentity, h]

/-- The relationship that a line of this kind states. -/
def LineKind.stated? : LineKind → Option Relationship
  | .relationship r => some r
  | _ => none

theorem stated?_of (line : List Char) : (LineKind.of line).stated? = relationship? line := by
  cases h : relationship? line with
  | some r => rw [kind_of_relationship? h]; rfl
  | none =>
    unfold LineKind.of
    split
    · rfl
    · split
      · rfl
      · rw [h]
        dsimp only
        split <;> rfl

/-- Lines by kind. -/
def kindsIn (lines : List (List Char)) : List LineKind :=
  lines.map fun line => .of (trim line)

/-- The relationships that lines state, in their order. -/
def relationshipsIn (lines : List (List Char)) : List Relationship :=
  lines.filterMap fun line => relationship? (trim line)

theorem filterMap_stated? (lines : List (List Char)) :
    (kindsIn lines).filterMap LineKind.stated? = relationshipsIn lines := by
  unfold kindsIn
  rw [List.filterMap_map]
  exact List.filterMap_congr fun line _ => stated?_of (trim line)

/-! ## Steps that commute with others -/

/-- A draft with more relationships behind its own. -/
def Draft.stating (d : Draft) (rs : List Relationship) : Draft :=
  { d with document.relationships := d.document.relationships ++ rs }

theorem stating_nil (d : Draft) : d.stating [] = d := by
  unfold Draft.stating
  rw [List.append_nil]

theorem stating_stating (d : Draft) (rs ss : List Relationship) :
    (d.stating rs).stating ss = d.stating (rs ++ ss) := by
  unfold Draft.stating
  rw [← List.append_assoc]

/-- A line that states no relationship does the same whatever has been stated. -/
theorem add_stating {kind : LineKind} (h : kind.stated? = none) (d : Draft)
    (rs : List Relationship) : (d.stating rs).add kind = (d.add kind).map (·.stating rs) := by
  cases kind with
  | relationship r => exact nomatch h
  | silent | entity name | close => rfl
  | other text =>
    obtain ⟨document, current⟩ := d
    cases current with
    | none => rfl
    | some t =>
      simp only [Draft.add, Draft.stating]
      cases column? text with
      | error e => rfl
      | ok column => cases column <;> rfl

/-- **Relationship lines are collected apart from the others**, wherever they stand. -/
theorem foldlM_add (kinds : List LineKind) (d : Draft) :
    kinds.foldlM Draft.add d
      = ((kinds.filter fun kind => kind.stated?.isNone).foldlM Draft.add d).map
        (·.stating (kinds.filterMap LineKind.stated?)) := by
  induction kinds generalizing d with
  | nil => exact congrArg Except.ok (stating_nil d).symm
  | cons kind kinds ih =>
    cases hkind : kind.stated? with
    | none =>
      rw [List.filter_cons_of_pos (by rw [hkind]; rfl), List.filterMap_cons_none hkind,
        List.foldlM_cons, List.foldlM_cons]
      cases d.add kind with
      | error e => rfl
      | ok e => exact ih e
    | some r =>
      have hadd : d.add kind = .ok (d.stating [r]) := by
        cases kind with
        | relationship s => rw [Option.some.inj hkind]; rfl
        | _ => exact nomatch hkind
      have hothers : ∀ other ∈ kinds.filter fun kind => kind.stated?.isNone, ∀ e : Draft,
          (e.stating [r]).add other = (e.add other).map (·.stating [r]) := by
        intro other hother e
        exact add_stating (Option.isNone_iff_eq_none.mp (List.mem_filter.mp hother).2) e [r]
      rw [List.filter_cons_of_neg (by rw [hkind]; simp), List.filterMap_cons_some hkind,
        List.foldlM_cons, hadd]
      refine (ih (d.stating [r])).trans ?_
      rw [foldlM_map hothers d]
      cases (kinds.filter fun kind => kind.stated?.isNone).foldlM Draft.add d with
      | error e => rfl
      | ok e => exact congrArg Except.ok (stating_stating e [r] _)

/-! ## Documents one after the other -/

/-- One document behind another. -/
def Document.append (a b : Document) : Document :=
  { tables := a.tables ++ b.tables
    relationships := a.relationships ++ b.relationships }

instance : Append Document :=
  ⟨Document.append⟩

/-- A draft whose complete part follows a document. -/
def Draft.following (a : Document) (d : Draft) : Draft :=
  { d with document := a ++ d.document }

theorem close_following (a : Document) (d : Draft) :
    (d.following a).close = d.close.following a := by
  have htables : a.tables ++ d.document.tables ++ d.current.toList
      = a.tables ++ (d.document.tables ++ d.current.toList) := List.append_assoc ..
  simp only [Draft.close, Draft.following]
  exact congrArg (fun tables => (⟨⟨tables, _⟩, none⟩ : Draft)) htables

/-- A line does the same whatever is complete before it. -/
theorem add_following (a : Document) (kind : LineKind) (d : Draft) :
    (d.following a).add kind = (d.add kind).map (·.following a) := by
  cases kind with
  | silent => rfl
  | entity name =>
    have hclose := close_following a d
    simp only [Draft.add, hclose]
    rfl
  | relationship r =>
    have hrelationships : a.relationships ++ d.document.relationships ++ [r]
        = a.relationships ++ (d.document.relationships ++ [r]) := List.append_assoc ..
    exact congrArg (fun rs => Except.ok (⟨⟨_, rs⟩, _⟩ : Draft)) hrelationships
  | close => exact congrArg Except.ok (close_following a d)
  | other text =>
    obtain ⟨document, current⟩ := d
    cases current with
    | none => rfl
    | some t =>
      simp only [Draft.add, Draft.following]
      cases column? text with
      | error e => rfl
      | ok column => cases column <;> rfl

/-- Whether a text leaves an entity open. -/
def leavesOpen (text : String) : Bool :=
  (lineKinds text.toList).foldl Document.opens false

theorem isSome_current_add {d e : Draft} {kind : LineKind} (h : d.add kind = .ok e) :
    e.current.isSome = Document.opens d.current.isSome kind := by
  cases kind with
  | silent | entity name | relationship r | close => rw [← Except.ok.inj h]; rfl
  | other text =>
    unfold Draft.add at h
    dsimp only at h
    split at h
    · rw [← Except.ok.inj h]
      rfl
    · rename_i t hopen
      obtain ⟨column, -, h⟩ := bind_eq_ok.mp h
      rw [hopen]
      cases column <;> rw [← Except.ok.inj h]
      · rw [hopen]
        rfl
      · rfl

theorem isSome_current_foldlM {kinds : List LineKind} {d e : Draft}
    (h : kinds.foldlM Draft.add d = .ok e) :
    e.current.isSome = kinds.foldl Document.opens d.current.isSome := by
  induction kinds generalizing d with
  | nil => rw [← Except.ok.inj h]; rfl
  | cons kind kinds ih =>
    rw [List.foldlM_cons] at h
    obtain ⟨next, hnext, h⟩ := bind_eq_ok.mp h
    rw [ih h, isSome_current_add hnext, List.foldl_cons]

/-- A line states at most one relationship, which comes behind the others. -/
theorem relationships_add {d e : Draft} {kind : LineKind} (h : d.add kind = .ok e) :
    e.document.relationships = d.document.relationships ++ kind.stated?.toList := by
  have hnone : d.document.relationships = d.document.relationships ++ [] := by
    rw [List.append_nil]
  cases kind with
  | silent | entity name | close => rw [← Except.ok.inj h]; exact hnone
  | relationship r => rw [← Except.ok.inj h]; rfl
  | other text =>
    unfold Draft.add at h
    dsimp only at h
    split at h
    · rw [← Except.ok.inj h]
      exact hnone
    · obtain ⟨column, -, h⟩ := bind_eq_ok.mp h
      cases column <;> rw [← Except.ok.inj h] <;> exact hnone

theorem relationships_foldlM {kinds : List LineKind} {d e : Draft}
    (h : kinds.foldlM Draft.add d = .ok e) :
    e.document.relationships
      = d.document.relationships ++ kinds.filterMap LineKind.stated? := by
  induction kinds generalizing d with
  | nil => rw [← Except.ok.inj h]; exact (List.append_nil _).symm
  | cons kind kinds ih =>
    rw [List.foldlM_cons] at h
    obtain ⟨next, hnext, h⟩ := bind_eq_ok.mp h
    rw [ih h, relationships_add hnext, List.append_assoc]
    cases hkind : kind.stated? with
    | none => rw [List.filterMap_cons_none hkind]; rfl
    | some r => rw [List.filterMap_cons_some hkind]; rfl

/-! ## Reading -/

/-- What is drawn by lines of the given kinds. -/
def Document.ofKinds (kinds : List LineKind) : Except ReadError Document := do
  let draft ← kinds.foldlM Draft.add {}
  return draft.close.document

theorem parse_eq_ofKinds {text : String} {lines : List (List Char)}
    (h : splitLines text.toList = lines) :
    Document.parse text = Document.ofKinds (kindsIn lines) := by
  rw [← h]
  rfl

/-- A line that changes no draft may be left out. -/
theorem ofKinds_insert {kind : LineKind} (h : ∀ d : Draft, d.add kind = .ok d)
    (before after : List LineKind) :
    Document.ofKinds (before ++ kind :: after) = Document.ofKinds (before ++ after) := by
  unfold Document.ofKinds
  rw [List.foldlM_append, List.foldlM_append]
  cases before.foldlM Draft.add {} with
  | error e => rfl
  | ok d =>
    have hstep : (kind :: after).foldlM Draft.add d = after.foldlM Draft.add d := by
      rw [List.foldlM_cons, h]
      rfl
    exact congrArg (· >>= fun draft : Draft => pure draft.close.document) hstep

/-- A document has the relationships that its lines state, in their order. -/
theorem relationships_ofKinds {kinds : List LineKind} {d : Document}
    (h : Document.ofKinds kinds = .ok d) : d.relationships = kinds.filterMap LineKind.stated? := by
  unfold Document.ofKinds at h
  obtain ⟨e, he, h⟩ := bind_eq_ok.mp h
  rw [← Except.ok.inj h]
  exact (relationships_foldlM he).trans (List.nil_append _)

/-- **Relationship lines have no effect on the tables**, wherever they stand. -/
theorem ofKinds_eq (kinds : List LineKind) :
    Document.ofKinds kinds
      = (Document.ofKinds (kinds.filter fun kind => kind.stated?.isNone)).map fun d =>
        { d with relationships := kinds.filterMap LineKind.stated? } := by
  have hnone : (kinds.filter fun kind => kind.stated?.isNone).filterMap LineKind.stated? = [] := by
    rw [List.filterMap_eq_nil_iff]
    exact fun kind hkind => Option.isNone_iff_eq_none.mp (List.mem_filter.mp hkind).2
  have hbare := @relationships_ofKinds (kinds.filter fun kind => kind.stated?.isNone)
  rw [hnone] at hbare
  unfold Document.ofKinds at hbare ⊢
  rw [foldlM_add]
  cases he : (kinds.filter fun kind => kind.stated?.isNone).foldlM Draft.add {} with
  | error e => rfl
  | ok e =>
    rw [he] at hbare
    have hclosed : e.close.document.relationships = [] := hbare rfl
    have hrelationships : e.document.relationships = [] := hclosed
    show Except.ok (Draft.stating e _).close.document = _
    simp only [Draft.stating, Draft.close, hrelationships, List.nil_append]
    rfl

/-- **What follows a diagram without an open entity is read for itself.** -/
theorem ofKinds_append {kinds : List LineKind} {d : Document}
    (h : Document.ofKinds kinds = .ok d) (hclosed : kinds.foldl Document.opens false = false)
    (more : List LineKind) :
    Document.ofKinds (kinds ++ more) = (Document.ofKinds more).map (d ++ ·) := by
  unfold Document.ofKinds at h
  obtain ⟨e, he, h⟩ := bind_eq_ok.mp h
  have hcurrent : e.current = none := by
    have hisSome : e.current.isSome = kinds.foldl Document.opens false :=
      isSome_current_foldlM he
    rw [hclosed] at hisSome
    simpa using hisSome
  have hdraft : e = Draft.following d {} := by
    obtain ⟨document, current⟩ := e
    obtain rfl : current = none := hcurrent
    have hdocument : d = document := by
      rw [← Except.ok.inj h]
      simp [Draft.close]
    rw [hdocument]
    show _ = (⟨⟨document.tables ++ [], document.relationships ++ []⟩, none⟩ : Draft)
    rw [List.append_nil, List.append_nil]
  unfold Document.ofKinds
  rw [List.foldlM_append, he, hdraft]
  show (more.foldlM Draft.add (Draft.following d {}) >>= _) = _
  rw [foldlM_map fun kind _ draft => add_following d kind draft]
  cases more.foldlM Draft.add {} with
  | error e => rfl
  | ok e => exact congrArg (fun draft : Draft => Except.ok draft.document) (close_following d e)

/-! ## Lines of a text -/

/-- A relationship line among others states its relationship there, and nothing else. -/
theorem ofKinds_relationship {line : List Char} {r : Relationship}
    (h : relationship? (trim line) = some r) (before after : List (List Char)) :
    Document.ofKinds (kindsIn (before ++ line :: after))
      = (Document.ofKinds ((kindsIn (before ++ after)).filter fun kind => kind.stated?.isNone)).map
        fun d => { d with relationships := relationshipsIn before ++ r :: relationshipsIn after } := by
  have hstated : (LineKind.of (trim line)).stated? = some r := (stated?_of _).trans h
  have hkinds : kindsIn (before ++ line :: after)
      = kindsIn before ++ LineKind.of (trim line) :: kindsIn after := List.map_append
  have hothers : kindsIn (before ++ after) = kindsIn before ++ kindsIn after := List.map_append
  rw [ofKinds_eq, hkinds, hothers, List.filter_append, List.filter_append,
    List.filter_cons_of_neg (by rw [hstated]; simp), List.filterMap_append,
    List.filterMap_cons_some hstated, filterMap_stated?, filterMap_stated?]

/-- Blank lines before a diagram are skipped. -/
theorem ofKinds_blank {gap : List (List Char)} (h : ∀ line ∈ gap, line = [])
    (kinds : List LineKind) : Document.ofKinds (kindsIn gap ++ kinds) = Document.ofKinds kinds := by
  induction gap with
  | nil => rfl
  | cons line gap ih =>
    rw [h line List.mem_cons_self, ← ih fun l hl => h l (List.mem_cons_of_mem _ hl)]
    exact ofKinds_insert (fun _ => rfl) [] (kindsIn gap ++ kinds)

/-- **Diagrams can be put one behind the other**, if the first leaves no entity open. -/
theorem parse_append {first : String} {d : Document} (h : Document.parse first = .ok d)
    (hclosed : leavesOpen first = false) (second : String) :
    Document.parse (first ++ "\n" ++ second) = (Document.parse second).map (d ++ ·) := by
  obtain ⟨gap, hgap, hlines⟩ := splitLines_go_append_lineFeed [] first.toList second.toList
  have hjoined : splitLines (first ++ "\n" ++ second).toList
      = splitLines first.toList ++ (gap ++ splitLines second.toList) := by
    have htoList : (first ++ "\n" ++ second).toList = first.toList ++ '\n' :: second.toList := by
      simp
    rw [htoList]
    exact hlines
  have hkinds : kindsIn (splitLines first.toList ++ (gap ++ splitLines second.toList))
      = lineKinds first.toList ++ (kindsIn gap ++ lineKinds second.toList) := by
    unfold kindsIn
    rw [List.map_append, List.map_append]
    rfl
  rw [parse_eq_ofKinds hjoined, hkinds, ofKinds_append h hclosed, ofKinds_blank hgap]
  rfl

/-- **The place of a line.** A line of no form may stand between any two lines: nothing else is read.
A relationship line may be moved between any two other lines: the tables stay as they are, and the
relationships are those that the lines state, in the new order. And what follows a diagram that
leaves no entity open, on a line of its own, is read for itself and put behind it. -/
theorem parse_placement :
    (∀ (text noisy : String) (before after : List (List Char)) (line : List Char),
      splitLines text.toList = before ++ after →
      splitLines noisy.toList = before ++ line :: after →
      IsNoise (trim line) → Document.parse noisy = Document.parse text)
    ∧ (∀ (text moved : String) (before after before' after' : List (List Char)) (line : List Char)
        (r : Relationship) (d : Document),
      splitLines text.toList = before ++ line :: after →
      splitLines moved.toList = before' ++ line :: after' → before ++ after = before' ++ after' →
      relationship? (trim line) = some r → Document.parse text = .ok d →
      d.relationships = relationshipsIn before ++ r :: relationshipsIn after
        ∧ Document.parse moved = .ok
          { tables := d.tables
            relationships := relationshipsIn before' ++ r :: relationshipsIn after' })
    ∧ ∀ (first second : String) (d : Document),
      Document.parse first = .ok d → leavesOpen first = false →
      Document.parse (first ++ "\n" ++ second) = (Document.parse second).map (d ++ ·) := by
  refine ⟨?_, ?_, fun first second d hfirst hclosed => parse_append hfirst hclosed second⟩
  · intro text noisy before after line htext hnoisy hnoise
    have hinsert := ofKinds_insert (add_of_isNoise hnoise) (kindsIn before) (kindsIn after)
    rw [parse_eq_ofKinds htext, parse_eq_ofKinds hnoisy]
    unfold kindsIn at hinsert ⊢
    rwa [List.map_append, List.map_append, List.map_cons]
  · intro text moved before after before' after' line r d htext hmoved hrest hr hparse
    rw [parse_eq_ofKinds htext, ofKinds_relationship hr, hrest] at hparse
    rw [parse_eq_ofKinds hmoved, ofKinds_relationship hr]
    cases hbase : Document.ofKinds
        ((kindsIn (before' ++ after')).filter fun kind => kind.stated?.isNone) with
    | error e =>
      rw [hbase] at hparse
      exact nomatch hparse
    | ok base =>
      rw [hbase] at hparse
      rw [← Except.ok.inj hparse]
      exact ⟨rfl, rfl⟩

/-- An entity with a column, and two relationships behind it. -/
def blogText : String :=
  "entity User \x7b
  name : text
\x7d
User ||--o\x7b Post
User ||--|| Profile"

/-- The same, with a line of no form inside the entity. -/
def noisyBlogText : String :=
  "entity User \x7b
hide circle
  name : text
\x7d
User ||--o\x7b Post
User ||--|| Profile"

/-- The same, with a relationship inside the entity. -/
def movedBlogText : String :=
  "entity User \x7b
User ||--|| Profile
  name : text
\x7d
User ||--o\x7b Post"

/-- What `blogText` draws. -/
def drawnBlog : Document :=
  { tables := [{ name := "User", columns := [{ name := "name", type := .text }] }]
    relationships := [.oneToMany "User" "Post", .oneToOne "User" "Profile"] }

theorem parse_blogText : Document.parse blogText = .ok drawnBlog := by
  unfold Document.parse blogText
  rw [String.toList_ofList]
  decide

theorem parse_placement_blog :
    Document.parse blogText = .ok drawnBlog
      ∧ Document.parse noisyBlogText = .ok drawnBlog
      ∧ Document.parse movedBlogText = .ok
        { drawnBlog with relationships := [.oneToOne "User" "Profile", .oneToMany "User" "Post"] }
      ∧ Document.parse (blogText ++ "\n" ++ movedBlogText) = .ok
        { tables := drawnBlog.tables ++ drawnBlog.tables
          relationships :=
            [.oneToMany "User" "Post", .oneToOne "User" "Profile", .oneToOne "User" "Profile",
              .oneToMany "User" "Post"] } := by
  obtain ⟨hnoise, hmove, happend⟩ := parse_placement
  have hmoved := (hmove blogText movedBlogText
    ["entity User \x7b".toList, "  name : text".toList, "\x7d".toList, "User ||--o\x7b Post".toList] []
    ["entity User \x7b".toList] ["  name : text".toList, "\x7d".toList, "User ||--o\x7b Post".toList]
    "User ||--|| Profile".toList (.oneToOne "User" "Profile") drawnBlog (by rfl) (by rfl) rfl
    (by decide) parse_blogText).2
  refine ⟨parse_blogText, ?_, hmoved, ?_⟩
  · rw [hnoise blogText noisyBlogText ["entity User \x7b".toList]
      ["  name : text".toList, "\x7d".toList, "User ||--o\x7b Post".toList,
        "User ||--|| Profile".toList]
      "hide circle".toList (by rfl) (by rfl) (by decide)]
    exact parse_blogText
  · rw [happend blogText movedBlogText drawnBlog parse_blogText (by decide), hmoved]
    rfl

end Crowsfoot.Diagram
