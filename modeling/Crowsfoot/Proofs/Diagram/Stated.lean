import Crowsfoot.Proofs.Diagram.ColumnLine
import Crowsfoot.Proofs.Fallible
import Crowsfoot.Proofs.Naming.Models

/-!
# What diagrams in ASCII state

A diagram in ASCII is always read (`parse_ascii`), and what is read is `StatedDocument`: columns of
one table have different names, and each is what a line can state (`StatedColumn`). Such a column
only lacks what a comment and parameters need to be told apart in its own line
(`StatedColumn.drawable`).

A line is read for parts that have no other characters than the line (`columnText?_parts`); reading
is a fold, and `StatedDraft` is what a line preserves (`add_stated`). What a line can do to a draft
is told once, for whatever holds of tables and relationships (`Draft.forall_add`).
-/

namespace Crowsfoot.Text

/-! ## Parts of a text -/

theorem mem_pieces {sep : Char} {cs piece : List Char} (h : piece ∈ pieces sep cs) :
    sep ∉ piece ∧ ∀ c ∈ piece, c ∈ cs := by
  induction cs generalizing piece with
  | nil =>
    rw [pieces, List.mem_singleton] at h
    rw [h]
    exact ⟨by simp, by simp⟩
  | cons c cs ih =>
    have hrest : ∀ p ∈ pieces sep cs, sep ∉ p ∧ ∀ d ∈ p, d ∈ c :: cs := fun p hp =>
      ⟨(ih hp).1, fun d hd => List.mem_cons_of_mem c ((ih hp).2 d hd)⟩
    unfold pieces at h
    split at h
    · rcases List.mem_cons.mp h with rfl | h
      · exact ⟨by simp, by simp⟩
      · exact hrest piece h
    · rename_i hc
      split at h
      · rw [List.mem_singleton.mp h]
        exact ⟨by simpa using Ne.symm hc, by simp⟩
      · rename_i p ps heq
        rcases List.mem_cons.mp h with rfl | h
        · have hp := hrest p (by rw [heq]; exact List.mem_cons_self)
          constructor
          · rw [List.mem_cons, not_or]
            exact ⟨Ne.symm hc, hp.1⟩
          · intro d hd
            rcases List.mem_cons.mp hd with rfl | hd
            · exact List.mem_cons_self
            · exact hp.2 d hd
        · exact hrest piece (by rw [heq]; exact List.mem_cons_of_mem p h)

theorem oneLine_reverse {run : List Char} (h : OneLine run) (cs : List Char) :
    OneLine run.reverse ∧ ∀ c ∈ run.reverse, c ∈ run ∨ c ∈ cs :=
  ⟨fun c hc => h c (List.mem_reverse.mp hc), fun _ hc => Or.inl (List.mem_reverse.mp hc)⟩

theorem mem_splitLines_go {run cs line : List Char} (h : line ∈ splitLines.go run cs)
    (hrun : OneLine run) : OneLine line ∧ ∀ c ∈ line, c ∈ run ∨ c ∈ cs := by
  fun_induction splitLines.go run cs with
  | case1 run hempty => exact absurd h (by simp)
  | case2 run hempty =>
    rw [List.mem_singleton.mp h]
    exact oneLine_reverse hrun []
  | case3 run rest ih =>
    rcases List.mem_cons.mp h with rfl | h
    · exact oneLine_reverse hrun _
    · obtain ⟨hone, hmem⟩ := ih h (by simp [OneLine])
      refine ⟨hone, fun c hc => Or.inr ?_⟩
      have hc : c ∈ rest := (hmem c hc).resolve_left (by simp)
      exact List.mem_cons_of_mem _ (List.mem_cons_of_mem _ hc)
  | case4 run c rest _ hend ih =>
    rcases List.mem_cons.mp h with rfl | h
    · exact oneLine_reverse hrun _
    · obtain ⟨hone, hmem⟩ := ih h (by simp [OneLine])
      refine ⟨hone, fun d hd => Or.inr ?_⟩
      have hd : d ∈ rest := (hmem d hd).resolve_left (by simp)
      exact List.mem_cons_of_mem c hd
  | case5 run c rest _ hend ih =>
    have hlonger : OneLine (c :: run) := by
      intro d hd
      rcases List.mem_cons.mp hd with rfl | hd
      · simpa using hend
      · exact hrun d hd
    obtain ⟨hone, hmem⟩ := ih h hlonger
    refine ⟨hone, fun d hd => ?_⟩
    rcases hmem d hd with hd | hd
    · rcases List.mem_cons.mp hd with rfl | hd
      · exact Or.inr List.mem_cons_self
      · exact Or.inl hd
    · exact Or.inr (List.mem_cons_of_mem c hd)

/-- The lines of a text are lines, and parts of it. -/
theorem mem_splitLines {cs line : List Char} (h : line ∈ splitLines cs) :
    OneLine line ∧ ∀ c ∈ line, c ∈ cs := by
  obtain ⟨hone, hmem⟩ := mem_splitLines_go h (by simp [OneLine])
  refine ⟨hone, fun c hc => ?_⟩
  rcases hmem c hc with hc | hc
  · exact absurd hc (by simp)
  · exact hc

/-! ## Numbers in ASCII -/

theorem readInteger_ascii {cs : List Char} (hdigits : isDigits cs = true)
    (h : ∀ c ∈ cs, isAscii c = true) : ∃ n, readInteger cs = .ok n ∧ 0 ≤ n := by
  obtain ⟨hne, hall⟩ := isDigits_ascii hdigits h
  refine ⟨(Nat.ofDigitChars 10 cs 0 : Nat), ?_, Int.natCast_nonneg _⟩
  unfold readInteger
  rw [readInteger?_of_isDigit hall, readNatural?_eq_ofDigitChars hne hall]
  rfl

end Crowsfoot.Text

namespace Crowsfoot.Diagram

open Crowsfoot.Naming Crowsfoot.Text

/-! ## Columns -/

/-- A comment as a line can state it: quotes and phrases may be left in it. -/
structure StatedComment (text : String) : Prop where
  nonempty : text.toList ≠ []
  oneLine : OneLine text.toList
  starts : StartsOutside isBlank text.toList
  ends : EndsOutside isBlank text.toList

/-- Parameters as a line can state them: of one kind, but with gaps where a number was expected. -/
inductive HasStatedParameters (c : Column) : Prop
  | none (values : c.enumValues = []) (precision : c.precision = none) (scale : c.scale = none)
      (size : c.size = none)
  | values (type : c.type = .enum) (oneLine : ∀ v ∈ c.enumValues, OneLine v.toList)
      (plain : ∀ v ∈ c.enumValues, ',' ∉ v.toList ∧ ')' ∉ v.toList)
      (precision : c.precision = none) (scale : c.scale = none) (size : c.size = none)
  | numbers (type : c.type ≠ .enum) (values : c.enumValues = []) (size : c.size = none)
      (precision_nonneg : ∀ p ∈ c.precision, 0 ≤ p) (scale_nonneg : ∀ s ∈ c.scale, 0 ≤ s)
  | size (notDecimal : c.type ≠ .decimal) (notEnum : c.type ≠ .enum) (values : c.enumValues = [])
      (precision : c.precision = none) (scale : c.scale = none)
      (size_nonneg : ∀ n ∈ c.size, 0 ≤ n)

/-- A column as a line can state it. -/
structure StatedColumn (c : Column) : Prop where
  name : IsName c.name
  primary : c.primary = true → c.nullable = false
  complete : drawn c = c
  comment : ∀ text ∈ c.comment, StatedComment text
  parameters : HasStatedParameters c

/-! ### The parts of a line -/

theorem mem_withoutNotNull {inWord : Bool} {k : Nat} {cs : List Char} {c : Char}
    (h : c ∈ withoutNotNull inWord k cs) : c ∈ cs := by
  induction cs generalizing inWord k with
  | nil => cases k <;> exact absurd h (by simp [withoutNotNull])
  | cons d cs ih =>
    cases k with
    | succ k => exact List.mem_cons_of_mem d (ih h)
    | zero =>
      unfold withoutNotNull at h
      split at h
      · exact List.mem_cons_of_mem d (ih h)
      · rcases List.mem_cons.mp h with rfl | h
        · exact List.mem_cons_self
        · exact List.mem_cons_of_mem d (ih h)

theorem mem_starOf {cs : List Char} {c : Char} (h : c ∈ (starOf cs).2) : c ∈ cs := by
  unfold starOf at h
  split at h
  · exact List.mem_cons_of_mem _ h
  · exact h

theorem mem_of_word? {cs word rest : List Char} (h : word? cs = some (word, rest)) :
    IsName (String.ofList word) ∧ (∀ c ∈ word, c ∈ cs) ∧ ∀ c ∈ rest, c ∈ cs := by
  obtain ⟨rfl, rfl, hne⟩ := eq_of_word? h
  refine ⟨⟨?_, ?_⟩, fun c hc => List.takeWhile_subset _ hc, fun c hc => List.dropWhile_subset _ hc⟩
  · rw [String.toList_ofList]
    exact hne
  · rw [String.toList_ofList]
    exact fun c hc => List.all_eq_true.mp List.all_takeWhile c hc

theorem mem_of_after? {lead cs rest : List Char} (h : after? lead cs = some rest) :
    ∀ c ∈ rest, c ∈ cs := by
  rw [eq_append_of_after? h]
  exact fun c hc => List.mem_append_right lead hc

/-- The parts of a column line are parts of it. -/
theorem columnText?_parts {line : List Char} {t : ColumnText} (h : columnText? line = some t) :
    IsName t.name ∧ ')' ∉ t.parameters ∧ (∀ c ∈ t.parameters, c ∈ line)
      ∧ ∀ c ∈ t.trailing, c ∈ line := by
  unfold columnText? at h
  obtain ⟨⟨name, afterName⟩, hname, h⟩ := Option.bind_eq_some_iff.mp h
  obtain ⟨afterColon, hcolon, h⟩ := Option.bind_eq_some_iff.mp h
  obtain ⟨⟨typeName, afterType⟩, htype, h⟩ := Option.bind_eq_some_iff.mp h
  dsimp only at hcolon h
  split at h
  · rw [← Option.some.inj h]
    obtain ⟨hisName, -, hafterName⟩ := mem_of_word? hname
    have hcolonMem := mem_of_after? hcolon
    obtain ⟨-, -, hafterType⟩ := mem_of_word? htype
    obtain ⟨hclose, hparameters, htrailing⟩ := mem_parametersOf afterType
    have hline : ∀ c ∈ afterType, c ∈ line := by
      intro c hc
      have hc := hcolonMem c (List.dropWhile_subset _ (hafterType c hc))
      have hc := hafterName c (List.dropWhile_subset _ hc)
      exact mem_starOf (List.dropWhile_subset _ hc)
    exact ⟨hisName, hclose, fun c hc => hline c (hparameters c hc),
      fun c hc => hline c (htrailing c hc)⟩
  · exact absurd h (by simp)

/-! ### The column of the parts -/

theorem statedComment_plainColumn {t : ColumnText} (hline : OneLine t.trailing) :
    ∀ text ∈ t.plainColumn.comment, StatedComment text := by
  intro text htext
  unfold ColumnText.plainColumn at htext
  dsimp only at htext
  split at htext
  · exact absurd htext (by simp)
  · rename_i hne
    rw [← Option.mem_some_iff.mp htext]
    constructor
    · rw [String.toList_ofList]
      simpa using hne
    · rw [String.toList_ofList]
      intro c hc
      have hc := mem_withoutNotNull (mem_of_mem_strip (mem_of_mem_strip (mem_of_mem_strip hc)))
      exact hline c (mem_of_mem_strip hc)
    · rw [String.toList_ofList]
      exact startsOutside_strip _
    · rw [String.toList_ofList]
      exact endsOutside_strip _

theorem number?_ascii {cs : List Char} (h : ∀ c ∈ cs, isAscii c = true) :
    ∃ r, number? cs = .ok r ∧ ∀ n ∈ r, 0 ≤ n := by
  unfold number?
  dsimp only
  split
  · rename_i hdigits
    obtain ⟨n, hn, hnonneg⟩ := readInteger_ascii hdigits fun c hc => h c (mem_of_mem_strip hc)
    refine ⟨some n, by rw [hn]; rfl, ?_⟩
    intro m hm
    rw [← Option.mem_some_iff.mp hm]
    exact hnonneg
  · exact ⟨none, rfl, by simp⟩

/-- A column has its type, and no parameters, before they are read. -/
theorem plainColumn_parameters (t : ColumnText) :
    t.plainColumn.type = t.type ∧ t.plainColumn.enumValues = [] ∧ t.plainColumn.size = none
      ∧ t.plainColumn.precision = none ∧ t.plainColumn.scale = none := by
  unfold ColumnText.plainColumn
  dsimp only
  exact ⟨rfl, rfl, rfl, rfl, rfl⟩

/-- A column says no more than a diagram shows, before its parameters are read. -/
theorem drawn_plainColumn (t : ColumnText) : drawn t.plainColumn = t.plainColumn := by
  unfold ColumnText.plainColumn drawn
  dsimp only

/-- What a line states apart from parameters. -/
theorem statedColumn_plainColumn {t : ColumnText} (hname : IsName t.name)
    (hline : OneLine t.trailing) : StatedColumn t.plainColumn := by
  refine ⟨hname, ?_, drawn_plainColumn t, statedComment_plainColumn hline, .none rfl rfl rfl rfl⟩
  intro hprimary
  have hstar : t.starred = true := hprimary
  show (!(t.starred || hasNotNull false (trim t.trailing))) = false
  rw [hstar]
  rfl

/-- Other parameters do not touch the rest of a column. -/
theorem StatedColumn.setParameters {c : Column} (h : StatedColumn c) (values : List String)
    (size precision scale : Option Int)
    (hparameters : HasStatedParameters { c with enumValues := values, size, precision, scale }) :
    StatedColumn { c with enumValues := values, size, precision, scale } := by
  refine ⟨h.name, h.primary, ?_, h.comment, hparameters⟩
  have hset : drawn { c with enumValues := values, size, precision, scale }
      = { drawn c with enumValues := values, size, precision, scale } := rfl
  rw [hset, h.complete]

theorem enumValues_stated {t : ColumnText} (hline : OneLine t.parameters)
    (hclose : ')' ∉ t.parameters) :
    ∀ v ∈ t.enumValues, OneLine v.toList ∧ ',' ∉ v.toList ∧ ')' ∉ v.toList := by
  intro v hv
  unfold ColumnText.enumValues at hv
  obtain ⟨piece, hpiece, rfl⟩ := List.mem_map.mp hv
  obtain ⟨hcomma, hmem⟩ := mem_pieces (List.mem_filter.mp hpiece).1
  rw [String.toList_ofList]
  have hinside : ∀ c ∈ unquoted (trim piece), c ∈ piece :=
    fun c hc => mem_of_mem_strip (mem_of_mem_strip hc)
  exact ⟨fun c hc => hline c (hmem c (hinside c hc)), fun hc => hcomma (hinside ',' hc),
    fun hc => hclose (hmem ')' (hinside ')' hc))⟩

/-- **A column line in ASCII is read**, whatever its parameters. -/
theorem column_stated {line : List Char} (hascii : ∀ c ∈ line, isAscii c = true)
    (hline : OneLine line) {t : ColumnText} (h : columnText? line = some t) :
    ∃ c, t.column = .ok c ∧ StatedColumn c := by
  obtain ⟨hname, hclose, hparameters, htrailing⟩ := columnText?_parts h
  have hplain := statedColumn_plainColumn hname fun c hc => hline c (htrailing c hc)
  have hnumber : ∀ cs : List Char, (∀ c ∈ cs, c ∈ t.parameters) →
      ∃ r, number? cs = .ok r ∧ ∀ n ∈ r, 0 ≤ n :=
    fun cs hcs => number?_ascii fun c hc => hascii c (hparameters c (hcs c hc))
  obtain ⟨htype, hvalues, hsize, hprecision, hscale⟩ := plainColumn_parameters t
  unfold ColumnText.column
  generalize t.plainColumn = plain at *
  dsimp only
  split
  · exact ⟨plain, rfl, hplain⟩
  · split
    · rename_i henum
      have hstated := enumValues_stated (fun c hc => hline c (hparameters c hc)) hclose
      refine ⟨_, rfl, hplain.setParameters t.enumValues plain.size plain.precision plain.scale ?_⟩
      refine .values (htype.trans henum) ?_ ?_ hprecision hscale hsize
      · exact fun v hv => (hstated v hv).1
      · exact fun v hv => (hstated v hv).2
    · rename_i hother
      have hnotEnum : plain.type ≠ .enum := htype ▸ hother
      split
      · obtain ⟨p, hp, hpnonneg⟩ := hnumber (t.parameters.takeWhile (· != ','))
          fun c hc => List.takeWhile_subset _ hc
        obtain ⟨s, hs, hsnonneg⟩ := hnumber (t.parameters.dropWhile (· != ',')).tail
          fun c hc => List.dropWhile_subset _ (List.mem_of_mem_tail hc)
        have hzero : ∀ n ∈ some (0 : Int), 0 ≤ n := by simp
        rw [hp, hs]
        split
        · exact ⟨_, rfl, hplain.setParameters plain.enumValues plain.size p (some 0)
            (.numbers hnotEnum hvalues hsize hpnonneg hzero)⟩
        · exact ⟨_, rfl, hplain.setParameters plain.enumValues plain.size p s
            (.numbers hnotEnum hvalues hsize hpnonneg hsnonneg)⟩
      · obtain ⟨n, hn, hnonneg⟩ := hnumber t.parameters fun c hc => hc
        have hnoScale : ∀ s ∈ plain.scale, 0 ≤ s := by simp [hscale]
        rw [hn]
        split
        · exact ⟨_, rfl, hplain.setParameters plain.enumValues plain.size n plain.scale
            (.numbers hnotEnum hvalues hsize hnonneg hnoScale)⟩
        · rename_i hdecimal
          have hnotDecimal : plain.type ≠ .decimal := htype ▸ hdecimal
          exact ⟨_, rfl, hplain.setParameters plain.enumValues n plain.precision plain.scale
            (.size hnotDecimal hnotEnum hvalues hprecision hscale hnonneg)⟩

theorem column?_stated {line : List Char} (hascii : ∀ c ∈ line, isAscii c = true)
    (hline : OneLine line) :
    ∃ column, column? line = .ok column ∧ ∀ c ∈ column, StatedColumn c := by
  unfold column?
  cases ht : columnText? line with
  | none => exact ⟨none, rfl, fun _ hc => nomatch hc⟩
  | some t =>
    obtain ⟨c, hc, hstated⟩ := column_stated hascii hline ht
    refine ⟨some c, ?_, fun d hd => Option.some.inj hd ▸ hstated⟩
    simp only [hc]
    rfl

/-! ### Legible columns -/

/-- What lets the parts of a stated column be told apart in a line of its own. What counts as the
phrase `NOT NULL` in a comment is a parameter. -/
structure LegibleColumn (hasPhrase : List Char → Bool) (c : Column) : Prop where
  comment : ∀ text ∈ c.comment, StartsOutside isQuote text.toList
    ∧ EndsOutside isQuote text.toList ∧ hasPhrase text.toList = false
  values : ∀ v ∈ c.enumValues, v.toList ≠ []
    ∧ StartsOutside (fun d => isBlank d || isQuote d) v.toList
    ∧ EndsOutside (fun d => isBlank d || isQuote d) v.toList
  scale : c.scale ≠ none → c.precision ≠ none
  precision : c.precision ≠ none → c.scale = none → c.type = .decimal

instance (hasPhrase : List Char → Bool) (c : Column) : Decidable (LegibleColumn hasPhrase c) :=
  decidable_of_iff
    ((∀ text ∈ c.comment, StartsOutside isQuote text.toList ∧ EndsOutside isQuote text.toList
        ∧ hasPhrase text.toList = false)
      ∧ (∀ v ∈ c.enumValues, v.toList ≠ []
        ∧ StartsOutside (fun d => isBlank d || isQuote d) v.toList
        ∧ EndsOutside (fun d => isBlank d || isQuote d) v.toList)
      ∧ (c.scale ≠ none → c.precision ≠ none)
      ∧ (c.precision ≠ none → c.scale = none → c.type = .decimal))
    ⟨fun h => ⟨h.1, h.2.1, h.2.2.1, h.2.2.2⟩,
      fun h => ⟨h.comment, h.values, h.scale, h.precision⟩⟩

theorem StatedComment.quotable {text : String} (h : StatedComment text)
    (hstarts : StartsOutside isQuote text.toList) (hends : EndsOutside isQuote text.toList) :
    Quotable text := by
  refine ⟨h.nonempty, h.oneLine, ?_, ?_⟩
  · exact fun c hc => Bool.or_eq_false_iff.mpr ⟨h.starts c hc, hstarts c hc⟩
  · exact fun c hc => Bool.or_eq_false_iff.mpr ⟨h.ends c hc, hends c hc⟩

theorem HasStatedParameters.drawable {hasPhrase : List Char → Bool} {c : Column}
    (h : HasStatedParameters c) (hc : LegibleColumn hasPhrase c) : HasDrawableParameters c := by
  cases h with
  | none values precision scale size => exact .none values precision scale size
  | values type oneLine plain precision scale size =>
    by_cases hvalues : c.enumValues = []
    · exact .none hvalues precision scale size
    · refine .values type hvalues ?_ plain precision scale size
      intro v hv
      obtain ⟨hne, hstarts, hends⟩ := hc.values v hv
      exact ⟨hne, oneLine v hv, hstarts, hends⟩
  | numbers type values size precision_nonneg scale_nonneg =>
    cases hp : c.precision with
    | none =>
      cases hs : c.scale with
      | none => exact .none values hp hs size
      | some s => exact absurd hp (hc.scale (by simp [hs]))
    | some p =>
      have hpnonneg := precision_nonneg p (Option.mem_def.mpr hp)
      cases hs : c.scale with
      | none =>
        exact .precision p (hc.precision (by simp [hp]) hs) values hp hs size hpnonneg
      | some s =>
        exact .precisionAndScale p s type values hp hs size hpnonneg
          (scale_nonneg s (Option.mem_def.mpr hs))
  | size notDecimal notEnum values precision scale size_nonneg =>
    cases hn : c.size with
    | none => exact .none values precision scale hn
    | some n =>
      exact .size n notDecimal notEnum values precision scale hn
        (size_nonneg n (Option.mem_def.mpr hn))

/-- **A legible column can be drawn.** -/
theorem StatedColumn.drawable {c : Column} (h : StatedColumn c)
    (hc : LegibleColumn (hasNotNull false) c) : Drawable c := by
  refine ⟨h.name, h.primary, ?_, ?_, h.parameters.drawable hc⟩
  · intro text htext
    obtain ⟨hstarts, hends, -⟩ := hc.comment text htext
    exact (h.comment text htext).quotable hstarts hends
  · exact fun text htext => (hc.comment text htext).2.2

/-! ## Relationships -/

/-- A relationship as a line can state it. -/
def StatedRelationship : Relationship → Prop
  | .oneToOne _ _ => True
  | .oneToMany _ _ => True
  | .manyToMany _ _ custom => ∀ label ∈ custom, IsLabel label

theorem isNameChar_of_isWord {c : Char} (hc : isAscii c = true) (h : isWord c = true) :
    isNameChar c = true := by
  unfold isWord isAlphanumeric at h
  rwa [if_pos hc] at h

theorem mem_of_afterBlanks? {cs rest : List Char} (h : afterBlanks? cs = some rest) :
    ∀ c ∈ rest, c ∈ cs := by
  obtain ⟨-, -, -, -, rfl⟩ := afterBlanks?_eq_some h
  exact fun c hc => List.dropWhile_subset _ hc

theorem mem_of_joined? {sign : String} {cs rest : List Char} {left right : String}
    (h : joined? sign cs = some (left, right, rest)) : ∀ c ∈ rest, c ∈ cs := by
  unfold joined? at h
  obtain ⟨⟨word, afterLeft⟩, hleft, h⟩ := Option.bind_eq_some_iff.mp h
  obtain ⟨beforeSign, hbefore, h⟩ := Option.bind_eq_some_iff.mp h
  obtain ⟨afterSign, hsign, h⟩ := Option.bind_eq_some_iff.mp h
  obtain ⟨beforeRight, hblanks, h⟩ := Option.bind_eq_some_iff.mp h
  obtain ⟨⟨other, afterRight⟩, hright, h⟩ := Option.bind_eq_some_iff.mp h
  have heq : afterRight = rest := (Prod.mk.inj (Prod.mk.inj (Option.some.inj h)).2).2
  intro c hc
  have hc := (mem_of_word? hright).2.2 c (heq ▸ hc)
  have hc := mem_of_after? hsign c (mem_of_afterBlanks? hblanks c hc)
  exact (mem_of_word? hleft).2.2 c (mem_of_afterBlanks? hbefore c hc)

theorem isLabel_of_label? {cs : List Char} (hascii : ∀ c ∈ cs, isAscii c = true) {label : String}
    (h : label? cs = some label) : IsLabel label := by
  unfold label? at h
  obtain ⟨rest, hcolon, h⟩ := Option.bind_eq_some_iff.mp h
  obtain ⟨⟨word, tail⟩, hword, h⟩ := Option.bind_eq_some_iff.mp h
  dsimp only at h
  split at h
  · rw [← Option.some.inj h]
    obtain ⟨hname, hmem, -⟩ := mem_of_word? hword
    intro c hc
    refine isNameChar_of_isWord ?_ (hname.word c hc)
    rw [String.toList_ofList] at hc
    have hc := mem_of_after? hcolon c (List.dropWhile_subset _ (hmem c hc))
    exact hascii c (List.dropWhile_subset _ hc)
  · exact absurd h (by simp)

theorem relationship?_stated {line : List Char} (hascii : ∀ c ∈ line, isAscii c = true)
    {r : Relationship} (h : relationship? line = some r) : StatedRelationship r := by
  unfold relationship? at h
  split at h
  · rw [← Option.some.inj h]
    trivial
  · split at h
    · rw [← Option.some.inj h]
      trivial
    · unfold manyToMany? at h
      obtain ⟨⟨left, right, rest⟩, hjoined, h⟩ := Option.bind_eq_some_iff.mp h
      dsimp only at h
      split at h
      · rw [← Option.some.inj h]
        exact fun label hlabel => absurd hlabel (by simp)
      · obtain ⟨label, hlabel, rfl⟩ := Option.map_eq_some_iff.mp h
        intro other hother
        rw [← Option.mem_some_iff.mp hother]
        exact isLabel_of_label? (fun c hc => hascii c (mem_of_joined? hjoined c hc)) hlabel

/-! ## Documents -/

/-- A table as the lines of an entity can state it. -/
structure StatedTable (t : Table) : Prop where
  domain : t.isPivot = false
  columns : ∀ c ∈ t.columns, StatedColumn c
  distinct : (t.columns.map Column.name).Nodup

/-- A document as lines can state it. -/
structure StatedDocument (d : Document) : Prop where
  tables : ∀ t ∈ d.tables, StatedTable t
  relationships : ∀ r ∈ d.relationships, StatedRelationship r

/-- A draft whose complete part and whose open entity are stated. -/
structure StatedDraft (d : Draft) : Prop where
  tables : ∀ t ∈ d.document.tables ++ d.current.toList, StatedTable t
  relationships : ∀ r ∈ d.document.relationships, StatedRelationship r

/-- The kind of a line in ASCII. -/
def StatedKind : LineKind → Prop
  | .relationship r => StatedRelationship r
  | .other text => (∀ c ∈ text, isAscii c = true) ∧ OneLine text
  | _ => True

theorem kind_stated {line : List Char} (hascii : ∀ c ∈ line, isAscii c = true)
    (hline : OneLine line) : StatedKind (LineKind.of line) := by
  unfold LineKind.of
  split
  · trivial
  · split
    · trivial
    · split
      · rename_i r hr
        exact relationship?_stated hascii hr
      · split
        · trivial
        · exact ⟨hascii, hline⟩

theorem kinds_stated {text : List Char} (hascii : ∀ c ∈ text, isAscii c = true) :
    ∀ kind ∈ lineKinds text, StatedKind kind := by
  intro kind hkind
  obtain ⟨line, hline, rfl⟩ := List.mem_map.mp hkind
  obtain ⟨hone, hmem⟩ := mem_splitLines hline
  exact kind_stated (fun c hc => hascii c (hmem c (mem_of_mem_strip hc)))
    fun c hc => hone c (mem_of_mem_strip hc)

theorem mem_withColumn {t : Table} {c d : Column} (h : d ∈ (Draft.withColumn t c).columns) :
    d ∈ t.columns ∨ d = c := by
  unfold Draft.withColumn at h
  split at h
  · exact Or.inl h
  · exact (List.mem_append.mp h).imp_right List.mem_singleton.mp

/-- A column is only added under a new name. -/
theorem nodup_withColumn {t : Table} (h : (t.columns.map Column.name).Nodup) (c : Column) :
    ((Draft.withColumn t c).columns.map Column.name).Nodup := by
  unfold Draft.withColumn
  split
  · exact h
  · rename_i hfresh
    have hnew : c.name ∉ t.columns.map Column.name := by
      intro hmem
      obtain ⟨d, hd, hname⟩ := List.mem_map.mp hmem
      apply hfresh
      unfold Table.column? findColumn?
      rw [List.find?_isSome]
      exact ⟨d, hd, by simpa using hname⟩
    show ((t.columns ++ [c]).map Column.name).Nodup
    rw [List.map_append, List.nodup_append]
    refine ⟨h, by simp, ?_⟩
    rintro name hname other hother rfl
    rw [List.mem_singleton.mp hother] at hname
    exact hnew hname

theorem name_withColumn (t : Table) (c : Column) : (Draft.withColumn t c).name = t.name := by
  unfold Draft.withColumn
  split <;> rfl

theorem isPivot_withColumn (t : Table) (c : Column) :
    (Draft.withColumn t c).isPivot = t.isPivot := by
  unfold Draft.withColumn
  split <;> rfl

theorem StatedTable.withColumn {t : Table} (h : StatedTable t) {c : Column} (hc : StatedColumn c) :
    StatedTable (Draft.withColumn t c) := by
  refine ⟨(isPivot_withColumn t c).trans h.domain, ?_, nodup_withColumn h.distinct c⟩
  intro d hd
  rcases mem_withColumn hd with hd | rfl
  · exact h.columns d hd
  · exact hc

section Step

variable {P : Table → Prop} {R : Relationship → Prop} {d e : Draft} {kind : LineKind}

/-- **What a line keeps.** What holds of all tables and relationships of a draft holds of them after
a line, if it holds of what a line of this kind brings in. -/
theorem Draft.forall_add (htables : ∀ t ∈ d.document.tables ++ d.current.toList, P t)
    (hrelationships : ∀ r ∈ d.document.relationships, R r)
    (hentity : ∀ name, kind = .entity name → P { name })
    (hrelationship : ∀ r, kind = .relationship r → R r)
    (hcolumn : ∀ text c t, kind = .other text → column? text = .ok (some c) → P t →
      P (Draft.withColumn t c)) (h : d.add kind = .ok e) :
    (∀ t ∈ e.document.tables ++ e.current.toList, P t) ∧ ∀ r ∈ e.document.relationships, R r := by
  cases kind with
  | silent =>
    obtain rfl := Except.ok.inj h
    exact ⟨htables, hrelationships⟩
  | close =>
    obtain rfl := Except.ok.inj h
    refine ⟨?_, hrelationships⟩
    show ∀ t ∈ (d.document.tables ++ d.current.toList) ++ [], P t
    rwa [List.append_nil]
  | entity name =>
    obtain rfl := Except.ok.inj h
    refine ⟨fun t ht => ?_, hrelationships⟩
    rcases List.mem_append.mp ht with ht | ht
    · exact htables t ht
    · rw [← Option.mem_some_iff.mp (Option.mem_toList.mp ht)]
      exact hentity name rfl
  | relationship r =>
    obtain rfl := Except.ok.inj h
    refine ⟨htables, fun other hother => ?_⟩
    rcases List.mem_append.mp hother with hother | hother
    · exact hrelationships other hother
    · rw [List.mem_singleton.mp hother]
      exact hrelationship r rfl
  | other text =>
    unfold Draft.add at h
    dsimp only at h
    split at h
    · obtain rfl := Except.ok.inj h
      exact ⟨htables, hrelationships⟩
    · rename_i t hopen
      obtain ⟨column, hread, h⟩ := bind_eq_ok.mp h
      obtain rfl | ⟨c, rfl⟩ := column.eq_none_or_eq_some
      · obtain rfl := Except.ok.inj h
        exact ⟨htables, hrelationships⟩
      · obtain rfl := Except.ok.inj h
        have ht : P t :=
          htables t (List.mem_append_right _ (by rw [hopen]; exact List.mem_singleton_self t))
        refine ⟨fun u hu => ?_, hrelationships⟩
        rcases List.mem_append.mp hu with hu | hu
        · exact htables u (List.mem_append_left _ hu)
        · rw [← Option.mem_some_iff.mp (Option.mem_toList.mp hu)]
          exact hcolumn text c t rfl hread ht

/-- Only a column can fail to be read. -/
theorem Draft.exists_add (d : Draft)
    (h : ∀ text, kind = .other text → ∃ column, column? text = .ok column) :
    ∃ e, d.add kind = .ok e := by
  cases kind with
  | silent | close | entity | relationship => exact ⟨_, rfl⟩
  | other text =>
    obtain ⟨column, hread⟩ := h text rfl
    unfold Draft.add
    dsimp only
    rw [hread]
    split
    · exact ⟨_, rfl⟩
    · cases column <;> exact ⟨_, rfl⟩

end Step

/-- **A line in ASCII is read**, and keeps a draft stated. -/
theorem add_stated {d : Draft} (h : StatedDraft d) {kind : LineKind} (hkind : StatedKind kind) :
    ∃ e, d.add kind = .ok e ∧ StatedDraft e := by
  have hread : ∀ text, kind = .other text →
      ∃ column, column? text = .ok column ∧ ∀ c ∈ column, StatedColumn c := by
    rintro text rfl
    exact column?_stated hkind.1 hkind.2
  obtain ⟨e, he⟩ := d.exists_add fun text htext => (hread text htext).imp fun _ => And.left
  have hrelationship : ∀ r, kind = .relationship r → StatedRelationship r := by
    rintro r rfl
    exact hkind
  have hcolumn : ∀ text c t, kind = .other text → column? text = .ok (some c) → StatedTable t →
      StatedTable (Draft.withColumn t c) := by
    intro text c t htext hsome ht
    obtain ⟨column, hsame, hstated⟩ := hread text htext
    exact ht.withColumn (hstated c (Except.ok.inj (hsame.symm.trans hsome)))
  obtain ⟨htables, hrelationships⟩ := Draft.forall_add h.tables h.relationships
    (fun _ _ => ⟨rfl, by simp, by simp⟩) hrelationship hcolumn he
  exact ⟨e, he, htables, hrelationships⟩

theorem foldlM_add_stated {kinds : List LineKind} (hkinds : ∀ kind ∈ kinds, StatedKind kind)
    {d : Draft} (h : StatedDraft d) : ∃ e, kinds.foldlM Draft.add d = .ok e ∧ StatedDraft e := by
  induction kinds generalizing d with
  | nil => exact ⟨d, rfl, h⟩
  | cons kind kinds ih =>
    obtain ⟨next, hnext, hstated⟩ := add_stated h (hkinds kind List.mem_cons_self)
    obtain ⟨e, he, hend⟩ := ih (fun k hk => hkinds k (List.mem_cons_of_mem kind hk)) hstated
    refine ⟨e, ?_, hend⟩
    rw [List.foldlM_cons, hnext]
    exact he

/-- **A diagram in ASCII is read**, and says what lines can state. -/
theorem parse_ascii {text : String} (hascii : ∀ c ∈ text.toList, isAscii c = true) :
    ∃ d, Document.parse text = .ok d ∧ StatedDocument d := by
  obtain ⟨e, he, hstated⟩ := foldlM_add_stated (kinds_stated hascii) (d := {})
    ⟨by simp, by simp⟩
  refine ⟨e.close.document, ?_, ?_, hstated.relationships⟩
  · unfold Document.parse
    rw [he]
    rfl
  · exact hstated.tables

end Crowsfoot.Diagram
