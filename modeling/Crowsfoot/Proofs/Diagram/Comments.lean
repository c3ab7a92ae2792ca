import Crowsfoot.Proofs.Diagram.Parsing

/-!
# The comment on the line of a column

The phrase `NOT NULL` and the comment share the end of a column line, and the phrase counts wherever
it stands there. So `column?_columnLine_comment`: a line is always read back, and with the comment
and the nullability of its column as long as the comment does not say `NOT NULL` itself. A comment
that does makes the column required, and comes back without the phrase.
-/

namespace Crowsfoot.Diagram

open Crowsfoot.Text

/-! ## Reading the line of a column -/

/-- A column is read unless a number among its parameters is not. -/
theorem exists_column {t : ColumnText}
    (h : t.type ≠ .enum → ∀ c ∈ t.parameters, isAscii c = true) : ∃ c, t.column = .ok c := by
  unfold ColumnText.column
  dsimp only
  split
  · exact ⟨_, rfl⟩
  · split
    · exact ⟨_, rfl⟩
    · rename_i htype
      have hascii := h htype
      split
      · have hfirst : ∀ c ∈ t.parameters.takeWhile (· != ','), isAscii c = true :=
          fun c hc => hascii c (List.takeWhile_subset _ hc)
        have hsecond : ∀ c ∈ (t.parameters.dropWhile (· != ',')).tail, isAscii c = true :=
          fun c hc => hascii c (List.dropWhile_subset _ (List.mem_of_mem_tail hc))
        obtain ⟨p, hp, -⟩ := number?_ascii hfirst
        obtain ⟨s, hs, -⟩ := number?_ascii hsecond
        rw [hp, hs]
        split <;> exact ⟨_, rfl⟩
      · obtain ⟨n, hn, -⟩ := number?_ascii hascii
        rw [hn]
        split <;> exact ⟨_, rfl⟩

/-- What stands in brackets is numbers, where it is not the values of an enumeration. -/
theorem forall_mem_numbers {c : Column} (h : c.type = .enum → c.enumValues = []) :
    ∀ p ∈ parameterText? c, ∀ d ∈ p.toList, isAscii d = true ∧ d ≠ ')' := by
  have hplain : parameterText? c = parameterText? { c with enumValues := [] } := by
    unfold parameterText?
    by_cases htype : c.type = .enum
    · simp [h htype]
    · simp [htype]
  rw [hplain]
  refine forall_mem_parameterText ?_ (by decide) (by simp)
  rintro d (rfl | hd)
  · decide
  · refine ⟨isAscii_of_isDigit hd, ?_⟩
    rintro rfl
    exact absurd hd (by decide)

theorem parametersOf_numbers {c : Column} (h : c.type = .enum → c.enumValues = []) :
    parametersOf (afterType c) = (((parameterText? c).getD "").toList, trailingText c) :=
  parametersOf_afterType fun p hp hd => (forall_mem_numbers h p hp _ hd).2 rfl

theorem isAscii_parameters {c : Column} (htype : c.type ≠ .enum) :
    ∀ d ∈ (foundParts c).parameters, isAscii d = true := by
  have hnumbers : c.type = .enum → c.enumValues = [] := fun h => absurd h htype
  show ∀ d ∈ (parametersOf (afterType c)).1, isAscii d = true
  rw [parametersOf_numbers hnumbers]
  cases hp : parameterText? c with
  | none => simp
  | some p => exact fun d hd => (forall_mem_numbers hnumbers p hp d hd).1

/-- **A column that fits its line is read**, with the parts that are found, up to the parameters. -/
theorem FitsLine.reads {c : Column} (h : FitsLine c) :
    ∃ enumValues size precision scale, column? (trim (columnLine c).toList)
      = .ok (some { (foundParts c).plainColumn with enumValues, size, precision, scale }) := by
  have hparameters : (foundParts c).type ≠ .enum →
      ∀ d ∈ (foundParts c).parameters, isAscii d = true := by
    intro htype
    apply isAscii_parameters
    unfold ColumnText.type foundParts at htype
    rwa [normalize_name] at htype
  obtain ⟨d, hd⟩ := exists_column hparameters
  obtain ⟨enumValues, size, precision, scale, rfl⟩ := column_eq_plainColumn hd
  refine ⟨enumValues, size, precision, scale, ?_⟩
  unfold column?
  rw [trim_columnLine h, columnText?_line h]
  dsimp only
  rw [hd]
  rfl

/-! ## Comments -/

/-- A comment without quotes and line ends, and without blanks around it. -/
structure PlainComment (text : String) : Prop where
  unquoted : ∀ c ∈ text.toList, isQuote c = false
  oneLine : OneLine text.toList
  starts : StartsOutside isBlank text.toList
  ends : EndsOutside isBlank text.toList

instance (text : String) : Decidable (PlainComment text) :=
  decidable_of_iff ((∀ c ∈ text.toList, isQuote c = false) ∧ OneLine text.toList
      ∧ StartsOutside isBlank text.toList ∧ EndsOutside isBlank text.toList)
    ⟨fun h => ⟨h.1, h.2.1, h.2.2.1, h.2.2.2⟩, fun h => ⟨h.unquoted, h.oneLine, h.starts, h.ends⟩⟩

theorem PlainComment.quotable {text : String} (h : PlainComment text) (hne : text.toList ≠ []) :
    Quotable text := by
  refine ⟨hne, h.oneLine, fun c hc => ?_, fun c hc => ?_⟩
  · exact Bool.or_eq_false_iff.mpr ⟨h.starts c hc, h.unquoted c (List.mem_of_mem_head? hc)⟩
  · exact Bool.or_eq_false_iff.mpr ⟨h.ends c hc, h.unquoted c (List.mem_of_mem_getLast? hc)⟩

/-- A comment, if it is not empty. -/
def commentOf? (cs : List Char) : Option String :=
  if cs.isEmpty then none else some (String.ofList cs)

/-- What is left of a comment without the phrases `NOT NULL` in it. -/
def remainingComment? (text : String) : Option String :=
  commentOf? (trim (withoutNotNull false 0 text.toList))

theorem remainingComment?_eq_self {text : String} (h : Quotable text)
    (hphrase : ¬SaysNotNull text.toList) : remainingComment? text = some text := by
  have hnone : hasNotNull false text.toList = false := by
    rw [← Bool.not_eq_true]
    exact fun hsays => hphrase (hasNotNull_iff.mp hsays)
  have hempty : text.toList.isEmpty = false := List.isEmpty_eq_false_iff.mpr h.nonempty
  unfold remainingComment? commentOf?
  rw [withoutNotNull_eq_self hnone, h.trim, hempty, if_neg Bool.false_ne_true, String.ofList_toList]

/-- A comment that says `NOT NULL` is not told as it is. -/
theorem remainingComment?_ne {text : String} (hphrase : SaysNotNull text.toList) :
    remainingComment? text ≠ some text := by
  intro h
  unfold remainingComment? commentOf? at h
  split at h
  · exact nomatch h
  · have hlt := length_withoutNotNull_lt (hasNotNull_iff.mpr hphrase)
    have hle := length_trim_le (withoutNotNull false 0 text.toList)
    have hsame := congrArg String.toList (Option.some.inj h)
    rw [String.toList_ofList] at hsame
    rw [hsame] at hle
    omega

theorem nullable_plainColumn (t : ColumnText) :
    t.plainColumn.nullable = !(t.starred || (trailingMeaning t.trailing).1) := by
  unfold ColumnText.plainColumn trailingMeaning
  dsimp only

theorem comment_plainColumn (t : ColumnText) :
    t.plainColumn.comment = commentOf? (trailingMeaning t.trailing).2 := by
  unfold ColumnText.plainColumn trailingMeaning commentOf?
  dsimp only

/-- What the parts of a line say of nullability and comment, of a comment without quotes. -/
theorem plainColumn_foundParts {c : Column} (hvalues : c.enumValues = [])
    (hcomment : ∀ text ∈ c.comment, PlainComment text) :
    (foundParts c).plainColumn.nullable
        = (c.nullable && !c.primary && !(c.comment.any fun text => hasNotNull false text.toList))
      ∧ (foundParts c).plainColumn.comment = c.comment.bind remainingComment? := by
  have htrailing : (foundParts c).trailing = trailingText c :=
    congrArg Prod.snd (parametersOf_numbers fun _ => hvalues)
  constructor
  · rw [nullable_plainColumn, htrailing, trailingMeaning_trailingText]
    show (!(c.primary || _)) = _
    cases c.primary <;> cases c.nullable <;> simp
  · rw [comment_plainColumn, htrailing, trailingMeaning_trailingText]
    cases hc : c.comment with
    | none => rfl
    | some text =>
      have hunquoted : unquoted (withoutNotNull false 0 text.toList)
          = withoutNotNull false 0 text.toList := by
        have houtside : ∀ d ∈ withoutNotNull false 0 text.toList, isQuote d = false :=
          fun d hd => (hcomment text hc).unquoted d (mem_withoutNotNull hd)
        exact strip_eq_self (fun d hd => houtside d (List.mem_of_mem_head? hd))
          (endsOutside_of_all houtside)
      rw [Option.map_some, Option.getD_some, hunquoted]
      rfl

/-- A column without its comment, if that is empty. -/
def shownColumn (c : Column) : Column :=
  { c with comment := c.comment.filter fun text => !text.isEmpty }

theorem columnLine_shownColumn (c : Column) : columnLine (shownColumn c) = columnLine c := by
  have htwice : (shownColumn c).comment.filter (fun text => !text.isEmpty)
      = c.comment.filter fun text => !text.isEmpty := by
    unfold shownColumn
    rw [Option.filter_filter]
    simp
  unfold columnLine
  rw [htwice]
  rfl

/-- **The comment of a column does not change its meaning, unless it says `NOT NULL` itself.** The
line of a column whose name is a word, whose comment is plain and that lists no values is read back.
Without the phrase in the comment, the column is nullable as before, except for a primary key, and
has its comment, none if that is empty. With the phrase it is required, and the comment is what is
left of it, so another one. -/
theorem column?_columnLine_comment {c : Column} (hname : IsName c.name)
    (hvalues : c.enumValues = []) (hcomment : ∀ text ∈ c.comment, PlainComment text) :
    ∃ d, column? (trim (columnLine c).toList) = .ok (some d)
      ∧ ((∀ text ∈ c.comment, ¬SaysNotNull text.toList) →
        d.nullable = (c.nullable && !c.primary)
          ∧ d.comment = c.comment.filter fun text => !text.isEmpty)
      ∧ ∀ text ∈ c.comment, SaysNotNull text.toList →
        d.nullable = false ∧ d.comment = remainingComment? text ∧ d.comment ≠ c.comment := by
  have hshown : ∀ text, (shownColumn c).comment = some text →
      c.comment = some text ∧ text.toList ≠ [] := by
    intro text htext
    obtain ⟨htext, hne⟩ := Option.filter_eq_some_iff.mp htext
    exact ⟨htext, by simpa using hne⟩
  have hfits : FitsLine (shownColumn c) := by
    refine ⟨hname, fun text htext => ?_, fun v hv => ?_⟩
    · obtain ⟨htext, hne⟩ := hshown text htext
      exact (hcomment text htext).quotable hne
    · have hv : v ∈ c.enumValues := hv
      rw [hvalues] at hv
      exact nomatch hv
  obtain ⟨enumValues, size, precision, scale, hread⟩ := hfits.reads
  obtain ⟨hnullable, hleft⟩ := plainColumn_foundParts (c := shownColumn c) hvalues
    fun text htext => hcomment text (hshown text htext).1
  rw [columnLine_shownColumn] at hread
  generalize (foundParts (shownColumn c)).plainColumn = plain at hread hnullable hleft
  refine ⟨_, hread, fun hphrase => ?_, fun text htext hphrase => ?_⟩
  · have hkept : (shownColumn c).comment.bind remainingComment? = (shownColumn c).comment := by
      cases htext : (shownColumn c).comment with
      | none => rfl
      | some text =>
        obtain ⟨hmem, hne⟩ := hshown text htext
        exact remainingComment?_eq_self ((hcomment text hmem).quotable hne) (hphrase text hmem)
    have hnone : ((shownColumn c).comment.any fun text => hasNotNull false text.toList) = false := by
      cases htext : (shownColumn c).comment with
      | none => rfl
      | some text =>
        rw [Option.any_some, ← Bool.not_eq_true]
        exact fun hsays => hphrase text (hshown text htext).1 (hasNotNull_iff.mp hsays)
    rw [hnone, Bool.not_false, Bool.and_true] at hnullable
    exact ⟨hnullable, hleft.trans hkept⟩
  · have hsays : hasNotNull false text.toList = true := hasNotNull_iff.mpr hphrase
    have hsame : (shownColumn c).comment = some text := by
      refine Option.filter_eq_some_iff.mpr ⟨htext, ?_⟩
      cases hempty : text.isEmpty with
      | false => rfl
      | true =>
        rw [String.isEmpty_iff.mp hempty] at hsays
        exact absurd hsays (by decide)
    rw [hsame, Option.any_some, hsays, Bool.not_true, Bool.and_false] at hnullable
    rw [hsame] at hleft
    refine ⟨hnullable, hleft, fun heq => ?_⟩
    exact remainingComment?_ne hphrase (hleft.symm.trans (heq.trans htext))

/-- A column that may be null, with a comment. -/
def noteColumn (comment : String) : Column :=
  { name := "note", type := .text, comment := some comment }

theorem column?_columnLine_comment_note :
    IsName (noteColumn "Never null").name ∧ (noteColumn "Never null").enumValues = []
      ∧ (∀ text ∈ (noteColumn "Never null").comment, PlainComment text)
      ∧ (∃ d, column? (trim (columnLine (noteColumn "Never null")).toList) = .ok (some d)
        ∧ d.nullable = true ∧ d.comment = some "Never null")
      ∧ ∃ d, column? (trim (columnLine (noteColumn "May be not  NULL here")).toList) = .ok (some d)
        ∧ d.nullable = false ∧ d.comment = some "May be  here" := by
  have hplain : ∀ text ∈ (noteColumn "Never null").comment, PlainComment text := by
    rintro text ⟨⟩
    decide
  have hphrased : ∀ text ∈ (noteColumn "May be not  NULL here").comment, PlainComment text := by
    rintro text ⟨⟩
    decide
  have hsilent : ∀ text ∈ (noteColumn "Never null").comment, ¬SaysNotNull text.toList := by
    rintro text ⟨⟩
    decide
  obtain ⟨d, hd, hkept, -⟩ := column?_columnLine_comment (c := noteColumn "Never null")
    (by decide) rfl hplain
  obtain ⟨e, he, -, hlost⟩ := column?_columnLine_comment (c := noteColumn "May be not  NULL here")
    (by decide) rfl hphrased
  obtain ⟨hnullable, hcomment⟩ := hkept hsilent
  obtain ⟨hrequired, hleft, -⟩ := hlost _ rfl (by decide)
  refine ⟨by decide, rfl, hplain, ⟨d, hd, hnullable, ?_⟩, e, he, hrequired, ?_⟩
  · rw [hcomment]
    rfl
  · rw [hleft]
    decide

/-- The comment `NOT NULL` makes a column required, and is lost. -/
theorem not_comment_kept :
    ¬∀ c : Column, IsName c.name → c.enumValues = [] → (∀ text ∈ c.comment, PlainComment text) →
      ∃ d, column? (trim (columnLine c).toList) = .ok (some d)
        ∧ d.nullable = (c.nullable && !c.primary)
        ∧ d.comment = c.comment.filter fun text => !text.isEmpty := by
  intro h
  have hplain : ∀ text ∈ (noteColumn "NOT NULL").comment, PlainComment text := by
    rintro text ⟨⟩
    decide
  obtain ⟨d, hd, hnullable, -⟩ := h (noteColumn "NOT NULL") (by decide) rfl hplain
  have hread : column? (trim (columnLine (noteColumn "NOT NULL")).toList)
      = .ok (some { name := "note", type := .text, nullable := false }) := by
    decide
  rw [hread] at hd
  rw [← Option.some.inj (Except.ok.inj hd)] at hnullable
  exact nomatch hnullable

end Crowsfoot.Diagram
