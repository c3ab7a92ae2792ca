import Crowsfoot.Diagram.Writer
import Crowsfoot.Proofs.Diagram.Phrase
import Crowsfoot.Proofs.Text.Numerals

/-!
# Column lines are read back

The grammar of a column line

    [*] name : type[(parameters)] [NOT NULL] ["comment"]

is ambiguous: anything may follow the type, and a comment may hold what looks like another part of
the line. What begins with a name and does not break is a column line still (`FitsLine`):

* `kind_columnLine`: its line is of no other form, so an open entity reads it as a column;
* `columnText?_line`: the parts are found up to the type; after it, brackets hold what they can.

`Drawable` is what keeps a column apart from the rest of its line: every part of it can be told from
the parts around it. Then

* `column?_columnLine`: the column that is read is `drawn c`, what the line can show of it.

The parts are dealt with one by one: the phrase `NOT NULL` with the comment after it
(`trailingMeaning_trailingText`) and the parameters (`column_of_parameters`).
-/

namespace Crowsfoot.Diagram

open Crowsfoot.Text

/-! ## Drawable columns -/

/-- A text between quotes that loses nothing there. -/
structure Quotable (s : String) : Prop where
  nonempty : s.toList ≠ []
  oneLine : OneLine s.toList
  startsPlain : StartsOutside (fun c => isBlank c || isQuote c) s.toList
  endsPlain : EndsOutside (fun c => isBlank c || isQuote c) s.toList

instance (s : String) : Decidable (Quotable s) :=
  decidable_of_iff (s.toList ≠ [] ∧ OneLine s.toList
      ∧ StartsOutside (fun c => isBlank c || isQuote c) s.toList
      ∧ EndsOutside (fun c => isBlank c || isQuote c) s.toList)
    ⟨fun h => ⟨h.1, h.2.1, h.2.2.1, h.2.2.2⟩,
      fun h => ⟨h.nonempty, h.oneLine, h.startsPlain, h.endsPlain⟩⟩

/-- The parameters of a column are of one kind, and the type is one that reads them so. -/
inductive HasDrawableParameters (c : Column) : Prop
  | none (values : c.enumValues = []) (precision : c.precision = none) (scale : c.scale = none)
      (size : c.size = none)
  | values (type : c.type = .enum) (nonempty : c.enumValues ≠ [])
      (quotable : ∀ v ∈ c.enumValues, Quotable v)
      (plain : ∀ v ∈ c.enumValues, ',' ∉ v.toList ∧ ')' ∉ v.toList)
      (precision : c.precision = none) (scale : c.scale = none) (size : c.size = none)
  | precisionAndScale (p s : Int) (type : c.type ≠ .enum) (values : c.enumValues = [])
      (precision : c.precision = some p) (scale : c.scale = some s) (size : c.size = none)
      (precision_nonneg : 0 ≤ p) (scale_nonneg : 0 ≤ s)
  | precision (p : Int) (type : c.type = .decimal) (values : c.enumValues = [])
      (precision : c.precision = some p) (scale : c.scale = none) (size : c.size = none)
      (precision_nonneg : 0 ≤ p)
  | size (n : Int) (notDecimal : c.type ≠ .decimal) (notEnum : c.type ≠ .enum)
      (values : c.enumValues = []) (precision : c.precision = none) (scale : c.scale = none)
      (size : c.size = some n) (size_nonneg : 0 ≤ n)

/-- A column whose line tells all that a line can. -/
structure Drawable (c : Column) : Prop where
  name : IsName c.name
  primary : c.primary = true → c.nullable = false
  quotable : ∀ text ∈ c.comment, Quotable text
  noPhrase : ∀ text ∈ c.comment, hasNotNull false text.toList = false
  parameters : HasDrawableParameters c

/-- A column whose line begins with its name and does not break. -/
structure FitsLine (c : Column) : Prop where
  name : IsName c.name
  quotable : ∀ text ∈ c.comment, Quotable text
  values : ∀ v ∈ c.enumValues, OneLine v.toList

/-- What a line shows of a column. -/
def drawn (c : Column) : Column :=
  { name := c.name
    type := c.type
    size := c.size
    precision := c.precision
    scale := c.scale
    nullable := c.nullable
    primary := c.primary
    comment := c.comment
    enumValues := c.enumValues }

section Quotable

variable {s : String}

theorem Quotable.trim (h : Quotable s) : trim s.toList = s.toList := by
  refine strip_eq_self ?_ ?_
  · intro c hc
    exact (Bool.or_eq_false_iff.mp (h.startsPlain c hc)).1
  · intro c hc
    exact (Bool.or_eq_false_iff.mp (h.endsPlain c hc)).1

theorem Quotable.unquoted (h : Quotable s) : unquoted s.toList = s.toList := by
  refine strip_eq_self ?_ ?_
  · intro c hc
    exact (Bool.or_eq_false_iff.mp (h.startsPlain c hc)).2
  · intro c hc
    exact (Bool.or_eq_false_iff.mp (h.endsPlain c hc)).2

theorem Quotable.isEmpty_eq_false (h : Quotable s) : s.isEmpty = false := by
  cases he : s.isEmpty with
  | false => rfl
  | true =>
    have : s = "" := by simpa using he
    exact absurd (by rw [this]; rfl) h.nonempty

end Quotable

/-- The quotes come off again. -/
theorem unquoted_quoted (cs : List Char) : unquoted ('"' :: (cs ++ ['"'])) = unquoted cs := by
  have hquote : ∀ c ∈ ['"'], isQuote c = true := by decide
  exact (strip_append_left hquote (cs ++ ['"'])).trans (strip_append_right hquote cs)

/-- A canonical name is a spelling of its own type. -/
theorem normalize_name (t : ColumnType) : ColumnType.normalize t.name = t := by
  cases t <;> decide

/-! ## What follows the type -/

/-- A comment between quotes, after a blank. -/
def quotedComment : Option String → List Char
  | some text => ' ' :: '"' :: (text.toList ++ ['"'])
  | none => []

/-- The phrase and the comment at the end of a line. -/
def trailingText (c : Column) : List Char :=
  (if !c.nullable && !c.primary then " NOT NULL".toList else []) ++ quotedComment c.comment

/-- What a text after a type tells: whether `NOT NULL` is in it, and the comment. -/
def trailingMeaning (cs : List Char) : Bool × List Char :=
  (hasNotNull false (trim cs), trim (unquoted (trim (withoutNotNull false 0 (trim cs)))))

theorem trim_quoted (cs : List Char) : trim ('"' :: (cs ++ ['"'])) = '"' :: (cs ++ ['"']) :=
  strip_eq_self (startsOutside_cons.mpr (by decide))
    ((endsOutside_append_singleton ('"' :: cs)).mpr (by decide))

/-- What the end of a line says of a comment: the comment without the phrase. -/
theorem trailingMeaning_comment (text : String) :
    trailingMeaning (quotedComment (some text))
      = (hasNotNull false text.toList, trim (unquoted (withoutNotNull false 0 text.toList))) := by
  unfold trailingMeaning quotedComment
  simp only [trim_cons_space, trim_quoted, hasNotNull_quoted, withoutNotNull_quoted, unquoted_quoted]

theorem trailingMeaning_phrase_comment (text : String) :
    trailingMeaning (" NOT NULL".toList ++ quotedComment (some text))
      = (true, trim (unquoted (withoutNotNull false 0 text.toList))) := by
  have hafter : withoutNotNull true 0 (' ' :: '"' :: (text.toList ++ ['"']))
      = ' ' :: '"' :: (withoutNotNull false 0 text.toList ++ ['"']) := by
    have hspace : isWord ' ' = false := by decide
    rw [withoutNotNull, if_pos rfl, hspace, withoutNotNull_quoted]
  have hstart : StartsOutside isWord (' ' :: '"' :: (text.toList ++ ['"'])) :=
    startsOutside_cons.mpr (by decide)
  have htrim : trim (" NOT NULL".toList ++ quotedComment (some text))
      = "NOT NULL".toList ++ ' ' :: '"' :: (text.toList ++ ['"']) := by
    refine (trim_cons_space _).trans (strip_eq_self (startsOutside_cons.mpr (by decide)) ?_)
    exact endsOutside_append (List.cons_ne_nil _ _)
      ((endsOutside_append_singleton (' ' :: '"' :: text.toList)).mpr (by decide))
  unfold trailingMeaning
  rw [htrim, hasNotNull_phrase hstart, withoutNotNull_phrase hstart, hafter, trim_cons_space,
    trim_quoted, unquoted_quoted]

/-- **The end of a line** tells whether the column is required, or its comment says so, and what is
left of the comment. -/
theorem trailingMeaning_trailingText (c : Column) :
    trailingMeaning (trailingText c)
      = ((!c.nullable && !c.primary) || c.comment.any fun text => hasNotNull false text.toList,
        (c.comment.map fun text => trim (unquoted (withoutNotNull false 0 text.toList))).getD []) := by
  unfold trailingText
  cases hc : c.comment with
  | none => cases hn : (!c.nullable && !c.primary) <;> decide
  | some text =>
    cases hn : (!c.nullable && !c.primary) with
    | false => exact trailingMeaning_comment text
    | true => exact trailingMeaning_phrase_comment text

/-- A comment without the phrase is told as it is. -/
theorem trailingMeaning_of_noPhrase {c : Column} (hq : ∀ text ∈ c.comment, Quotable text)
    (hp : ∀ text ∈ c.comment, hasNotNull false text.toList = false) :
    trailingMeaning (trailingText c)
      = (!c.nullable && !c.primary, (c.comment.map String.toList).getD []) := by
  rw [trailingMeaning_trailingText]
  cases hc : c.comment with
  | none => simp
  | some text =>
    have hphrase := hp text hc
    simp only [Option.any_some, Option.map_some, Option.getD_some, hphrase, Bool.or_false,
      withoutNotNull_eq_self hphrase, (hq text hc).unquoted, (hq text hc).trim]

/-- A column as its line begins, before its parameters are read. -/
def withoutParameters (c : Column) : Column :=
  { name := c.name
    type := c.type
    nullable := c.nullable
    primary := c.primary
    comment := c.comment }

theorem plainColumn_eq {c : Column} (h : Drawable c) {t : ColumnText} (hname : t.name = c.name)
    (htype : t.typeName = c.type.name) (hstar : t.starred = c.primary)
    (htrailing : t.trailing = trailingText c) : t.plainColumn = withoutParameters c := by
  have hmeaning := trailingMeaning_of_noPhrase h.quotable h.noPhrase
  unfold trailingMeaning at hmeaning
  rw [← htrailing, Prod.mk.injEq] at hmeaning
  have hnull : (!(c.primary || (!c.nullable && !c.primary))) = c.nullable := by
    have := h.primary
    cases hp : c.primary <;> cases hn : c.nullable <;> simp_all
  have hcomment : (if ((c.comment.map String.toList).getD []).isEmpty then none
      else some (String.ofList ((c.comment.map String.toList).getD []))) = c.comment := by
    cases hc : c.comment with
    | none => rfl
    | some text =>
      have := (h.quotable text hc).nonempty
      simp [this]
  have hkind : ColumnType.normalize c.type.name = c.type := normalize_name c.type
  unfold ColumnText.plainColumn ColumnText.type withoutParameters
  simp only [hmeaning.1, hmeaning.2, hname, htype, hstar, hkind, hnull, hcomment]

/-! ## Parameters -/

/-- What stands in brackets after a type. -/
def parameterText? (c : Column) : Option String :=
  if c.type == .enum && !c.enumValues.isEmpty then some (",".intercalate c.enumValues)
  else
    match c.precision, c.scale, c.size with
    | some precision, some scale, _ => some (toString precision ++ "," ++ toString scale)
    | some precision, none, _ => some (toString precision)
    | none, _, some size => some (toString size)
    | none, _, none => none

/-- Parameters in their brackets. -/
def bracketed : Option String → List Char
  | some parameters => '(' :: (parameters.toList ++ [')'])
  | none => []

theorem toList_typeText (c : Column) :
    (typeText c).toList = c.type.name.toList ++ bracketed (parameterText? c) := by
  have hbrackets : ∀ parameters : String, (c.type.name ++ "(" ++ parameters ++ ")").toList
      = c.type.name.toList ++ bracketed (some parameters) := by
    intro parameters
    simp [bracketed]
  unfold typeText parameterText?
  simp only
  split
  · exact hbrackets _
  · cases c.precision with
    | some precision =>
      cases c.scale with
      | some scale => exact hbrackets _
      | none => exact hbrackets _
    | none =>
      cases c.size with
      | some size => exact hbrackets _
      | none => simp [bracketed]

theorem parametersOf_bracketed {parameters : Option String} {rest : List Char}
    (hclose : ∀ p ∈ parameters, ')' ∉ p.toList) (hrest : rest.head? ≠ some '(') :
    parametersOf (bracketed parameters ++ rest) = ((parameters.getD "").toList, rest) := by
  cases parameters with
  | none =>
    cases rest with
    | nil => rfl
    | cons c rest =>
      have hc : c ≠ '(' := by simpa using hrest
      unfold parametersOf bracketed
      split
      · rename_i heq
        exact absurd (List.cons.inj heq).1 hc
      · rfl
  | some p =>
    have hinside : ∀ c ∈ p.toList, (c != ')') = true := by
      intro c hc
      rw [bne_iff_ne]
      rintro rfl
      exact hclose p rfl hc
    have hstop : StartsOutside (· != ')') (')' :: rest) := startsOutside_cons.mpr (by decide)
    have hlist : bracketed (some p) ++ rest = '(' :: (p.toList ++ ')' :: rest) := by
      simp [bracketed]
    rw [hlist]
    simp only [parametersOf, takeWhile_run hinside hstop, dropWhile_run hinside hstop]
    rfl

theorem mem_parametersOf (cs : List Char) :
    ')' ∉ (parametersOf cs).1 ∧ (∀ c ∈ (parametersOf cs).1, c ∈ cs)
      ∧ ∀ c ∈ (parametersOf cs).2, c ∈ cs := by
  have hnone : ')' ∉ ([] : List Char) ∧ (∀ c ∈ ([] : List Char), c ∈ cs) ∧ ∀ c ∈ cs, c ∈ cs :=
    ⟨by simp, by simp, fun _ hc => hc⟩
  unfold parametersOf
  split
  · rename_i rest
    split
    · rename_i d trailing heq
      refine ⟨?_, ?_, ?_⟩
      · intro hmem
        exact absurd (List.all_eq_true.mp List.all_takeWhile _ hmem) (by decide)
      · exact fun c hc => List.mem_cons_of_mem _ (List.takeWhile_subset _ hc)
      · intro c hc
        have hc : c ∈ rest.dropWhile (· != ')') := heq ▸ List.mem_cons_of_mem d hc
        exact List.mem_cons_of_mem _ (List.dropWhile_subset _ hc)
    · exact hnone
  · exact hnone

theorem number?_toString {n : Int} (h : 0 ≤ n) : number? (toString n).toList = .ok (some n) := by
  unfold number?
  rw [trim_toString, if_pos (isDigits_toString h), readInteger_toString]
  rfl

theorem comma_not_mem_toString (n : Int) : ',' ∉ (toString n).toList :=
  not_mem_toString (by decide) (by decide)

theorem quotable_not_blank {v : String} (h : Quotable v) : v.toList.all isBlank = false := by
  obtain ⟨c, cs, hcs⟩ := List.exists_cons_of_ne_nil h.nonempty
  have hc := h.startsPlain c (by rw [hcs]; rfl)
  rw [Bool.or_eq_false_iff] at hc
  rw [hcs, List.all_cons, hc.1]
  rfl

/-- The values of an enumeration come back from between the commas. -/
theorem enumValues_of_parameters {vs : List String} (hne : vs ≠ [])
    (hquotable : ∀ v ∈ vs, Quotable v) (hplain : ∀ v ∈ vs, ',' ∉ v.toList) {t : ColumnText}
    (ht : t.parameters = (",".intercalate vs).toList) : t.enumValues = vs := by
  have hpieces : pieces ',' t.parameters = vs.map String.toList := by
    rw [ht, String.toList_intercalate]
    exact pieces_intercalate (by simpa using hne) (by simpa using hplain)
  have hkept : (vs.map String.toList).filter (fun v => !v.all isBlank) = vs.map String.toList := by
    rw [List.filter_eq_self]
    intro v hv
    obtain ⟨w, hw, rfl⟩ := List.mem_map.mp hv
    rw [quotable_not_blank (hquotable w hw)]
    rfl
  unfold ColumnText.enumValues
  rw [hpieces, hkept, List.map_map]
  refine (List.map_congr_left fun v hv => ?_).trans (List.map_id vs)
  simp only [Function.comp_apply, (hquotable v hv).trim, (hquotable v hv).unquoted,
    String.ofList_toList, id_eq]

/-! ### What each form of parameters means -/

section Forms

variable {t : ColumnText}

theorem column_of_nil (ht : t.parameters = []) : t.column = .ok t.plainColumn := by
  unfold ColumnText.column
  rw [ht]
  rfl

theorem column_of_enum (hkind : t.type = .enum) (ht : t.parameters ≠ []) :
    t.column = .ok { t.plainColumn with enumValues := t.enumValues } := by
  have hsome : t.parameters.isEmpty = false := by simpa using ht
  unfold ColumnText.column
  simp only [hsome, hkind, Bool.false_eq_true, if_false, if_true]
  rfl

/-- One number is the precision of a decimal, and the size of anything else. -/
theorem column_of_number (hkind : t.type ≠ .enum) {n : Int} (hn : 0 ≤ n)
    (ht : t.parameters = (toString n).toList) :
    t.column = .ok (if t.type = .decimal then { t.plainColumn with precision := some n }
      else { t.plainColumn with size := some n }) := by
  have hsome : t.parameters.isEmpty = false := by simpa [ht] using toString_toList_ne_nil n
  have hcomma : t.parameters.contains ',' = false := by simpa [ht] using comma_not_mem_toString n
  unfold ColumnText.column
  simp only [hsome, hcomma, hkind, Bool.false_eq_true, if_false]
  rw [ht, number?_toString hn]
  split <;> rfl

/-- Two numbers are precision and scale. -/
theorem column_of_numbers (hkind : t.type ≠ .enum) {p s : Int} (hp : 0 ≤ p) (hs : 0 ≤ s)
    (ht : t.parameters = (toString p).toList ++ ',' :: (toString s).toList) :
    t.column = .ok { t.plainColumn with precision := some p, scale := some s } := by
  have hsome : t.parameters.isEmpty = false := by simp [ht]
  have hcomma : t.parameters.contains ',' = true := by simp [ht]
  have hbefore : ∀ c ∈ (toString p).toList, (c != ',') = true := by
    intro c hc
    rw [bne_iff_ne]
    rintro rfl
    exact comma_not_mem_toString p hc
  have hstop : StartsOutside (· != ',') (',' :: (toString s).toList) :=
    startsOutside_cons.mpr (by decide)
  have hfirst : t.parameters.takeWhile (· != ',') = (toString p).toList := by
    rw [ht, takeWhile_run hbefore hstop]
  have hsecond : (t.parameters.dropWhile (· != ',')).tail = (toString s).toList := by
    rw [ht, dropWhile_run hbefore hstop]
    rfl
  have hshown : (toString s).toList.all isBlank = false := by
    obtain ⟨d, ds, hds⟩ := List.exists_cons_of_ne_nil (toString_toList_ne_nil s)
    have hd : isBlank d = false := isBlank_eq_false_of_mem_toString (n := s) (by rw [hds]; simp)
    rw [hds, List.all_cons, hd]
    rfl
  unfold ColumnText.column
  simp only [hsome, hcomma, hkind, hfirst, hsecond, hshown, number?_toString hp, number?_toString hs,
    Bool.false_eq_true, if_false, if_true]
  rfl

end Forms

/-- **The parameters** are read as what they are. -/
theorem column_of_parameters {c : Column} (h : HasDrawableParameters c) {t : ColumnText}
    (htype : t.typeName = c.type.name) (ht : t.parameters = ((parameterText? c).getD "").toList)
    (hplain : t.plainColumn = withoutParameters c) : t.column = .ok (drawn c) := by
  have hkind : t.type = c.type := by
    unfold ColumnText.type
    rw [htype, normalize_name]
  have hdrawn : drawn c = { withoutParameters c with
      size := c.size, precision := c.precision, scale := c.scale, enumValues := c.enumValues } := rfl
  rw [hdrawn, ← hplain]
  cases h with
  | none values precision scale size =>
    have hp : t.parameters = [] := by
      rw [ht]
      simp [parameterText?, values, precision, size]
    rw [column_of_nil hp, hplain, values, precision, scale, size]
    rfl
  | values type nonempty quotable plain precision scale size =>
    have hp : t.parameters = (",".intercalate c.enumValues).toList := by
      rw [ht]
      simp [parameterText?, type, nonempty]
    have hread := enumValues_of_parameters nonempty quotable (fun v hv => (plain v hv).1) hp
    have hsome : t.parameters ≠ [] := by
      intro hnil
      have hnone : t.enumValues = [] := by simp [ColumnText.enumValues, hnil, pieces]
      exact nonempty (hread.symm.trans hnone)
    rw [column_of_enum (hkind.trans type) hsome, hread, hplain, precision, scale, size]
    rfl
  | precisionAndScale p s type values precision scale size precision_nonneg scale_nonneg =>
    have hp : t.parameters = (toString p).toList ++ ',' :: (toString s).toList := by
      rw [ht]
      simp [parameterText?, values, precision, scale]
    rw [column_of_numbers (hkind ▸ type) precision_nonneg scale_nonneg hp, hplain, values, precision,
      scale, size]
    rfl
  | precision p type values precision scale size precision_nonneg =>
    have hp : t.parameters = (toString p).toList := by
      rw [ht]
      simp [parameterText?, values, precision, scale]
    rw [column_of_number (by simp [hkind, type]) precision_nonneg hp, if_pos (hkind.trans type),
      hplain, values, precision, scale, size]
    rfl
  | size n notDecimal notEnum values precision scale size size_nonneg =>
    have hp : t.parameters = (toString n).toList := by
      rw [ht]
      simp [parameterText?, values, precision, size]
    rw [column_of_number (hkind ▸ notEnum) size_nonneg hp, if_neg (hkind ▸ notDecimal), hplain,
      values, precision, scale, size]
    rfl

/-- What holds of digits, signs, commas and the values of an enumeration holds of parameters. -/
theorem forall_mem_parameterText {P : Char → Prop} {c : Column}
    (hnumber : ∀ d : Char, d = '-' ∨ d.isDigit = true → P d) (hcomma : P ',')
    (hvalues : ∀ v ∈ c.enumValues, ∀ d ∈ v.toList, P d) :
    ∀ p ∈ parameterText? c, ∀ d ∈ p.toList, P d := by
  have hnumeral : ∀ n : Int, ∀ d ∈ (toString n).toList, P d :=
    fun n d hd => hnumber d (mem_toString hd)
  intro p hp d hd
  unfold parameterText? at hp
  split at hp
  · rw [← Option.mem_some_iff.mp hp, String.toList_intercalate] at hd
    rcases mem_of_mem_intercalate hd with rfl | ⟨v, hv, hd⟩
    · exact hcomma
    · obtain ⟨value, hvalue, rfl⟩ := List.mem_map.mp hv
      exact hvalues value hvalue d hd
  · split at hp
    · rw [← Option.mem_some_iff.mp hp] at hd
      simp only [String.toList_append, List.mem_append] at hd
      rcases hd with (hd | hd) | hd
      · exact hnumeral _ d hd
      · rw [List.mem_singleton.mp hd]
        exact hcomma
      · exact hnumeral _ d hd
    · rw [← Option.mem_some_iff.mp hp] at hd
      exact hnumeral _ d hd
    · rw [← Option.mem_some_iff.mp hp] at hd
      exact hnumeral _ d hd
    · exact absurd hp (by simp)

theorem values_of_drawable {c : Column} (h : HasDrawableParameters c) {v : String}
    (hv : v ∈ c.enumValues) : Quotable v ∧ ',' ∉ v.toList ∧ ')' ∉ v.toList := by
  cases h with
  | values _ _ quotable plain => exact ⟨quotable v hv, plain v hv⟩
  | none values | precisionAndScale _ _ _ values | precision _ _ values | size _ _ _ values =>
    rw [values] at hv
    exact absurd hv (by simp)

theorem Drawable.fitsLine {c : Column} (h : Drawable c) : FitsLine c :=
  ⟨h.name, h.quotable, fun _ hv => (values_of_drawable h.parameters hv).1.oneLine⟩

theorem close_not_mem_parameterText {c : Column} (h : HasDrawableParameters c) :
    ∀ p ∈ parameterText? c, ')' ∉ p.toList := by
  intro p hp hd
  refine forall_mem_parameterText (P := (· ≠ ')')) ?_ (by decide) ?_ p hp ')' hd rfl
  · rintro d hd rfl
    exact absurd hd (by decide)
  · rintro v hv d hd rfl
    exact (values_of_drawable h hv).2.2 hd

/-! ## The line -/

theorem isName_typeName (t : ColumnType) : IsName t.name := by
  cases t <;> decide

/-- The star of a primary column. -/
def starText (c : Column) : List Char :=
  if c.primary then "* ".toList else []

/-- The line of a column from its name on. -/
def columnBody (c : Column) : List Char :=
  c.name.toList
    ++ (" : ".toList ++ (c.type.name.toList ++ (bracketed (parameterText? c) ++ trailingText c)))

theorem toList_columnLine {c : Column} (h : FitsLine c) :
    (columnLine c).toList = (if c.primary then "* ".toList else "  ".toList) ++ columnBody c := by
  have hcomment : (c.comment.filter fun comment => !comment.isEmpty) = c.comment := by
    cases hc : c.comment with
    | none => rfl
    | some text =>
      rw [Option.filter_some, (h.quotable text hc).isEmpty_eq_false]
      rfl
  unfold columnLine columnBody trailingText
  rw [hcomment]
  simp only [String.toList_append, toList_typeText, List.append_assoc]
  congr 1
  · split <;> rfl
  · congr 5
    · split <;> rfl
    · cases c.comment with
      | none => rfl
      | some text => simp [quotedComment]

theorem endsOutside_columnBody (c : Column) : EndsOutside isBlank (columnBody c) := by
  have hbrackets : EndsOutside isBlank (bracketed (parameterText? c)) := by
    cases parameterText? c with
    | none => exact endsOutside_nil
    | some p => exact (endsOutside_append_singleton ('(' :: p.toList)).mpr (by decide)
  have htrailing : EndsOutside isBlank (trailingText c) := by
    refine EndsOutside.append ?_ ?_
    · cases (!c.nullable && !c.primary) with
      | false => exact endsOutside_nil
      | true => exact (endsOutside_append_singleton (" NOT NUL".toList)).mpr (by decide)
    · cases c.comment with
      | none => exact endsOutside_nil
      | some text =>
        exact (endsOutside_append_singleton (' ' :: '"' :: text.toList)).mpr (by decide)
  have htype := (isName_typeName c.type).endsOutside.append (hbrackets.append htrailing)
  have hne : c.type.name.toList ++ (bracketed (parameterText? c) ++ trailingText c) ≠ [] := by
    simp [(isName_typeName c.type).nonempty]
  exact endsOutside_append (by simp) (endsOutside_append hne htype)

theorem trim_columnLine {c : Column} (h : FitsLine c) :
    trim (columnLine c).toList = starText c ++ columnBody c := by
  have hbody : trim (columnBody c) = columnBody c :=
    strip_eq_self (h.name.startsOutside _) (endsOutside_columnBody c)
  rw [toList_columnLine h]
  unfold starText
  cases c.primary with
  | false =>
    have hlead : ∀ c ∈ "  ".toList, isBlank c = true := by decide
    exact (strip_append_left hlead (columnBody c)).trans hbody
  | true =>
    refine strip_eq_self (startsOutside_cons.mpr (by decide)) ?_
    exact endsOutside_append (by simp [columnBody]) (endsOutside_columnBody c)

theorem isOneLine_of_not_mem {cs : List Char} (h : '\n' ∉ cs) : isOneLine cs = true := by
  have hdrop : '\n' ∉ dropFinalNewline cs := by
    unfold dropFinalNewline
    split
    · exact fun hm => h ((List.dropLast_sublist cs).mem hm)
    · exact h
  simpa [isOneLine] using hdrop

theorem trailingText_eq_nil_or_cons (c : Column) :
    trailingText c = [] ∨ ∃ rest, trailingText c = ' ' :: rest := by
  unfold trailingText
  cases (!c.nullable && !c.primary) with
  | true => exact Or.inr ⟨_, rfl⟩
  | false =>
    cases c.comment with
    | none => exact Or.inl rfl
    | some text => exact Or.inr ⟨_, rfl⟩

/-- What the phrase, the quotes and the comment are free of is not in the end of a line. -/
theorem forall_mem_trailingText {P : Char → Prop} {c : Column}
    (hphrase : ∀ d ∈ " NOT NULL\"".toList, P d)
    (hcomment : ∀ text ∈ c.comment, ∀ d ∈ text.toList, P d) : ∀ d ∈ trailingText c, P d := by
  intro d hd
  rcases List.mem_append.mp hd with hd | hd
  · split at hd
    · exact hphrase d (List.mem_append_left ['"'] hd)
    · exact absurd hd (by simp)
  · cases hc : c.comment with
    | none =>
      rw [hc] at hd
      exact absurd hd (by simp [quotedComment])
    | some text =>
      rw [hc] at hd
      simp only [quotedComment, List.mem_cons, List.mem_append, List.not_mem_nil, or_false] at hd
      rcases hd with rfl | rfl | hd | rfl
      · exact hphrase ' ' (by decide)
      · exact hphrase '"' (by decide)
      · exact hcomment text hc d hd
      · exact hphrase '"' (by decide)

/-- What stands after the type of a column. -/
def afterType (c : Column) : List Char :=
  bracketed (parameterText? c) ++ trailingText c

/-- Parameters without a closing bracket are told from the end of the line. -/
theorem parametersOf_afterType {c : Column} (hclose : ∀ p ∈ parameterText? c, ')' ∉ p.toList) :
    parametersOf (afterType c) = (((parameterText? c).getD "").toList, trailingText c) := by
  apply parametersOf_bracketed hclose
  rcases trailingText_eq_nil_or_cons c with ht | ⟨rest, ht⟩
  · rw [ht]; simp
  · rw [ht]; simp

/-- Nothing after the type of a column breaks its line. -/
theorem oneLine_afterType {c : Column} (h : FitsLine c) : OneLine (afterType c) := by
  have hparameters : OneLine (bracketed (parameterText? c)) := by
    have hinside : ∀ p ∈ parameterText? c, OneLine p.toList := by
      refine forall_mem_parameterText (P := (isLineEnd · = false)) ?_ (by decide) h.values
      rintro d (rfl | hd)
      · decide
      · exact isLineEnd_eq_false_of_isDigit hd
    cases hp : parameterText? c with
    | none => exact fun d hd => absurd hd (by simp [bracketed])
    | some p =>
      have hopen : OneLine ['('] := by decide
      exact hopen.append ((hinside p hp).append (by decide))
  have htrailing : OneLine (trailingText c) :=
    forall_mem_trailingText (P := (isLineEnd · = false)) (by decide)
      fun text ht => (h.quotable text ht).oneLine
  exact hparameters.append htrailing

theorem oneLine_columnLine {c : Column} (h : FitsLine c) : OneLine (columnLine c).toList := by
  have hcolon : OneLine " : ".toList := by decide
  have hlead : OneLine (if c.primary then "* ".toList else "  ".toList) := by
    cases c.primary <;> decide
  rw [toList_columnLine h]
  exact hlead.append (h.name.oneLine.append (hcolon.append
    ((isName_typeName c.type).oneLine.append (oneLine_afterType h))))

/-- The parts of the line of a column, as they are found. -/
def foundParts (c : Column) : ColumnText :=
  { starred := c.primary
    name := c.name
    typeName := c.type.name
    parameters := (parametersOf (afterType c)).1
    trailing := (parametersOf (afterType c)).2 }

/-- What follows the star, if there is one, is a blank at most. -/
theorem starOf_starText {c : Column} (h : FitsLine c) :
    starOf (starText c ++ columnBody c)
      = (c.primary, (if c.primary then [' '] else []) ++ columnBody c) := by
  unfold starText
  cases c.primary with
  | true => rfl
  | false =>
    obtain ⟨d, ds, hds, hd⟩ := h.name.exists_cons
    have hne : d ≠ '*' := ne_of_isWord hd (by decide)
    unfold columnBody
    rw [hds]
    unfold starOf
    split
    · rename_i heq
      exact absurd (List.cons.inj heq).1 hne
    · rfl

/-- The name of a type ends where its parameters or the rest of the line begin. -/
theorem startsOutside_afterType (c : Column) : StartsOutside isWord (afterType c) := by
  unfold afterType
  cases parameterText? c with
  | some p => exact startsOutside_cons.mpr (by decide)
  | none =>
    rcases trailingText_eq_nil_or_cons c with ht | ⟨rest, ht⟩
    · rw [ht]
      exact startsOutside_nil
    · rw [ht]
      exact startsOutside_cons.mpr (by decide)

/-- The parts of a column line are found from the left to the right. -/
theorem columnText?_line {c : Column} (h : FitsLine c) :
    columnText? (starText c ++ columnBody c) = some (foundParts c) := by
  have hblanks : ((if c.primary then [' '] else []) ++ columnBody c).dropWhile isBlank
      = columnBody c := by
    refine dropWhile_run ?_ (h.name.startsOutside _)
    cases c.primary <;> decide
  have hword : word? (columnBody c)
      = some (c.name.toList, " : ".toList ++ (c.type.name.toList ++ afterType c)) :=
    word?_name h.name (startsOutside_cons.mpr (by decide))
  have htype := (isName_typeName c.type).startsOutside (afterType c)
  have hcolon : after? [':'] ((" : ".toList ++ (c.type.name.toList ++ afterType c)).dropWhile isBlank)
      = some (' ' :: (c.type.name.toList ++ afterType c)) :=
    rfl
  have hspace : (' ' :: (c.type.name.toList ++ afterType c)).dropWhile isBlank
      = c.type.name.toList ++ afterType c := by
    rw [List.dropWhile_cons, if_pos (by decide), dropWhile_eq_self_of_startsOutside htype]
  have hafter := startsOutside_afterType c
  have honeLine : isOneLine (parametersOf (afterType c)).2 = true := by
    apply isOneLine_of_not_mem
    intro hm
    have := oneLine_afterType h '\n' ((mem_parametersOf (afterType c)).2.2 _ hm)
    exact absurd this (by decide)
  unfold columnText?
  rw [starOf_starText h]
  simp only [hblanks, hword, hcolon, hspace, word?_name (isName_typeName c.type) hafter, honeLine,
    Option.bind_eq_bind, Option.bind_some, if_true, String.ofList_toList]
  rfl

/-- The parts of the line of a column. -/
def columnParts (c : Column) : ColumnText :=
  { starred := c.primary
    name := c.name
    typeName := c.type.name
    parameters := ((parameterText? c).getD "").toList
    trailing := trailingText c }

theorem columnText?_columnLine {c : Column} (h : Drawable c) :
    columnText? (starText c ++ columnBody c) = some (columnParts c) := by
  have hparameters := parametersOf_afterType (close_not_mem_parameterText h.parameters)
  rw [columnText?_line h.fitsLine]
  unfold foundParts columnParts
  rw [hparameters]

/-- **A column line is read back**: it is a column, and the column it draws. -/
theorem column?_columnLine {c : Column} (h : Drawable c) :
    column? (trim (columnLine c).toList) = .ok (some (drawn c)) := by
  have hplain : (columnParts c).plainColumn = withoutParameters c :=
    plainColumn_eq h rfl rfl rfl rfl
  have hcolumn := column_of_parameters h.parameters (t := columnParts c) rfl rfl hplain
  unfold column?
  rw [trim_columnLine h.fitsLine, columnText?_columnLine h]
  simp only [hcolumn]
  rfl

/-- **A column line is nothing else**, so it is left to the entity that is open. -/
theorem kind_columnLine {c : Column} (h : FitsLine c) :
    LineKind.of (trim (columnLine c).toList) = .other (trim (columnLine c).toList) := by
  rw [trim_columnLine h]
  obtain ⟨d, ds, hds, hd⟩ := h.name.exists_cons
  cases hp : c.primary with
  | true =>
    have hline : starText c ++ columnBody c = '*' :: (' ' :: columnBody c) := by
      unfold starText
      rw [hp]
      rfl
    have hnext : afterWord ('*' :: (' ' :: columnBody c)) = '*' :: (' ' :: columnBody c) := rfl
    rw [hline]
    exact kind_eq_other hnext (by decide) (by decide) (by decide) (by simp)
  | false =>
    have hline : starText c ++ columnBody c = columnBody c := by
      unfold starText
      rw [hp]
      rfl
    have hnext : afterWord (columnBody c) = ':' :: (' ' :: (c.type.name.toList
        ++ (bracketed (parameterText? c) ++ trailingText c))) := by
      have hcolon : StartsOutside isWord (" : ".toList ++ (c.type.name.toList
          ++ (bracketed (parameterText? c) ++ trailingText c))) :=
        startsOutside_cons.mpr (by decide)
      unfold afterWord columnBody
      rw [dropWhile_run h.name.word hcolon]
      rfl
    rw [hline]
    refine kind_eq_other hnext (by decide) (by decide) (by decide) ?_
    intro e he
    unfold columnBody at he
    rw [hds] at he
    rw [← Option.mem_some_iff.mp he]
    exact ne_of_isWord hd (by decide)

end Crowsfoot.Diagram
