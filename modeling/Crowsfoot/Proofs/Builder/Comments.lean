import Crowsfoot.Proofs.Builder.Concatenation

/-!
# Pieces of a text

From left to right every text is string literals, comments and single other characters (`Reads`),
in one way (`exists_reads`, `Reads.unique`). `withoutComments_exact`: what is left of the text is
the pieces that are no comments, one after another. No comment mark stands outside their literals,
and so nothing more is taken out when it is done again.

Taking out a comment puts the characters around it side by side, and these might make a comment
mark. They do not: a slash that is a piece of its own stands before neither of the characters that
would make it a mark, and what is left of the text behind it begins with neither of them
(`startsOutside_withoutComments`). A block comment cannot come right behind it, and of a line
comment the line feed stays.
-/

namespace Crowsfoot.Builder

open Crowsfoot.Text

/-! ## Where comments end -/

/-- The text of a block comment behind its mark, and what follows it. -/
inductive BlockEnds : (inside rest cs : List Char) → Prop where
  | closed {inside rest : List Char} (first : ¬['*', '/'] <:+: inside) :
    BlockEnds (inside ++ ['*', '/']) rest (inside ++ '*' :: '/' :: rest)
  | unclosed {cs : List Char} (never : ¬['*', '/'] <:+: cs) : BlockEnds cs [] cs

/-- The text of a line comment behind its mark, and what follows it. -/
structure LineEnds (inside rest cs : List Char) : Prop where
  eq : cs = inside ++ rest
  oneLine : '\n' ∉ inside
  border : StartsOutside (· != '\n') rest

/-- The text of a literal behind its first quote, and what follows it. -/
inductive LiteralEnds (quote : Char) : (inside rest cs : List Char) → Prop where
  | closed {inside rest : List Char} (h : Inside quote inside) :
    LiteralEnds quote (inside ++ [quote]) rest (inside ++ quote :: rest)
  | unclosed {cs : List Char} (h : IsUnclosed quote cs) : LiteralEnds quote cs [] cs

section Ends

variable {quote : Char} {inside rest other more cs : List Char}

/-! ### Line comments -/

theorem LineEnds.exists (cs : List Char) : ∃ inside rest, LineEnds inside rest cs := by
  refine ⟨cs.takeWhile (· != '\n'), cs.dropWhile (· != '\n'), ?_, ?_, startsOutside_dropWhile cs⟩
  · exact List.takeWhile_append_dropWhile.symm
  · intro hmem
    exact absurd (List.all_eq_true.mp List.all_takeWhile '\n' hmem) (by decide)

theorem LineEnds.unique (h : LineEnds inside rest cs) (h' : LineEnds other more cs) :
    inside = other ∧ rest = more := by
  have hall : ∀ {inside rest : List Char}, LineEnds inside rest cs →
      inside = cs.takeWhile (· != '\n') ∧ rest = cs.dropWhile (· != '\n') := by
    rintro inside rest ⟨rfl, hline, hborder⟩
    have hrun : ∀ c ∈ inside, (c != '\n') = true := fun c hc =>
      bne_iff_ne.mpr fun he => hline (he ▸ hc)
    exact ⟨(takeWhile_run hrun hborder).symm, (dropWhile_run hrun hborder).symm⟩
  exact ⟨(hall h).1.trans (hall h').1.symm, (hall h).2.trans (hall h').2.symm⟩

theorem withoutCommentsFrom_lineComment (h : '\n' ∉ cs) :
    withoutCommentsFrom .lineComment cs = [] := by
  induction cs with
  | nil => rfl
  | cons c cs ih =>
    rw [withoutCommentsFrom]
    · exact ih (mt (List.mem_cons_of_mem c) h)
    · exact fun he => h (he ▸ List.mem_cons_self)

theorem LineEnds.withoutCommentsFrom (h : LineEnds inside rest cs) :
    Builder.withoutCommentsFrom .lineComment cs = withoutComments rest := by
  obtain ⟨rfl, hline, hborder⟩ := h
  cases rest with
  | nil => rw [List.append_nil, withoutCommentsFrom_lineComment hline]; rfl
  | cons c rest =>
    obtain rfl : c = '\n' := by simpa using startsOutside_cons.mp hborder
    rw [withoutCommentsFrom_line hline, withoutComments_cons (by decide) (by decide) (by decide)]

/-! ### Block comments -/

theorem infix_blockEnd_cons {c : Char} :
    ['*', '/'] <:+: c :: cs ↔ (c = '*' ∧ ∃ tail, cs = '/' :: tail) ∨ ['*', '/'] <:+: cs := by
  rw [List.infix_cons_iff, List.cons_prefix_cons, eq_comm]
  refine or_congr_left (and_congr_right fun _ => ⟨?_, ?_⟩)
  · rintro ⟨tail, rfl⟩
    exact ⟨tail, rfl⟩
  · rintro ⟨tail, rfl⟩
    exact ⟨tail, rfl⟩

theorem BlockEnds.eq (h : BlockEnds inside rest cs) : cs = inside ++ rest := by
  cases h with
  | closed => rw [List.append_assoc]; rfl
  | unclosed => rw [List.append_nil]

theorem BlockEnds.exists (cs : List Char) : ∃ inside rest, BlockEnds inside rest cs := by
  induction cs with
  | nil => exact ⟨[], [], .unclosed (by decide)⟩
  | cons c cs ih =>
    by_cases hclose : c = '*' ∧ ∃ tail, cs = '/' :: tail
    · obtain ⟨rfl, rest, rfl⟩ := hclose
      exact ⟨_, rest, .closed (show ¬['*', '/'] <:+: [] by decide)⟩
    obtain ⟨inside, rest, h⟩ := ih
    cases h with
    | @closed inside rest first =>
      have hfirst : ¬['*', '/'] <:+: c :: inside := by
        rw [infix_blockEnd_cons, not_or]
        refine ⟨?_, first⟩
        rintro ⟨rfl, tail, rfl⟩
        exact hclose ⟨rfl, tail ++ '*' :: '/' :: rest, rfl⟩
      exact ⟨_, rest, .closed hfirst⟩
    | unclosed never =>
      exact ⟨_, [], .unclosed (by rw [infix_blockEnd_cons, not_or]; exact ⟨hclose, never⟩)⟩

/-- The first end of a block comment is the only one. -/
theorem eq_of_first_blockEnd (h : ¬['*', '/'] <:+: inside) (h' : ¬['*', '/'] <:+: other)
    (heq : inside ++ '*' :: '/' :: rest = other ++ '*' :: '/' :: more) :
    inside = other ∧ rest = more := by
  have hshort : ∀ {tail b r s : List Char}, ¬['*', '/'] <:+: b → tail <:+ b →
      '*' :: '/' :: r = tail ++ '*' :: '/' :: s → tail = [] := by
    rintro tail b r s hb htail heq
    match tail, htail, heq with
    | [], _, _ => rfl
    | [c], _, heq => exact absurd (List.cons.inj (List.cons.inj heq).2).1 (by decide)
    | c :: d :: tail, htail, heq =>
      have hc : '*' = c := (List.cons.inj heq).1
      have hd : '/' = d := (List.cons.inj (List.cons.inj heq).2).1
      subst hc hd
      exact absurd ((List.prefix_append ['*', '/'] tail).isInfix.trans htail.isInfix) hb
  rcases List.append_eq_append_iff.mp heq with ⟨tail, rfl, hrest⟩ | ⟨tail, rfl, hrest⟩
  · obtain rfl := hshort h' (List.suffix_append inside tail) hrest
    exact ⟨(List.append_nil inside).symm, by simpa using hrest⟩
  · obtain rfl := hshort h (List.suffix_append other tail) hrest
    exact ⟨List.append_nil other, by simpa using hrest.symm⟩

theorem BlockEnds.unique (h : BlockEnds inside rest cs) (h' : BlockEnds other more cs) :
    inside = other ∧ rest = more := by
  have hnever : ∀ {inside rest : List Char}, ¬¬['*', '/'] <:+: inside ++ '*' :: '/' :: rest :=
    fun hnot => hnot ⟨_, _, List.append_assoc _ _ _⟩
  generalize hcs : cs = text at h'
  cases h with
  | closed first =>
    cases h' with
    | closed first' =>
      obtain ⟨rfl, rfl⟩ := eq_of_first_blockEnd first first' hcs
      exact ⟨rfl, rfl⟩
    | unclosed never => exact absurd (hcs ▸ never) hnever
  | unclosed never =>
    cases h' with
    | closed => exact absurd (hcs ▸ never) hnever
    | unclosed => exact ⟨hcs, rfl⟩

theorem withoutCommentsFrom_blockComment (h : ¬['*', '/'] <:+: cs) :
    withoutCommentsFrom .blockComment cs = [] := by
  induction cs with
  | nil => rfl
  | cons c cs ih =>
    rw [infix_blockEnd_cons, not_or] at h
    rw [withoutCommentsFrom]
    · exact ih h.2
    · exact fun tail hc htail => h.1 ⟨hc, tail, htail⟩

theorem BlockEnds.withoutCommentsFrom (h : BlockEnds inside rest cs) :
    Builder.withoutCommentsFrom .blockComment cs = withoutComments rest := by
  cases h with
  | closed first => exact withoutCommentsFrom_block first rest
  | unclosed never => exact withoutCommentsFrom_blockComment never

/-! ### Literals -/

theorem LiteralEnds.eq (h : LiteralEnds quote inside rest cs) : cs = inside ++ rest := by
  cases h with
  | closed => rw [List.append_assoc]; rfl
  | unclosed => rw [List.append_nil]

theorem LiteralEnds.exists (quote : Char) (cs : List Char) :
    ∃ inside rest, LiteralEnds quote inside rest cs := by
  rcases inside_or_isUnclosed quote cs with ⟨inside, rest, h, rfl⟩ | h
  · exact ⟨_, rest, .closed h⟩
  · exact ⟨cs, [], .unclosed h⟩

theorem LiteralEnds.unique (hquote : isQuote quote = true) (h : LiteralEnds quote inside rest cs)
    (h' : LiteralEnds quote other more cs) : inside = other ∧ rest = more := by
  generalize hcs : cs = text at h'
  cases h with
  | closed h =>
    cases h' with
    | closed h' =>
      obtain ⟨rfl, rfl⟩ := h.append_inj hquote h' hcs
      exact ⟨rfl, rfl⟩
    | unclosed h' => exact absurd (hcs ▸ h') (h.not_isUnclosed hquote _)
  | unclosed h =>
    cases h' with
    | closed h' => exact absurd (hcs ▸ h) (h'.not_isUnclosed hquote _)
    | unclosed => exact ⟨hcs, rfl⟩

theorem LiteralEnds.withoutComments (hquote : isQuote quote = true)
    (h : LiteralEnds quote inside rest cs) :
    Builder.withoutComments (quote :: cs) = quote :: (inside ++ Builder.withoutComments rest) := by
  cases h with
  | @closed inside rest h =>
    rw [List.append_cons inside quote rest]
    exact (h.isLiteral hquote).withoutComments rest
  | unclosed h =>
    have hfirst : Builder.withoutComments (quote :: inside)
        = quote :: Builder.withoutCommentsFrom (.source (.literal quote)) inside := by
      rcases cases_quote hquote with rfl | rfl <;> rfl
    have hall := h.stays.withoutCommentsFrom []
    rw [List.append_nil] at hall
    rw [hfirst, hall]
    rfl

/-- A literal ends where it did in what is left of the text. -/
theorem LiteralEnds.left (h : LiteralEnds quote inside rest cs) :
    LiteralEnds quote inside (Builder.withoutComments rest)
      (inside ++ Builder.withoutComments rest) := by
  cases h with
  | closed h =>
    rw [List.append_assoc]
    exact LiteralEnds.closed h
  | unclosed h =>
    rw [show Builder.withoutComments [] = [] from rfl, List.append_nil]
    exact LiteralEnds.unclosed h

/-- Before a literal ends, a position is in it. -/
theorem LiteralEnds.after_ne_code {pre tail : List Char}
    (h : LiteralEnds quote (pre ++ tail) rest cs) (htail : tail ≠ []) :
    (Quoting.literal quote).after pre ≠ .code := by
  generalize hinside : pre ++ tail = inside at h
  cases h with
  | closed h =>
    rw [← List.dropLast_append_getLast htail, ← List.append_assoc] at hinside
    have hstays := h.stays.1
    rw [← (List.append_inj' hinside rfl).1] at hstays
    exact hstays.after_ne_code
  | unclosed h =>
    rw [← hinside] at h
    exact h.stays.after_ne_code

/-- Behind a literal that something follows, a position is in code. -/
theorem LiteralEnds.after_inside (hquote : isQuote quote = true)
    (h : LiteralEnds quote inside rest cs) (hrest : rest ≠ []) :
    (Quoting.literal quote).after inside = .code := by
  cases h with
  | closed h => exact h.after_quote hquote
  | unclosed => exact absurd rfl hrest

end Ends

/-! ## Pieces -/

/-- A piece of a text. -/
inductive Piece where
  /-- A string literal with its quotes. -/
  | literal (text : List Char)
  /-- A block comment with its marks. -/
  | blockComment (text : List Char)
  /-- A line comment without the line feed at its end. -/
  | lineComment (text : List Char)
  /-- Any other character. -/
  | char (c : Char)
  deriving Repr, DecidableEq

/-- The text of a piece. -/
def Piece.text : Piece → List Char
  | literal text | blockComment text | lineComment text => text
  | char c => [c]

/-- Whether a piece is no comment. -/
def Piece.isKept : Piece → Bool
  | literal _ | char _ => true
  | blockComment _ | lineComment _ => false

/-- The first piece of a text, and what follows it. -/
inductive Begins : (p : Piece) → (rest cs : List Char) → Prop where
  | literal {quote : Char} {inside rest cs : List Char} (opens : isQuote quote = true)
    (ends : LiteralEnds quote inside rest cs) :
    Begins (.literal (quote :: inside)) rest (quote :: cs)
  | blockComment {inside rest cs : List Char} (ends : BlockEnds inside rest cs) :
    Begins (.blockComment ('/' :: '*' :: inside)) rest ('/' :: '*' :: cs)
  | lineComment {mark inside rest cs : List Char} (opens : mark = ['/', '/'] ∨ mark = ['#'])
    (ends : LineEnds inside rest cs) :
    Begins (.lineComment (mark ++ inside)) rest (mark ++ cs)
  | char {c : Char} {cs : List Char} (quote : isQuote c = false) (hash : c ≠ '#')
    (slash : c = '/' → StartsOutside endsMark cs) : Begins (.char c) cs (c :: cs)

/-- **The pieces of a text**, from left to right. -/
inductive Reads : List Piece → List Char → Prop where
  | nil : Reads [] []
  | cons {p : Piece} {ps : List Piece} {rest cs : List Char} (first : Begins p rest cs)
    (more : Reads ps rest) : Reads (p :: ps) cs

section Pieces

variable {p q : Piece} {ps qs : List Piece} {rest other cs : List Char}

theorem Begins.eq (h : Begins p rest cs) : cs = p.text ++ rest := by
  cases h with
  | literal _ ends => rw [ends.eq]; rfl
  | blockComment ends => rw [ends.eq]; rfl
  | lineComment _ ends => rw [ends.eq, ← List.append_assoc]; rfl
  | char => rfl

theorem Begins.text_ne_nil (h : Begins p rest cs) : p.text ≠ [] := by
  cases h with
  | literal | blockComment | char => exact List.cons_ne_nil _ _
  | lineComment opens => rcases opens with rfl | rfl <;> exact List.cons_ne_nil _ _

/-- The pieces of a text make it up. -/
theorem Reads.eq (h : Reads ps cs) : cs = ps.flatMap Piece.text := by
  induction h with
  | nil => rfl
  | cons first _ ih => rw [first.eq, List.flatMap_cons, ih]

/-- Something comes first. -/
theorem exists_begins (c : Char) (cs : List Char) : ∃ p rest, Begins p rest (c :: cs) := by
  by_cases hquote : isQuote c = true
  · obtain ⟨inside, rest, h⟩ := LiteralEnds.exists c cs
    exact ⟨_, rest, .literal hquote h⟩
  by_cases hhash : c = '#'
  · obtain ⟨inside, rest, h⟩ := LineEnds.exists cs
    subst hhash
    exact ⟨_, rest, .lineComment (Or.inr rfl) h⟩
  by_cases hmark : c = '/' ∧ ∃ d ∈ cs.head?, endsMark d = true
  · obtain ⟨rfl, d, hd, hends⟩ := hmark
    obtain ⟨tail, rfl⟩ := List.head?_eq_some_iff.mp hd
    rw [endsMark, Bool.or_eq_true, beq_iff_eq, beq_iff_eq] at hends
    rcases hends with rfl | rfl
    · obtain ⟨inside, rest, h⟩ := LineEnds.exists tail
      exact ⟨_, rest, .lineComment (Or.inl rfl) h⟩
    · obtain ⟨inside, rest, h⟩ := BlockEnds.exists tail
      exact ⟨_, rest, .blockComment h⟩
  · refine ⟨_, cs, .char (Bool.not_eq_true _ ▸ hquote) hhash fun hc d hd => ?_⟩
    rw [← Bool.not_eq_true]
    exact fun hends => hmark ⟨hc, d, hd, hends⟩

/-- **Every text has pieces.** -/
theorem exists_reads (cs : List Char) : ∃ ps, Reads ps cs := by
  match cs with
  | [] => exact ⟨[], .nil⟩
  | c :: cs =>
    obtain ⟨p, rest, h⟩ := exists_begins c cs
    have hshorter : rest.length < (c :: cs).length := by
      have := List.length_pos_iff.mpr h.text_ne_nil
      rw [h.eq, List.length_append]
      omega
    obtain ⟨ps, hps⟩ := exists_reads rest
    exact ⟨p :: ps, .cons h hps⟩
termination_by cs.length
decreasing_by exact hshorter

/-! ### One way only -/

theorem isQuote_of_mark {mark : List Char} (h : mark = ['/', '/'] ∨ mark = ['#']) {c : Char}
    {tail more : List Char} (heq : mark ++ tail = c :: more) : isQuote c = false := by
  rcases h with rfl | rfl <;> rw [← (List.cons.inj heq).1] <;> decide

/-- A quote begins a literal. -/
theorem Begins.of_quote {quote : Char} (hquote : isQuote quote = true)
    (h : Begins p rest (quote :: cs)) :
    ∃ inside, p = .literal (quote :: inside) ∧ LiteralEnds quote inside rest cs := by
  generalize htext : quote :: cs = text at h
  cases h with
  | literal _ ends =>
    obtain ⟨rfl, rfl⟩ := List.cons.inj htext
    exact ⟨_, rfl, ends⟩
  | blockComment =>
    rw [(List.cons.inj htext).1] at hquote
    exact absurd hquote (by decide)
  | lineComment opens =>
    rw [isQuote_of_mark opens htext.symm] at hquote
    exact absurd hquote (by decide)
  | char hnot =>
    rw [(List.cons.inj htext).1, hnot] at hquote
    exact absurd hquote (by decide)

/-- A slash and a star begin a block comment. -/
theorem Begins.of_block (h : Begins p rest ('/' :: '*' :: cs)) :
    ∃ inside, p = .blockComment ('/' :: '*' :: inside) ∧ BlockEnds inside rest cs := by
  generalize htext : '/' :: '*' :: cs = text at h
  cases h with
  | literal opens =>
    rw [← (List.cons.inj htext).1] at opens
    exact absurd opens (by decide)
  | blockComment ends =>
    obtain rfl := (List.cons.inj (List.cons.inj htext).2).2
    exact ⟨_, rfl, ends⟩
  | lineComment opens =>
    rcases opens with rfl | rfl
    · exact absurd (List.cons.inj (List.cons.inj htext).2).1 (by decide)
    · exact absurd (List.cons.inj htext).1 (by decide)
  | char _ _ slash =>
    obtain ⟨rfl, rfl⟩ := List.cons.inj htext
    exact absurd (startsOutside_cons.mp (slash rfl)) (by decide)

/-- Two slashes begin a line comment, and so does a hash. -/
theorem Begins.of_line {mark : List Char} (hmark : mark = ['/', '/'] ∨ mark = ['#'])
    (h : Begins p rest (mark ++ cs)) :
    ∃ inside, p = .lineComment (mark ++ inside) ∧ LineEnds inside rest cs := by
  generalize htext : mark ++ cs = text at h
  cases h with
  | literal opens =>
    rw [isQuote_of_mark hmark htext] at opens
    exact absurd opens (by decide)
  | blockComment =>
    rcases hmark with rfl | rfl
    · exact absurd (List.cons.inj (List.cons.inj htext).2).1 (by decide)
    · exact absurd (List.cons.inj htext).1 (by decide)
  | lineComment opens ends =>
    rcases hmark with rfl | rfl <;> rcases opens with rfl | rfl
    · obtain rfl := (List.cons.inj (List.cons.inj htext).2).2
      exact ⟨_, rfl, ends⟩
    · exact absurd (List.cons.inj htext).1 (by decide)
    · exact absurd (List.cons.inj htext).1 (by decide)
    · obtain rfl := (List.cons.inj htext).2
      exact ⟨_, rfl, ends⟩
  | char _ hash slash =>
    rcases hmark with rfl | rfl
    · obtain ⟨rfl, rfl⟩ := List.cons.inj htext
      exact absurd (startsOutside_cons.mp (slash rfl)) (by decide)
    · exact absurd (List.cons.inj htext).1.symm hash

/-- What begins none of these is a piece of its own. -/
theorem Begins.of_char {c : Char} (hquote : isQuote c = false) (hhash : c ≠ '#')
    (hslash : c = '/' → StartsOutside endsMark cs) (h : Begins p rest (c :: cs)) :
    p = .char c ∧ rest = cs := by
  generalize htext : c :: cs = text at h
  cases h with
  | literal opens =>
    rw [← (List.cons.inj htext).1, hquote] at opens
    exact absurd opens (by decide)
  | blockComment =>
    obtain ⟨rfl, rfl⟩ := List.cons.inj htext
    exact absurd (startsOutside_cons.mp (hslash rfl)) (by decide)
  | lineComment opens =>
    rcases opens with rfl | rfl
    · obtain ⟨rfl, rfl⟩ := List.cons.inj htext
      exact absurd (startsOutside_cons.mp (hslash rfl)) (by decide)
    · exact absurd (List.cons.inj htext).1 hhash
  | char =>
    obtain ⟨rfl, rfl⟩ := List.cons.inj htext
    exact ⟨rfl, rfl⟩

/-- **One piece comes first, and no other.** -/
theorem Begins.unique (h : Begins p rest cs) (h' : Begins q other cs) : p = q ∧ rest = other := by
  cases h with
  | literal opens ends =>
    obtain ⟨inside, rfl, ends'⟩ := h'.of_quote opens
    obtain ⟨rfl, rfl⟩ := ends.unique opens ends'
    exact ⟨rfl, rfl⟩
  | blockComment ends =>
    obtain ⟨inside, rfl, ends'⟩ := h'.of_block
    obtain ⟨rfl, rfl⟩ := ends.unique ends'
    exact ⟨rfl, rfl⟩
  | lineComment opens ends =>
    obtain ⟨inside, rfl, ends'⟩ := h'.of_line opens
    obtain ⟨rfl, rfl⟩ := ends.unique ends'
    exact ⟨rfl, rfl⟩
  | char quote hash slash =>
    obtain ⟨rfl, rfl⟩ := h'.of_char quote hash slash
    exact ⟨rfl, rfl⟩

/-- **A text has its pieces in one way.** -/
theorem Reads.unique (h : Reads ps cs) (h' : Reads qs cs) : ps = qs := by
  induction h generalizing qs with
  | nil =>
    cases h' with
    | nil => rfl
    | cons first => exact absurd (List.append_eq_nil_iff.mp first.eq.symm).1 first.text_ne_nil
  | cons first _ ih =>
    cases h' with
    | nil => exact absurd (List.append_eq_nil_iff.mp first.eq.symm).1 first.text_ne_nil
    | cons first' more' =>
      obtain ⟨rfl, rfl⟩ := first.unique first'
      rw [ih more']

/-! ## What is left -/

/-- **The first piece is left, or nothing of it.** -/
theorem Begins.withoutComments (h : Begins p rest cs) :
    Builder.withoutComments cs
      = (if p.isKept then p.text else []) ++ Builder.withoutComments rest := by
  cases h with
  | literal opens ends => exact ends.withoutComments opens
  | blockComment ends => exact ends.withoutCommentsFrom
  | lineComment opens ends => rcases opens with rfl | rfl <;> exact ends.withoutCommentsFrom
  | @char c rest quote hash slash =>
    have hnext := next_of_not_quote quote
    have hmark : ∀ mark, endsMark mark = true → ∀ tail, c = '/' → rest = mark :: tail → False := by
      rintro mark hmark tail hc rfl
      rw [startsOutside_cons.mp (slash hc)] at hmark
      exact absurd hmark (by decide)
    unfold Builder.withoutComments
    rw [withoutCommentsFrom, hnext]
    · rfl
    · exact fun tail _ => hmark '*' (by decide) tail
    · exact fun tail _ => hmark '/' (by decide) tail
    · exact fun _ => hash

/-- **What is left behind a slash makes no comment mark of it**, if what stood there did not. -/
theorem startsOutside_withoutComments (h : StartsOutside endsMark cs) :
    StartsOutside endsMark (withoutComments cs) := by
  match cs with
  | [] => exact startsOutside_nil
  | c :: cs =>
    have hc := startsOutside_cons.mp h
    obtain ⟨p, rest, hbegins⟩ := exists_begins c cs
    rw [hbegins.withoutComments]
    generalize htext : c :: cs = text at hbegins
    cases hbegins with
    | literal =>
      obtain ⟨rfl, -⟩ := List.cons.inj htext
      exact startsOutside_cons.mpr hc
    | blockComment =>
      rw [(List.cons.inj htext).1] at hc
      exact absurd hc (by decide)
    | @lineComment _ _ rest _ opens ends =>
      -- the line feed behind a line comment stays
      have hborder := ends.border
      cases rest with
      | nil => exact startsOutside_nil
      | cons d rest =>
        obtain rfl : d = '\n' := by simpa using startsOutside_cons.mp hborder
        rw [withoutComments_cons (by decide) (by decide) (by decide)]
        exact startsOutside_cons.mpr (by decide)
    | char =>
      obtain ⟨rfl, -⟩ := List.cons.inj htext
      exact startsOutside_cons.mpr hc

/-- **What is left of a text is its pieces that are no comments.** -/
theorem Reads.withoutComments (h : Reads ps cs) :
    Builder.withoutComments cs = (ps.filter Piece.isKept).flatMap Piece.text := by
  induction h with
  | nil => rfl
  | @cons p ps rest cs first _ ih =>
    rw [first.withoutComments, ih, List.filter_cons]
    cases p.isKept with
    | true => rfl
    | false => rfl

/-- A piece that is left is still the first piece of what is left. -/
theorem Begins.left (h : Begins p rest cs) (hkept : p.isKept = true) :
    Begins p (Builder.withoutComments rest) (p.text ++ Builder.withoutComments rest) := by
  cases h with
  | literal opens ends => exact Begins.literal opens ends.left
  | blockComment | lineComment => exact Bool.noConfusion hkept
  | char quote hash slash =>
    exact Begins.char quote hash fun hc => startsOutside_withoutComments (slash hc)

/-- **What is left has the pieces that are left.** -/
theorem Reads.left (h : Reads ps cs) :
    Reads (ps.filter Piece.isKept) (Builder.withoutComments cs) := by
  induction h with
  | nil => exact Reads.nil
  | @cons p ps rest cs first _ ih =>
    rw [first.withoutComments, List.filter_cons]
    cases hkept : p.isKept with
    | true => exact Reads.cons (first.left hkept) ih
    | false => exact ih

/-! ## Comment marks -/

/-- What begins a comment in code. -/
def commentMarks : List (List Char) :=
  [['/', '/'], ['/', '*'], ['#']]

/-- No mark begins at a piece that is a single character. -/
theorem Begins.not_mark {c : Char} (h : Begins (.char c) rest cs) {mark post : List Char}
    (hmark : mark ∈ commentMarks) : cs ≠ mark ++ post := by
  cases h with
  | char _ hash slash =>
    intro heq
    simp only [commentMarks, List.mem_cons, List.not_mem_nil, or_false] at hmark
    rcases hmark with rfl | rfl | rfl
    · obtain ⟨rfl, rfl⟩ := List.cons.inj heq
      exact absurd (startsOutside_cons.mp (slash rfl)) (by decide)
    · obtain ⟨rfl, rfl⟩ := List.cons.inj heq
      exact absurd (startsOutside_cons.mp (slash rfl)) (by decide)
    · exact hash (List.cons.inj heq).1

/-- Behind a piece that is left, a position is in code again if anything follows. -/
theorem Begins.after_text (h : Begins p rest cs) (hkept : p.isKept = true) (hrest : rest ≠ []) :
    Quoting.code.after p.text = .code := by
  cases h with
  | @literal quote inside _ _ opens ends =>
    have hafter := ends.after_inside opens hrest
    rw [← (next_quote opens).1] at hafter
    exact hafter
  | blockComment | lineComment => exact Bool.noConfusion hkept
  | char quote => exact next_of_not_quote quote

/-- A mark in a piece that is left stands in a literal. -/
theorem Begins.after_ne_code (h : Begins p rest cs) (hkept : p.isKept = true)
    {pre tail mark post : List Char} (htext : p.text = pre ++ tail) (htail : tail ≠ [])
    (hmark : mark ∈ commentMarks) (heq : tail ++ rest = mark ++ post) :
    Quoting.code.after pre ≠ .code := by
  cases p with
  | literal text =>
    cases h with
    | @literal quote inside _ _ opens ends =>
      cases pre with
      | nil =>
        -- the mark would begin with the quote
        obtain rfl : quote :: inside = tail := htext
        have hfirst : quote = '/' ∨ quote = '#' := by
          simp only [commentMarks, List.mem_cons, List.not_mem_nil, or_false] at hmark
          rcases hmark with rfl | rfl | rfl
          · exact Or.inl (List.cons.inj heq).1
          · exact Or.inl (List.cons.inj heq).1
          · exact Or.inr (List.cons.inj heq).1
        rcases hfirst with rfl | rfl <;> exact absurd opens (by decide)
      | cons d pre =>
        obtain ⟨rfl, rfl⟩ := List.cons.inj htext
        have hinside := ends.after_ne_code htail
        rw [← (next_quote opens).1] at hinside
        exact hinside
  | char c =>
    obtain ⟨rfl, rfl⟩ : pre = [] ∧ tail = [c] := by
      rcases List.singleton_eq_append_iff.mp htext with ⟨rfl, rfl⟩ | ⟨-, rfl⟩
      · exact ⟨rfl, rfl⟩
      · exact absurd rfl htail
    exact absurd (h.eq.trans heq) (h.not_mark hmark)
  | blockComment | lineComment => exact Bool.noConfusion hkept

/-- **In a text without comments every mark stands in a literal.** -/
theorem Reads.after_ne_code (h : Reads ps cs) (hkept : ∀ p ∈ ps, p.isKept = true)
    {pre mark post : List Char} (hmark : mark ∈ commentMarks) (heq : cs = pre ++ (mark ++ post)) :
    Quoting.code.after pre ≠ .code := by
  have hsome : mark ++ post ≠ [] := by
    have hmarks : ∀ mark ∈ commentMarks, mark ≠ [] := by decide
    exact fun hnil => hmarks mark hmark (List.append_eq_nil_iff.mp hnil).1
  induction h generalizing pre with
  | nil => exact absurd (List.append_eq_nil_iff.mp heq.symm).2 hsome
  | @cons p ps rest cs first _ ih =>
    have hp := hkept p List.mem_cons_self
    have hps := fun q hq => hkept q (List.mem_cons_of_mem p hq)
    -- a mark further on stands in a literal of what follows the piece
    have hlater : ∀ {more : List Char}, pre = p.text ++ more → rest = more ++ (mark ++ post) →
        Quoting.code.after pre ≠ .code := by
      rintro more rfl hrest
      have hne : rest ≠ [] := fun hnil => hsome (List.append_eq_nil_iff.mp (hrest ▸ hnil)).2
      rw [Quoting.after, List.foldl_append]
      rw [show List.foldl Quoting.next .code p.text = .code from first.after_text hp hne]
      exact ih hps hrest
    rw [first.eq] at heq
    rcases List.append_eq_append_iff.mp heq with ⟨more, hpre, hrest⟩ | ⟨tail, htext, hrest⟩
    · exact hlater hpre hrest
    · by_cases htail : tail = []
      · rw [htail, List.append_nil] at htext
        rw [htail, List.nil_append] at hrest
        have hpre : pre = p.text ++ [] := by rw [htext, List.append_nil]
        exact hlater hpre hrest.symm
      · exact first.after_ne_code hp htext htail hmark hrest.symm

/-- **Exactly the comments are taken out, once and for all.** Every text is literals, comments and
single other characters in one way, and what is left of it is the pieces that are no comments. These
are the pieces of what is left, no comment mark stands outside its literals, and taking out its
comments changes nothing. -/
theorem withoutComments_exact (cs : List Char) :
    ∃ ps, Reads ps cs ∧ (∀ qs, Reads qs cs → qs = ps) ∧ cs = ps.flatMap Piece.text
      ∧ withoutComments cs = (ps.filter Piece.isKept).flatMap Piece.text
      ∧ Reads (ps.filter Piece.isKept) (withoutComments cs)
      ∧ (∀ pre mark post, mark ∈ commentMarks → withoutComments cs = pre ++ (mark ++ post) →
          Quoting.code.after pre ≠ .code)
      ∧ withoutComments (withoutComments cs) = withoutComments cs := by
  obtain ⟨ps, hps⟩ := exists_reads cs
  have hleft := hps.left
  have hkept : ∀ p ∈ ps.filter Piece.isKept, p.isKept = true := fun p hp =>
    (List.mem_filter.mp hp).2
  refine ⟨ps, hps, fun qs hqs => hqs.unique hps, hps.eq, hps.withoutComments, hleft, ?_, ?_⟩
  · exact fun pre mark post hmark heq => hleft.after_ne_code hkept hmark heq
  · rw [hleft.withoutComments, List.filter_filter]
    simp only [Bool.and_self]
    exact hps.withoutComments.symm

end Pieces

end Crowsfoot.Builder
