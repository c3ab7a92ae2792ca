import Crowsfoot.Builder.Comment

/-!
# Literals

A string literal stands between two quotes of one kind (`IsLiteral`). The second is the first that
closes it, so that no position between them is in code (`Quoting.Stays`), and there every scanner of
builder code does nothing but go on:

* `Quoting.Stays.withoutCommentsFrom`: no comment begins in a literal;
* `Quoting.Stays.groupFrom`: no bracket in it opens or closes a group;
* `Quoting.Stays.splitFrom`: nothing is cut in it.

What follows a quote is the inside of a literal (`Inside`) and the quote that closes it, or else it
goes on to the end of the text (`inside_or_isUnclosed`); it is one of both, and in one way only
(`Inside.append_inj`, `Inside.not_isUnclosed`).
-/

namespace Crowsfoot.Builder

open Crowsfoot.Text

/-! ## Pieces -/

/-- A list with more characters before its first piece. -/
def extendBy (cs : List Char) (ps : List (List Char)) : List (List Char) :=
  cs.foldr extendFirst ps

theorem extendBy_append (cs ds : List Char) (ps : List (List Char)) :
    extendBy (cs ++ ds) ps = extendBy cs (extendBy ds ps) :=
  List.foldr_append

theorem extendBy_cons (cs : List Char) (p : List Char) (ps : List (List Char)) :
    extendBy cs (p :: ps) = (cs ++ p) :: ps := by
  induction cs with
  | nil => rfl
  | cons c cs ih =>
    show extendFirst c (extendBy cs (p :: ps)) = _
    rw [ih]
    rfl

/-! ## Inside a literal -/

/-- From the given quoting on, no position in a text is in code, and neither is the one behind it. -/
def Quoting.Stays : Quoting → List Char → Prop
  | q, [] => q ≠ .code
  | q, c :: cs => q ≠ .code ∧ (q.next c).Stays cs

instance Quoting.decidableStays : (q : Quoting) → (cs : List Char) → Decidable (q.Stays cs)
  | q, [] => inferInstanceAs (Decidable (q ≠ .code))
  | q, c :: cs =>
    have := Quoting.decidableStays (q.next c) cs
    inferInstanceAs (Decidable (q ≠ .code ∧ (q.next c).Stays cs))

/-- No comment begins in a literal. -/
theorem withoutCommentsFrom_source {q : Quoting} (hq : q ≠ .code) (c : Char) (rest : List Char) :
    withoutCommentsFrom (.source q) (c :: rest)
      = c :: withoutCommentsFrom (.source (q.next c)) rest := by
  rw [withoutCommentsFrom]
  all_goals simp [hq]

namespace Quoting.Stays

variable {q : Quoting} {cs : List Char}

theorem withoutCommentsFrom (h : q.Stays cs) (rest : List Char) :
    Builder.withoutCommentsFrom (.source q) (cs ++ rest)
      = cs ++ Builder.withoutCommentsFrom (.source (q.after cs)) rest := by
  induction cs generalizing q with
  | nil => rfl
  | cons c cs ih =>
    rw [List.cons_append, withoutCommentsFrom_source h.1, ih h.2]
    rfl

theorem groupFrom (h : q.Stays cs) (closer : Char) (outer rest : List Char) :
    Builder.groupFrom q closer outer (cs ++ rest)
      = (Builder.groupFrom (q.after cs) closer outer rest).map fun r => (cs ++ r.1, r.2) := by
  induction cs generalizing q with
  | nil => simp [after]
  | cons c cs ih =>
    have hstep : Builder.groupFrom q closer outer (c :: (cs ++ rest))
        = (Builder.groupFrom (q.next c) closer outer (cs ++ rest)).map fun r => (c :: r.1, r.2) := by
      cases q with
      | code => exact absurd rfl h.1
      | literal quote | escape quote => rfl
    rw [List.cons_append, hstep, ih h.2, Option.map_map]
    rfl

theorem splitFrom (h : q.Stays cs) (sep : Char) (depth : Int) (rest : List Char) :
    Builder.splitFrom sep q depth (cs ++ rest)
      = extendBy cs (Builder.splitFrom sep (q.after cs) depth rest) := by
  induction cs generalizing q with
  | nil => rfl
  | cons c cs ih =>
    have hstep : Builder.splitFrom sep q depth (c :: (cs ++ rest))
        = extendFirst c (Builder.splitFrom sep (q.next c) depth (cs ++ rest)) := by
      cases q with
      | code => exact absurd rfl h.1
      | literal quote | escape quote => rfl
    rw [List.cons_append, hstep, ih h.2]
    rfl

end Quoting.Stays

/-! ## Whole literals -/

/-- A literal: between two equal quotes, the second of which is the first to close it. -/
structure IsLiteral (quote : Char) (inside cs : List Char) : Prop where
  isQuote : isQuote quote = true
  stays : (Quoting.literal quote).Stays inside
  after : (Quoting.literal quote).after inside = .literal quote
  eq : cs = quote :: (inside ++ [quote])

theorem cases_quote {quote : Char} (h : isQuote quote = true) : quote = '\'' ∨ quote = '"' := by
  simpa [isQuote] using h

/-- A quote opens a literal and closes it again. -/
theorem next_quote {quote : Char} (h : isQuote quote = true) :
    Quoting.next .code quote = .literal quote ∧ Quoting.next (.literal quote) quote = .code
      ∧ depthStep quote = 0 := by
  rcases cases_quote h with rfl | rfl <;> decide

theorem next_of_not_quote {c : Char} (h : isQuote c = false) : Quoting.next .code c = .code := by
  simp only [Quoting.next, h, Bool.false_eq_true, if_false]

namespace IsLiteral

variable {quote : Char} {inside cs : List Char}

theorem withoutComments (h : IsLiteral quote inside cs) (rest : List Char) :
    Builder.withoutComments (cs ++ rest) = cs ++ Builder.withoutComments rest := by
  obtain ⟨hquote, hstays, hafter, rfl⟩ := h
  obtain ⟨hopen, hclose, -⟩ := next_quote hquote
  have hfirst : ∀ tail, withoutCommentsFrom (.source .code) (quote :: tail)
      = quote :: withoutCommentsFrom (.source (.literal quote)) tail := by
    intro tail
    rcases cases_quote hquote with rfl | rfl <;> rfl
  unfold Builder.withoutComments
  rw [List.cons_append, List.append_assoc, List.singleton_append, hfirst,
    hstays.withoutCommentsFrom, hafter, withoutCommentsFrom_source (by simp), hclose]
  simp

theorem groupFrom (h : IsLiteral quote inside cs) (closer : Char) (outer rest : List Char) :
    Builder.groupFrom .code closer outer (cs ++ rest)
      = (Builder.groupFrom .code closer outer rest).map fun r => (cs ++ r.1, r.2) := by
  obtain ⟨hquote, hstays, hafter, rfl⟩ := h
  obtain ⟨-, hclose, -⟩ := next_quote hquote
  rw [List.cons_append, List.append_assoc, List.singleton_append]
  simp only [Builder.groupFrom, hquote, if_true, hstays.groupFrom, hafter, hclose, Option.map_map]
  refine Option.map_congr fun r _ => ?_
  simp

theorem splitFrom (h : IsLiteral quote inside cs) {sep : Char} (hsep : Text.isQuote sep = false)
    (depth : Int) (rest : List Char) :
    Builder.splitFrom sep .code depth (cs ++ rest)
      = extendBy cs (Builder.splitFrom sep .code depth rest) := by
  obtain ⟨hquote, hstays, hafter, rfl⟩ := h
  obtain ⟨hopen, hclose, hdepth⟩ := next_quote hquote
  have hne : ¬ quote = sep := by
    rintro rfl
    exact absurd (hquote.symm.trans hsep) (by decide)
  have hlast : Builder.splitFrom sep (.literal quote) depth (quote :: rest)
      = extendFirst quote (Builder.splitFrom sep .code depth rest) := by
    simp only [Builder.splitFrom, hclose]
  rw [List.cons_append, List.append_assoc, List.singleton_append]
  simp only [Builder.splitFrom, hne, hdepth, hopen, Int.add_zero, decide_false, Bool.false_and,
    Bool.false_eq_true, if_false]
  rw [hstays.splitFrom, hafter, hlast,
    show quote :: (inside ++ [quote]) = [quote] ++ (inside ++ [quote]) from rfl, extendBy_append,
    extendBy_append]
  rfl

end IsLiteral

/-! ## Where a literal ends -/

/-- The inside of a literal: a backslash takes the next character with it, and no other character is
the quote. -/
inductive Inside (quote : Char) : List Char → Prop where
  | nil : Inside quote []
  | plain {c : Char} {cs : List Char} (slash : c ≠ '\\') (other : c ≠ quote)
    (rest : Inside quote cs) : Inside quote (c :: cs)
  | escaped {c : Char} {cs : List Char} (rest : Inside quote cs) : Inside quote ('\\' :: c :: cs)

/-- What follows the quote of a literal that is never closed. A backslash at the end takes nothing
with it. -/
def IsUnclosed (quote : Char) (cs : List Char) : Prop :=
  Inside quote cs ∨ ∃ lead, Inside quote lead ∧ cs = lead ++ ['\\']

section Ends

variable {q : Quoting} {quote : Char} {cs ds : List Char}

theorem Quoting.Stays.append (hcs : q.Stays cs) (hds : (q.after cs).Stays ds) :
    q.Stays (cs ++ ds) := by
  induction cs generalizing q with
  | nil => exact hds
  | cons c cs ih => exact ⟨hcs.1, ih hcs.2 hds⟩

theorem Quoting.Stays.after_ne_code (h : q.Stays (cs ++ ds)) : q.after cs ≠ .code := by
  induction cs generalizing q with
  | nil =>
    cases ds with
    | nil => exact h
    | cons d ds => exact h.1
  | cons c cs ih => exact ih h.2

theorem Inside.stays (h : Inside quote cs) :
    (Quoting.literal quote).Stays cs ∧ (Quoting.literal quote).after cs = .literal quote := by
  induction h with
  | nil => exact ⟨Quoting.noConfusion, rfl⟩
  | @plain c cs slash other _ ih =>
    have hnext : Quoting.next (.literal quote) c = .literal quote := by
      simp only [Quoting.next, if_neg slash, if_neg other]
    refine ⟨⟨Quoting.noConfusion, ?_⟩, ?_⟩
    · rw [hnext]
      exact ih.1
    · rw [Quoting.after, List.foldl_cons, hnext]
      exact ih.2
  | @escaped c cs _ ih => exact ⟨⟨Quoting.noConfusion, Quoting.noConfusion, ih.1⟩, ih.2⟩

theorem Inside.isLiteral (hquote : isQuote quote = true) (h : Inside quote cs) :
    IsLiteral quote cs (quote :: (cs ++ [quote])) :=
  ⟨hquote, h.stays.1, h.stays.2, rfl⟩

theorem IsUnclosed.stays (h : IsUnclosed quote cs) : (Quoting.literal quote).Stays cs := by
  rcases h with h | ⟨lead, h, rfl⟩
  · exact h.stays.1
  · refine h.stays.1.append ?_
    rw [h.stays.2]
    exact ⟨Quoting.noConfusion, Quoting.noConfusion⟩

/-- **A literal is closed, or goes on to the end.** -/
theorem inside_or_isUnclosed (quote : Char) (cs : List Char) :
    (∃ inside rest, Inside quote inside ∧ cs = inside ++ quote :: rest)
      ∨ IsUnclosed quote cs := by
  match cs with
  | [] => exact Or.inr (Or.inl .nil)
  | c :: cs =>
    by_cases hslash : c = '\\'
    · subst hslash
      match cs with
      | [] => exact Or.inr (Or.inr ⟨[], .nil, rfl⟩)
      | d :: cs =>
        rcases inside_or_isUnclosed quote cs with ⟨inside, rest, h, rfl⟩ | h | ⟨lead, h, rfl⟩
        · exact Or.inl ⟨_, rest, .escaped h, rfl⟩
        · exact Or.inr (Or.inl (.escaped h))
        · exact Or.inr (Or.inr ⟨_, .escaped h, rfl⟩)
    · by_cases hquote : c = quote
      · exact Or.inl ⟨[], cs, .nil, by rw [hquote, List.nil_append]⟩
      · rcases inside_or_isUnclosed quote cs with ⟨inside, rest, h, rfl⟩ | h | ⟨lead, h, rfl⟩
        · exact Or.inl ⟨_, rest, .plain hslash hquote h, rfl⟩
        · exact Or.inr (Or.inl (.plain hslash hquote h))
        · exact Or.inr (Or.inr ⟨_, .plain hslash hquote h, rfl⟩)
termination_by cs.length

theorem Inside.after_quote (hquote : isQuote quote = true) (h : Inside quote cs) :
    (Quoting.literal quote).after (cs ++ [quote]) = .code := by
  rw [Quoting.after, List.foldl_append]
  exact (congrArg (Quoting.next · quote) h.stays.2).trans (next_quote hquote).2.1

theorem Inside.not_isUnclosed (hquote : isQuote quote = true) (h : Inside quote cs)
    (rest : List Char) : ¬IsUnclosed quote (cs ++ quote :: rest) := by
  intro hunclosed
  rw [List.append_cons] at hunclosed
  exact hunclosed.stays.after_ne_code (h.after_quote hquote)

/-- **The first quote that closes a literal is the only one.** -/
theorem Inside.append_inj (hquote : isQuote quote = true) (hcs : Inside quote cs)
    (hds : Inside quote ds) {rest more : List Char}
    (h : cs ++ quote :: rest = ds ++ quote :: more) : cs = ds ∧ rest = more := by
  have hshort : ∀ {a b : List Char}, Inside quote a → Inside quote b → ∀ {tail r s : List Char},
      b = a ++ tail → quote :: r = tail ++ quote :: s → tail = [] := by
    rintro a b ha hb tail r s rfl heq
    cases tail with
    | nil => rfl
    | cons d tail =>
      obtain rfl : quote = d := (List.cons.inj heq).1
      rw [List.append_cons] at hb
      exact absurd (ha.after_quote hquote) hb.stays.1.after_ne_code
  rcases List.append_eq_append_iff.mp h with ⟨tail, hmore, hrest⟩ | ⟨tail, hmore, hrest⟩
  · obtain rfl := hshort hcs hds hmore hrest
    exact ⟨by rw [hmore, List.append_nil], (List.cons.inj hrest).2⟩
  · obtain rfl := hshort hds hcs hmore hrest
    exact ⟨by rw [hmore, List.append_nil], (List.cons.inj hrest).2.symm⟩

end Ends

end Crowsfoot.Builder
