import Crowsfoot.Proofs.Builder.Concatenation

/-!
# Separators

`splitAt` cuts a text at the separators outside literals and brackets. `splitAt_exact`: nothing is
lost, no piece can be cut further, and behind each separator that cuts all literals are closed and
the bracket depth is zero (`Levelled`). A separator that is neither a quote nor a bracket cuts behind
every such text, and what follows it is cut like a text of its own.

The separator may be a bracket, which counts before it cuts, and brackets need not match: the depth is
a sum and can be below zero in between.
-/

namespace Crowsfoot.Builder

open Crowsfoot.Text

/-! ## Bracket depth -/

/-- A text with all its literals closed. The depth is what its characters outside of them add up
to. -/
inductive Levelled : (depth : Int) → List Char → Prop where
  | nil : Levelled 0 []
  | literal {depth : Int} {quote : Char} {inside cs : List Char} (opens : isQuote quote = true)
    (literal : Inside quote inside) (more : Levelled depth cs) :
    Levelled depth (quote :: (inside ++ quote :: cs))
  | char {depth : Int} {c : Char} {cs : List Char} (other : isQuote c = false)
    (more : Levelled depth cs) : Levelled (depthStep c + depth) (c :: cs)

section Depth

variable {q : Quoting} {depth : Int} {quote c : Char} {inside cs : List Char}

/-- Brackets in a literal do not count. -/
theorem Quoting.Stays.depthAfter (h : q.Stays cs) (depth : Int) :
    Builder.depthAfter q depth cs = depth := by
  induction cs generalizing q with
  | nil => rfl
  | cons c cs ih =>
    cases q with
    | code => exact absurd rfl h.1
    | literal quote | escape quote => exact ih h.2

theorem depthAfter_literal (hquote : isQuote quote = true) (h : Inside quote inside)
    (cs : List Char) (depth : Int) :
    depthAfter .code depth (quote :: (inside ++ quote :: cs)) = depthAfter .code depth cs := by
  obtain ⟨hopen, hclose, hstep⟩ := next_quote hquote
  obtain ⟨hstays, hafter⟩ := h.stays
  rw [depthAfter, hopen, hstep, Int.add_zero, depthAfter_append, hstays.depthAfter, hafter,
    depthAfter, hclose]
  exact fun he => nomatch he

theorem after_literal (hquote : isQuote quote = true) (h : Inside quote inside) (cs : List Char) :
    Quoting.code.after (quote :: (inside ++ quote :: cs)) = Quoting.code.after cs := by
  have hclosed := h.after_quote hquote
  rw [Quoting.after, List.foldl_cons, (next_quote hquote).1, List.append_cons, List.foldl_append]
  exact congrArg (List.foldl Quoting.next · cs) hclosed

theorem depthAfter_add (depth more : Int) (q : Quoting) (cs : List Char) :
    depthAfter q (depth + more) cs = depth + depthAfter q more cs := by
  induction cs generalizing q more with
  | nil => rfl
  | cons c cs ih =>
    cases q with
    | code =>
      rw [depthAfter, depthAfter, Int.add_assoc]
      exact ih _ _
    | literal quote | escape quote => exact ih _ _

/-- **The depth of a text is the one that is counted**, if its literals are closed. -/
theorem levelled_iff :
    Levelled depth cs ↔ Quoting.code.after cs = .code ∧ depthAfter .code 0 cs = depth := by
  constructor
  · intro h
    induction h with
    | nil => exact ⟨rfl, rfl⟩
    | literal opens literal _ ih =>
      rw [after_literal opens literal, depthAfter_literal opens literal]
      exact ih
    | @char depth c cs other _ ih =>
      rw [Quoting.after, List.foldl_cons, depthAfter, next_of_not_quote other, Int.zero_add,
        ← Int.add_zero (depthStep c), depthAfter_add, ih.2, Int.add_zero]
      exact ⟨ih.1, rfl⟩
  · rintro ⟨hafter, rfl⟩
    induction hlength : cs.length using Nat.strongRecOn generalizing cs with
    | ind n ih =>
      subst hlength
      cases cs with
      | nil => exact .nil
      | cons c cs =>
        by_cases hquote : isQuote c = true
        · rcases inside_or_isUnclosed c cs with ⟨inside, rest, hinside, rfl⟩ | hunclosed
          · rw [after_literal hquote hinside] at hafter
            rw [depthAfter_literal hquote hinside]
            refine .literal hquote hinside (ih rest.length ?_ hafter rfl)
            simp only [List.length_cons, List.length_append]
            omega
          · -- the literal would go on to the end of the text
            have hstays := hunclosed.stays
            rw [← List.append_nil cs] at hstays
            rw [Quoting.after, List.foldl_cons, (next_quote hquote).1] at hafter
            exact absurd hafter hstays.after_ne_code
        · rw [Bool.not_eq_true] at hquote
          rw [Quoting.after, List.foldl_cons, next_of_not_quote hquote] at hafter
          rw [depthAfter, next_of_not_quote hquote, Int.zero_add, ← Int.add_zero (depthStep c),
            depthAfter_add]
          exact .char hquote (ih cs.length (Nat.lt_succ_self _) hafter rfl)

end Depth

/-! ## Pieces -/

section Pieces

variable {sep : Char} {q : Quoting} {depth : Int} {p cs : List Char}

/-- **A text is one piece, or it is cut at a first separator**: the piece before it cannot be cut, and
behind it the text is in code at depth zero. -/
theorem splitFrom_cases (sep : Char) (q : Quoting) (depth : Int) (cs : List Char) :
    splitFrom sep q depth cs = [cs]
      ∨ ∃ p rest, cs = p ++ sep :: rest ∧ splitFrom sep q depth p = [p]
        ∧ q.after (p ++ [sep]) = .code ∧ depthAfter q depth (p ++ [sep]) = 0
        ∧ splitFrom sep q depth cs = p :: splitAt sep rest := by
  induction cs generalizing q depth with
  | nil => exact Or.inl rfl
  | cons c cs ih =>
    -- a character at which nothing is cut belongs to the first piece, whatever follows it
    have keep {depth' : Int}
        (hstep : ∀ x, splitFrom sep q depth (c :: x)
          = extendFirst c (splitFrom sep (q.next c) depth' x))
        (hdepth : ∀ x, depthAfter q depth (c :: x) = depthAfter (q.next c) depth' x) :
        splitFrom sep q depth (c :: cs) = [c :: cs]
          ∨ ∃ p rest, c :: cs = p ++ sep :: rest ∧ splitFrom sep q depth p = [p]
            ∧ q.after (p ++ [sep]) = .code ∧ depthAfter q depth (p ++ [sep]) = 0
            ∧ splitFrom sep q depth (c :: cs) = p :: splitAt sep rest := by
      rcases ih (q.next c) depth' with hone | ⟨p, rest, rfl, hone, hafter, hzero, hall⟩
      · exact Or.inl (by rw [hstep, hone]; rfl)
      · refine Or.inr ⟨c :: p, rest, rfl, by rw [hstep, hone]; rfl, hafter, ?_, ?_⟩
        · rw [List.cons_append, hdepth, hzero]
        · rw [hstep, hall]
          rfl
    cases q with
    | code =>
      by_cases hcut : (c = sep && !isQuote c && depth + depthStep c == 0) = true
      · have hsplit : splitFrom sep .code depth (c :: cs)
            = [] :: splitFrom sep .code (depth + depthStep c) cs := if_pos hcut
        simp only [Bool.and_eq_true, decide_eq_true_eq, Bool.not_eq_true', beq_iff_eq] at hcut
        obtain ⟨⟨rfl, hquote⟩, hzero⟩ := hcut
        rw [hzero] at hsplit
        exact Or.inr ⟨[], cs, rfl, rfl, next_of_not_quote hquote, hzero, hsplit⟩
      · exact keep (fun x => if_neg hcut) fun _ => rfl
    | literal quote | escape quote => exact keep (fun _ => rfl) fun _ => rfl

/-- **No piece can be cut further.** -/
theorem splitAt_of_mem_splitAt {cs : List Char} (h : p ∈ splitAt sep cs) : splitAt sep p = [p] := by
  rcases splitFrom_cases sep .code 0 cs with hone | ⟨first, rest, rfl, hone, -, -, hall⟩
  · rw [splitAt, hone, List.mem_singleton] at h
    rw [h]
    exact hone
  · rw [splitAt, hall] at h
    rcases List.mem_cons.mp h with rfl | h
    · exact hone
    · exact splitAt_of_mem_splitAt h
termination_by cs.length

/-- **Every separator that cuts stands at the top level.** -/
theorem levelled_of_mem_dropLast {cs : List Char} (h : p ∈ (splitAt sep cs).dropLast) :
    Levelled 0 (p ++ [sep]) := by
  rcases splitFrom_cases sep .code 0 cs with hone | ⟨first, rest, rfl, -, hafter, hzero, hall⟩
  · rw [splitAt, hone] at h
    exact absurd h List.not_mem_nil
  · have hne : splitAt sep rest ≠ [] := splitFrom_ne_nil sep .code 0 rest
    rw [splitAt, hall, List.dropLast_cons_of_ne_nil hne] at h
    rcases List.mem_cons.mp h with rfl | h
    · exact levelled_iff.mpr ⟨hafter, hzero⟩
    · exact levelled_of_mem_dropLast h
termination_by cs.length

end Pieces

/-- **Cutting at separators** loses nothing, cuts as often as it can, and only at the top level; and
behind a text at the top level a separator that is neither a quote nor a bracket cuts. -/
theorem splitAt_exact (sep : Char) :
    (∀ cs, joinWith [sep] (splitAt sep cs) = cs
        ∧ (∀ p ∈ splitAt sep cs, splitAt sep p = [p])
        ∧ ∀ p ∈ (splitAt sep cs).dropLast, Levelled 0 (p ++ [sep]))
      ∧ (isQuote sep = false → depthStep sep = 0 → ∀ lead, Levelled 0 lead → ∀ rest,
        splitAt sep (lead ++ sep :: rest) = splitAt sep lead ++ splitAt sep rest) := by
  refine ⟨fun cs => ⟨joinWith_splitAt sep cs, fun p => splitAt_of_mem_splitAt,
    fun p => levelled_of_mem_dropLast⟩, fun hquote hsep lead hlead rest => ?_⟩
  obtain ⟨hafter, hdepth⟩ := levelled_iff.mp hlead
  exact splitFrom_append_sep hquote hsep hafter hdepth rest

/-- A separator in a literal or in brackets does not cut, and brackets that do not match are
counted. -/
theorem splitAt_exact_mixed :
    Levelled 0 "f(',', [a)], 'b\\''".toList
      ∧ splitAt ',' "f(',', [a)], 'b\\'',c)".toList
        = ["f(',', [a)]".toList, " 'b\\''".toList, "c)".toList] := by
  have hlead : Levelled 0 "f(',', [a)], 'b\\''".toList := levelled_iff.mpr (by decide)
  refine ⟨hlead, ?_⟩
  exact ((splitAt_exact ',').2 (by decide) (by decide) _ hlead "c)".toList).trans (by decide)

end Crowsfoot.Builder
