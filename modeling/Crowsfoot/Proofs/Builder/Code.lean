import Crowsfoot.Builder.Argument
import Crowsfoot.Proofs.Builder.Scanning

/-!
# Written code

Generated code is made of plain characters, of literals in single quotes and of brackets that hold
code (`Code`). Arbitrary strings stand in the literals, so a scanner of generated code has to pass
over whatever they hold: every scanner does (`Code.inert`). `escaped` is the inside of a literal, in
which a scanner stays up to its end.
-/

namespace Crowsfoot.Builder

open Crowsfoot.Text

/-! ## Literals -/

/-- The inside of a literal: a backslash before each quote and backslash. -/
def escaped (cs : List Char) : List Char :=
  cs.flatMap fun c => if c = '\\' || c = '\'' then ['\\', c] else [c]

theorem toList_literal (s : String) :
    (Argument.literal s).toList = '\'' :: (escaped s.toList ++ ['\'']) := by
  unfold Argument.literal onChars
  rw [String.toList_ofList]
  rfl

/-- Each character of a literal is escaped or neither quote nor backslash. -/
theorem escaped_cons (c : Char) (cs : List Char) :
    (escaped (c :: cs) = '\\' :: c :: escaped cs ∧ (c = '\\' ∨ c = '\''))
      ∨ (escaped (c :: cs) = c :: escaped cs ∧ c ≠ '\\' ∧ c ≠ '\'') := by
  unfold escaped
  rw [List.flatMap_cons]
  by_cases h : (c = '\\' || c = '\'') = true
  · rw [if_pos h]
    simp only [Bool.or_eq_true, decide_eq_true_eq] at h
    exact Or.inl ⟨rfl, h⟩
  · rw [if_neg h]
    simp only [Bool.or_eq_true, decide_eq_true_eq, not_or] at h
    exact Or.inr ⟨rfl, h.1, h.2⟩

theorem next_literal {c : Char} (hslash : c ≠ '\\') (hquote : c ≠ '\'') :
    Quoting.next (.literal '\'') c = .literal '\'' := by
  simp only [Quoting.next, if_neg hslash, if_neg hquote]

/-- What is escaped stays in its literal, up to the end. -/
theorem stays_escaped (cs : List Char) :
    (Quoting.literal '\'').Stays (escaped cs)
      ∧ (Quoting.literal '\'').after (escaped cs) = .literal '\'' := by
  induction cs with
  | nil => exact ⟨by simp [escaped, Quoting.Stays], rfl⟩
  | cons c cs ih =>
    rcases escaped_cons c cs with ⟨h, -⟩ | ⟨h, hslash, hquote⟩
    · rw [h]
      exact ⟨⟨by simp, by simp [Quoting.next], ih.1⟩, ih.2⟩
    · have hnext := next_literal hslash hquote
      rw [h]
      refine ⟨⟨by simp, ?_⟩, ?_⟩
      · rw [hnext]
        exact ih.1
      · rw [Quoting.after, List.foldl_cons, hnext]
        exact ih.2

theorem isLiteral_literal (s : String) :
    IsLiteral '\'' (escaped s.toList) (Argument.literal s).toList :=
  ⟨by decide, (stays_escaped s.toList).1, (stays_escaped s.toList).2, toList_literal s⟩

/-! ## Code -/

/-- Code whose characters outside brackets and literals are in `p`, and whose literals stand for
strings in `held`. -/
inductive Code (held : String → Prop) : (p : Char → Bool) → List Char → Prop where
  | nil {p : Char → Bool} : Code held p []
  | char {p : Char → Bool} {c : Char} {cs : List Char} (plain : p c = true) (rest : Code held p cs) :
    Code held p (c :: cs)
  | literal {p : Char → Bool} {s : String} {cs : List Char} (holds : held s)
    (rest : Code held p cs) : Code held p ((Argument.literal s).toList ++ cs)
  | brackets {p : Char → Bool} {opening closing : Char} {inner cs : List Char}
    (pair : closerOf? opening = some closing) (inside : Code held isPlain inner)
    (rest : Code held p cs) : Code held p (opening :: (inner ++ closing :: cs))

namespace Code

variable {held : String → Prop} {p : Char → Bool}

theorem append {cs ds : List Char} (hcs : Code held p cs) (hds : Code held p ds) :
    Code held p (cs ++ ds) := by
  induction hcs with
  | nil => exact hds
  | char plain _ ih => exact .char plain (ih hds)
  | literal holds _ ih =>
    rw [List.append_assoc]
    exact .literal holds (ih hds)
  | brackets pair inside _ _ ih =>
    rw [List.cons_append, List.append_assoc, List.cons_append]
    exact .brackets pair inside (ih hds)

theorem of_all {cs : List Char} (h : ∀ c ∈ cs, p c = true) : Code held p cs := by
  induction cs with
  | nil => exact .nil
  | cons c cs ih =>
    exact .char (h c List.mem_cons_self) (ih fun d hd => h d (List.mem_cons_of_mem c hd))

/-- A wider class of characters. -/
theorem mono {q : Char → Bool} (hpq : ∀ c, p c = true → q c = true) {cs : List Char}
    (h : Code held p cs) : Code held q cs := by
  induction h with
  | nil => exact .nil
  | char plain _ ih => exact .char (hpq _ plain) (ih hpq)
  | literal holds _ ih => exact .literal holds (ih hpq)
  | brackets pair inside _ _ ih => exact .brackets pair inside (ih hpq)

/-! ## Scanning -/

/-- **Scanners pass over code.** Inside its brackets the depth is positive, so that a separator counts
only outside of them. -/
theorem inert {cs : List Char} (h : Code held p cs) (hp : ∀ c, p c = true → isPlain c = true)
    {sep : Char} (hquote : isQuote sep = false) (hsep : depthStep sep = 0) {least : Int}
    (hleast : 0 ≤ least) (hne : least ≤ 0 → ∀ c, p c = true → c ≠ sep) : Inert sep least cs := by
  induction h generalizing least with
  | nil => exact .nil
  | @char _ c cs plain _ ih =>
    have hc : Inert sep least [c] := .char (hp c plain) fun hzero => hne hzero c plain
    exact hc.append (ih hp hleast hne)
  | literal holds _ ih =>
    exact (Inert.literal hquote (isLiteral_literal _)).append (ih hp hleast hne)
  | @brackets _ opening closing inner cs pair inside _ ihInside ih =>
    have hgroup : Inert sep least (opening :: (inner ++ [closing])) :=
      .brackets hsep pair (ihInside (fun _ h => h) (by omega) fun hzero => by omega)
    have hall := hgroup.append (ih hp hleast hne)
    rwa [List.cons_append, List.append_assoc, List.singleton_append] at hall

/-- Code in brackets, where a separator does not count. -/
theorem inertInside {cs : List Char} (h : Code held isPlain cs) : Inert ';' 1 cs :=
  h.inert (fun _ => id) (by decide) (by decide) (by decide) fun hzero => absurd hzero (by decide)

/-- Code without separators. -/
theorem inertBut {sep : Char} {cs : List Char} (h : Code held (plainBut sep) cs)
    (hsep : isPlain sep = true) : Inert sep 0 cs :=
  h.inert (fun _ => isPlain_of_plainBut) (plainFacts hsep).quote (plainFacts hsep).depth
    (Int.le_refl 0) fun _ _ => ne_of_plainBut

end Code

end Crowsfoot.Builder
