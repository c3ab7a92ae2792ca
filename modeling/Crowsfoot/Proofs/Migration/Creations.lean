import Crowsfoot.Migration.File
import Crowsfoot.Proofs.Builder.Chains

/-!
# Finding the creation of a table

A migration is searched for creations at every position, also within literals. `Silent` texts are
those in which no creation begins, whatever follows them:

* `silent_of_quiet`: a fixed text is checked position by position;
* `creationsWhere_code`: in generated code none begins that counts, if none does in its literals. The
  word that begins a creation has two colons and generated code has none outside its literals.

Which creations count can depend on where they begin (`creationsWhere`): all of them, as for the
search (`creationsIn_eq`), or only those in code.
-/

namespace Crowsfoot.Migration

open Crowsfoot.Builder Crowsfoot.Text

/-- No creation begins in a text, whatever follows it. -/
def Silent (cs : List Char) : Prop :=
  ∀ rest, creationsIn (cs ++ rest) = creationsIn rest

theorem silent_nil : Silent [] :=
  fun _ => rfl

theorem creation?_eq_none {cs : List Char} (h : ¬ creationWord.toList <+: cs) :
    creation? cs = none := by
  have hafter : after? creationWord.toList cs = none := by
    cases ha : after? creationWord.toList cs with
    | none => rfl
    | some rest => exact absurd ⟨rest, (eq_append_of_after? ha).symm⟩ h
  unfold creation? creationHead?
  rw [hafter]
  rfl

theorem creationsIn_cons {c : Char} {rest : List Char}
    (h : ¬ creationWord.toList <+: c :: rest) : creationsIn (c :: rest) = creationsIn rest := by
  rw [creationsIn, creation?_eq_none h]
  rfl

theorem not_prefix_of_ne {c : Char} (h : c ≠ 'S') (rest : List Char) :
    ¬ creationWord.toList <+: c :: rest :=
  fun hp => h (List.cons_prefix_cons.mp (show 'S' :: _ <+: _ from hp)).1.symm

/-- No creation begins with a character other than its first. -/
theorem creationsIn_cons_of_ne {c : Char} (h : c ≠ 'S') (rest : List Char) :
    creationsIn (c :: rest) = creationsIn rest :=
  creationsIn_cons (not_prefix_of_ne h rest)

/-! ## Where creations begin -/

/-- The creations in a text that begin where the quoting counts. -/
def creationsWhere (counts : Quoting → Bool) : Quoting → List Char → List Creation
  | _, [] => []
  | q, c :: rest =>
    (if counts q then (creation? (c :: rest)).toList else []) ++ creationsWhere counts (q.next c) rest

section Counting

variable {counts : Quoting → Bool}

/-- A text is searched at every position. -/
theorem creationsIn_eq (q : Quoting) (cs : List Char) :
    creationsIn cs = creationsWhere (fun _ => true) q cs := by
  induction cs generalizing q with
  | nil => rfl
  | cons c cs ih => exact congrArg (_ ++ ·) (ih (q.next c))

theorem creationsWhere_cons {c : Char} {rest : List Char}
    (h : ¬ creationWord.toList <+: c :: rest) (q : Quoting) :
    creationsWhere counts q (c :: rest) = creationsWhere counts (q.next c) rest := by
  rw [creationsWhere, creation?_eq_none h]
  split <;> rfl

theorem creationsWhere_cons_of_ne {c : Char} (h : c ≠ 'S') (q : Quoting) (rest : List Char) :
    creationsWhere counts q (c :: rest) = creationsWhere counts (q.next c) rest :=
  creationsWhere_cons (not_prefix_of_ne h rest) q

theorem suffix_creationsIn (cs rest : List Char) :
    creationsIn rest <:+ creationsIn (cs ++ rest) := by
  induction cs with
  | nil => exact List.suffix_refl _
  | cons c cs ih => exact ih.trans (List.suffix_append _ _)

/-- Where no creation begins, none counts. -/
theorem Silent.creationsWhere {cs : List Char} (h : Silent cs) (q : Quoting) (rest : List Char) :
    Migration.creationsWhere counts q (cs ++ rest)
      = Migration.creationsWhere counts (q.after cs) rest := by
  have hrest := h rest
  clear h
  induction cs generalizing q with
  | nil => rfl
  | cons c cs ih =>
    rw [List.cons_append, creationsIn] at hrest
    obtain ⟨more, hmore⟩ := suffix_creationsIn cs rest
    rw [← hmore, ← List.append_assoc, List.append_left_eq_self] at hrest
    obtain ⟨hhere, rfl⟩ := List.append_eq_nil_iff.mp hrest
    rw [List.cons_append, Migration.creationsWhere, hhere, ih (q.next c) hmore.symm]
    split <;> rfl

/-- No creation that counts begins in the literal of a string. -/
def Skips (counts : Quoting → Bool) (s : String) : Prop :=
  ∀ rest, creationsWhere counts .code ((Argument.literal s).toList ++ rest)
    = creationsWhere counts .code rest

end Counting

/-! ## Fixed texts -/

/-- No position of a text begins the word, be it that the text ends within it. -/
def quiet : List Char → Bool
  | [] => true
  | c :: cs =>
    !creationWord.toList.isPrefixOf (c :: cs) && !(c :: cs).isPrefixOf creationWord.toList
      && quiet cs

theorem silent_of_quiet {cs : List Char} (h : quiet cs = true) : Silent cs := by
  induction cs with
  | nil => exact silent_nil
  | cons c cs ih =>
    simp only [quiet, Bool.and_eq_true, Bool.not_eq_true', List.isPrefixOf_iff_prefix,
      Bool.eq_false_iff, ne_eq] at h
    obtain ⟨⟨hword, hpart⟩, hrest⟩ := h
    intro rest
    have hhere : ¬ creationWord.toList <+: c :: (cs ++ rest) := by
      intro hp
      rcases List.prefix_or_prefix_of_prefix hp (List.prefix_append (c :: cs) rest) with h | h
      · exact hword h
      · exact hpart h
    rw [List.cons_append, creationsIn_cons hhere, ih hrest]

/-! ## Generated code -/

/-- The word that begins a creation is not in a string. -/
def Unmarked (s : String) : Prop :=
  ¬ creationWord.toList <:+: s.toList

instance (s : String) : Decidable (Unmarked s) :=
  inferInstanceAs (Decidable (¬ creationWord.toList <:+: s.toList))

/-- What begins the inside of a literal begins its string, if it needs no backslash. -/
theorem prefix_of_prefix_escaped {word cs rest : List Char} (hquote : '\'' ∉ word)
    (hslash : '\\' ∉ word) (h : word <+: escaped cs ++ '\'' :: rest) : word <+: cs := by
  induction word generalizing cs with
  | nil => exact List.nil_prefix
  | cons d word ih =>
    rw [List.mem_cons, not_or] at hquote hslash
    cases cs with
    | nil => exact absurd (List.cons_prefix_cons.mp h).1.symm hquote.1
    | cons c cs =>
      rcases escaped_cons c cs with ⟨he, -⟩ | ⟨he, -, -⟩
      · rw [he] at h
        exact absurd (List.cons_prefix_cons.mp h).1.symm hslash.1
      · rw [he] at h
        obtain ⟨rfl, htail⟩ := List.cons_prefix_cons.mp h
        exact List.cons_prefix_cons.mpr ⟨rfl, ih hquote.2 hslash.2 htail⟩

theorem creationsIn_escaped {cs : List Char} (h : ¬ creationWord.toList <:+: cs)
    (rest : List Char) :
    creationsIn (escaped cs ++ '\'' :: rest) = creationsIn ('\'' :: rest) := by
  induction cs with
  | nil => rfl
  | cons c cs ih =>
    have hrest : ¬ creationWord.toList <:+: cs := fun hi => h (List.infix_cons hi)
    rcases escaped_cons c cs with ⟨he, hc⟩ | ⟨he, -, -⟩
    · have hS : c ≠ 'S' := by rcases hc with rfl | rfl <;> decide
      rw [he, List.cons_append, List.cons_append, creationsIn_cons_of_ne (by decide),
        creationsIn_cons_of_ne hS, ih hrest]
    · have hhere : ¬ creationWord.toList <+: c :: (escaped cs ++ '\'' :: rest) := by
        intro hp
        rw [← List.cons_append, ← he] at hp
        exact h (prefix_of_prefix_escaped (by decide) (by decide) hp).isInfix
      rw [he, List.cons_append, creationsIn_cons hhere, ih hrest]

theorem creationsIn_literal {s : String} (h : Unmarked s) (rest : List Char) :
    creationsIn ((Argument.literal s).toList ++ rest) = creationsIn rest := by
  rw [toList_literal, List.cons_append, List.append_assoc, List.singleton_append,
    creationsIn_cons_of_ne (by decide), creationsIn_escaped h, creationsIn_cons_of_ne (by decide)]

theorem after_literal (s : String) : Quoting.code.after (Argument.literal s).toList = .code := by
  rw [toList_literal, Quoting.after, List.foldl_cons, List.foldl_append]
  show Quoting.next ((Quoting.literal '\'').after (escaped s.toList)) '\'' = .code
  rw [(stays_escaped s.toList).2]
  rfl

theorem skips_of_unmarked {counts : Quoting → Bool} {s : String} (h : Unmarked s) :
    Skips counts s := by
  have hsilent : Silent (Argument.literal s).toList := creationsIn_literal h
  intro rest
  rw [hsilent.creationsWhere, after_literal]

/-- Within literals nothing counts that has to be in code. -/
theorem creationsWhere_stays {counts : Quoting → Bool} (hcounts : ∀ q, counts q = true → q = .code)
    {q : Quoting} {cs : List Char} (h : q.Stays cs) (rest : List Char) :
    creationsWhere counts q (cs ++ rest) = creationsWhere counts (q.after cs) rest := by
  induction cs generalizing q with
  | nil => rfl
  | cons c cs ih =>
    rw [List.cons_append, creationsWhere, if_neg (mt (hcounts q) h.1), ih h.2]
    rfl

theorem skips_of_code {counts : Quoting → Bool} (hcounts : ∀ q, counts q = true → q = .code)
    (s : String) : Skips counts s := by
  intro rest
  rw [toList_literal, List.cons_append, List.append_assoc, List.singleton_append,
    creationsWhere_cons_of_ne (by decide)]
  show creationsWhere counts (.literal '\'') (escaped s.toList ++ '\'' :: rest) = _
  rw [creationsWhere_stays hcounts (stays_escaped s.toList).1, (stays_escaped s.toList).2,
    creationsWhere_cons_of_ne (by decide)]
  rfl

/-- A part of the word that begins with its bracket has no colon. -/
theorem colon_not_mem_of_bracket {part : List Char} (h : part <:+ creationWord.toList)
    (hhead : part.head? = some '(') : ':' ∉ part := by
  have hdrop : ∀ k, k < 16 → (creationWord.toList.drop k).head? = some '(' →
      ':' ∉ creationWord.toList.drop k := by decide
  have hpart := List.suffix_iff_eq_drop.mp h
  have hlength : creationWord.toList.length = 15 := by decide
  rw [hpart] at hhead ⊢
  exact hdrop _ (by omega) hhead

/-- Of the brackets, the word has only the opening round one. -/
theorem brackets_not_in_word {opening closing : Char} (pair : closerOf? opening = some closing) :
    opening ≠ 'S' ∧ closing ∉ creationWord.toList
      ∧ (opening ∈ creationWord.toList → opening = '(') := by
  rcases closerOf?_cases pair with ⟨rfl, rfl⟩ | ⟨rfl, rfl⟩ | ⟨rfl, rfl⟩ <;> decide

/-- The rest of the word from before its colons on does not begin in code. -/
theorem not_prefix_code {held : String → Prop} {p : Char → Bool} {cs : List Char}
    (h : Code held p cs) (hp : ∀ c, p c = true → isPlain c = true) {part : List Char}
    (hpart : part <:+ creationWord.toList) (hcolon : ':' ∈ part) {stop : Char}
    (hstop : stop ∉ creationWord.toList) (rest : List Char) : ¬ part <+: cs ++ stop :: rest := by
  induction h generalizing part rest with
  | nil =>
    intro hpre
    cases part with
    | nil => exact absurd hcolon (by simp)
    | cons d part =>
      obtain ⟨rfl, -⟩ := List.cons_prefix_cons.mp hpre
      exact hstop (hpart.subset List.mem_cons_self)
  | @char _ c cs plain _ ih =>
    intro hpre
    cases part with
    | nil => exact absurd hcolon (by simp)
    | cons d part =>
      obtain ⟨rfl, htail⟩ := List.cons_prefix_cons.mp hpre
      have hne : ':' ≠ d := (plainFacts (hp d plain)).colon.symm
      have hmore : ':' ∈ part := (List.mem_cons.mp hcolon).resolve_left hne
      exact ih hp ((List.suffix_cons d part).trans hpart) hmore rest htail
  | @literal _ s cs _ _ ih =>
    intro hpre
    rw [toList_literal] at hpre
    cases part with
    | nil => exact absurd hcolon (by simp)
    | cons d part =>
      obtain ⟨rfl, -⟩ := List.cons_prefix_cons.mp hpre
      exact absurd (hpart.subset List.mem_cons_self) (by decide)
  | @brackets _ opening closing inner cs pair _ _ _ _ =>
    intro hpre
    cases part with
    | nil => exact absurd hcolon (by simp)
    | cons d part =>
      obtain ⟨rfl, -⟩ := List.cons_prefix_cons.mp hpre
      have hround : d = '(' :=
        (brackets_not_in_word pair).2.2 (hpart.subset List.mem_cons_self)
      exact colon_not_mem_of_bracket hpart (by rw [hround]; rfl) hcolon

/-- **No creation that counts begins in generated code**, where none does in its literals and
something outside the word ends it. -/
theorem creationsWhere_code {counts : Quoting → Bool} {held : String → Prop}
    (hskips : ∀ s, held s → Skips counts s) {p : Char → Bool} {cs : List Char} (h : Code held p cs)
    (hp : ∀ c, p c = true → isPlain c = true) {stop : Char} (hstop : stop ∉ creationWord.toList)
    (rest : List Char) :
    creationsWhere counts .code (cs ++ stop :: rest) = creationsWhere counts .code (stop :: rest) := by
  induction h generalizing stop rest with
  | nil => rfl
  | @char _ c cs plain hrest ih =>
    have hhere := not_prefix_code (.char plain hrest) hp (List.suffix_refl _) (by decide) hstop rest
    rw [List.cons_append] at hhere ⊢
    rw [creationsWhere_cons hhere, next_of_not_quote (plainFacts (hp c plain)).quote,
      ih hp hstop]
  | literal holds _ ih =>
    rw [List.append_assoc, hskips _ holds, ih hp hstop]
  | @brackets _ opening closing inner cs pair _ _ ihInside ih =>
    obtain ⟨hopening, hclosing, -⟩ := brackets_not_in_word pair
    have hS : closing ≠ 'S' := by
      rintro rfl
      exact hclosing (by decide)
    rw [List.cons_append, List.append_assoc, List.cons_append, creationsWhere_cons_of_ne hopening,
      next_of_not_quote (pairFacts pair).openingQuote, ihInside (fun _ h => h) hclosing,
      creationsWhere_cons_of_ne hS, next_of_not_quote (pairFacts pair).closingQuote, ih hp hstop]

end Crowsfoot.Migration
