import Crowsfoot.Naming.Convention
import Crowsfoot.Proofs.Text.LetterCase
import Mathlib.Data.List.Chain

/-!
# Snake case

Snake case has a normal form, in any script (`IsNormal`): lower case, no gaps, single underscores.

* `isNormal_snake`, `snake_eq_self_iff`: what snake case makes is in normal form, and what is in
  normal form it leaves alone, and nothing else. So it is settled after one step (`snake_snake`).
* `isSnake_snake`: the snake case of a name of ASCII letters, digits and underscores has small
  letters, digits and single underscores (`IsSnake`).
* `enclosed_snake`: no underscores are put at either end.

The steps that part words only put in underscores (`mem_of_steps`), and the last but one takes the
doubled ones away (`single_underscoreRuns`). Lower case makes separators of separators only
(`eq_of_mem_lowerChar`).
-/

namespace Crowsfoot.Naming

open Crowsfoot.Text

/-! ## Characters of names -/

/-- An ASCII letter, a digit or an underscore. -/
def isNameChar (c : Char) : Bool :=
  c.isAlphanum || c == '_'

/-- A small letter, a digit or an underscore. -/
def isSnakeChar (c : Char) : Bool :=
  isSmall c || c == '_'

theorem isAscii_of_isNameChar {c : Char} (h : isNameChar c = true) : isAscii c = true := by
  simp only [isNameChar, Char.isAlphanum, isAlpha_eq, isUpper_iff, isLower_iff, Char.isDigit,
    Bool.or_eq_true, Bool.and_eq_true, decide_eq_true_eq, beq_iff_eq, ge_iff_le,
    UInt32.le_iff_toNat_le] at h
  refine decide_eq_true ?_
  show c.val.toNat < 128
  rcases h with ((h | h) | h) | rfl
  · exact Nat.lt_of_le_of_lt h.2 (by decide)
  · exact Nat.lt_of_le_of_lt h.2 (by decide)
  · exact Nat.lt_of_le_of_lt h.2 (by decide)
  · decide

/-- What `snake` relies on, character by character. -/
theorem nameCharFacts {c : Char} (h : isNameChar c = true) :
    isWord c = true ∧ isGap c = false ∧ isBlank c = false ∧ isSnakeChar c.toLower = true
      ∧ (c.toLower = '_' ↔ c = '_') := by
  have hall : isNameChar c = true → isWord c = true ∧ isGap c = false ∧ isBlank c = false
      ∧ isSnakeChar c.toLower = true ∧ (c.toLower = '_' ↔ c = '_') :=
    forall_isAscii (P := fun c => isNameChar c = true → isWord c = true ∧ isGap c = false
      ∧ isBlank c = false ∧ isSnakeChar c.toLower = true ∧ (c.toLower = '_' ↔ c = '_'))
      (by decide) (isAscii_of_isNameChar h)
  exact hall h

theorem isNameChar_of_isSnakeChar {c : Char} (h : isSnakeChar c = true) : isNameChar c = true := by
  simp only [isSnakeChar, isSmall, isNameChar, Char.isAlphanum, isAlpha_eq,
    Bool.or_eq_true] at h ⊢
  rcases h with (h | h) | h
  · exact Or.inl (Or.inl (Or.inr h))
  · exact Or.inl (Or.inr h)
  · exact Or.inr h

theorem snakeCharFacts {c : Char} (h : isSnakeChar c = true) :
    c.isUpper = false ∧ c.toLower = c := by
  have hall : isSnakeChar c = true → c.isUpper = false ∧ c.toLower = c :=
    forall_isAscii (P := fun c => isSnakeChar c = true → c.isUpper = false ∧ c.toLower = c)
      (by decide) (isAscii_of_isNameChar (isNameChar_of_isSnakeChar h))
  exact hall h

/-! ## Underscores -/

section Underscores

variable {cs : List Char} {c : Char}

theorem splitHumps_cons (d : Char) (cs : List Char) :
    splitHumps (d :: cs) = d :: '_' :: splitHumps cs ∧ cs ≠ []
      ∨ splitHumps (d :: cs) = d :: splitHumps cs := by
  cases cs with
  | nil => exact Or.inr (by simp [splitHumps])
  | cons e cs =>
    rw [splitHumps]
    split
    · exact Or.inl ⟨rfl, List.cons_ne_nil e cs⟩
    · exact Or.inr rfl

theorem splitAcronyms_cons (d : Char) (cs : List Char) :
    splitAcronyms (d :: cs) = d :: '_' :: splitAcronyms cs ∧ cs ≠ []
      ∨ splitAcronyms (d :: cs) = d :: splitAcronyms cs := by
  cases cs with
  | nil => exact Or.inr (by simp [splitAcronyms, beginsWord])
  | cons e cs =>
    rw [splitAcronyms]
    split
    · exact Or.inl ⟨rfl, List.cons_ne_nil e cs⟩
    · exact Or.inr rfl

theorem beginsWord_cons (d : Char) (cs : List Char) :
    beginsWord (d :: cs) = (d.isUpper && cs.head?.any Char.isLower) := by
  cases cs with
  | nil => exact (Bool.and_false d.isUpper).symm
  | cons e cs => rfl

/-- A word begins with a capital. -/
theorem beginsWord_of_startsOutside (h : StartsOutside Char.isUpper cs) : beginsWord cs = false := by
  cases cs with
  | nil => rfl
  | cons d cs => rw [beginsWord_cons, startsOutside_cons.mp h, Bool.false_and]

/-- A step that only puts in underscores has no other characters than the text. -/
theorem mem_of_steps {f : List Char → List Char} (hnil : f [] = [])
    (hcons : ∀ d cs, f (d :: cs) = d :: '_' :: f cs ∧ cs ≠ [] ∨ f (d :: cs) = d :: f cs)
    (h : c ∈ f cs) : c ∈ cs ∨ c = '_' := by
  induction cs with
  | nil => exact absurd h (by simp [hnil])
  | cons d cs ih =>
    have hrest : c ∈ f cs → c ∈ d :: cs ∨ c = '_' :=
      fun h => (ih h).imp_left (List.mem_cons_of_mem d)
    rcases hcons d cs with ⟨heq, -⟩ | heq <;> rw [heq] at h
    · rcases List.mem_cons.mp h with rfl | h
      · exact Or.inl List.mem_cons_self
      · rcases List.mem_cons.mp h with rfl | h
        · exact Or.inr rfl
        · exact hrest h
    · rcases List.mem_cons.mp h with rfl | h
      · exact Or.inl List.mem_cons_self
      · exact hrest h

theorem mem_splitHumps (h : c ∈ splitHumps cs) : c ∈ cs ∨ c = '_' :=
  mem_of_steps rfl splitHumps_cons h

theorem mem_splitAcronyms (h : c ∈ splitAcronyms cs) : c ∈ cs ∨ c = '_' :=
  mem_of_steps rfl splitAcronyms_cons h

/-- Beside underscores, only what is in no run is left. -/
theorem mem_underscoreRuns {p : Char → Bool} (h : c ∈ underscoreRuns p cs) :
    c ∈ cs ∧ p c = false ∨ c = '_' := by
  induction cs with
  | nil => exact absurd h (by simp [underscoreRuns])
  | cons d cs ih =>
    have hrest : c ∈ underscoreRuns p cs → c ∈ d :: cs ∧ p c = false ∨ c = '_' :=
      fun h => (ih h).imp_left (And.imp_left (List.mem_cons_of_mem d))
    rw [underscoreRuns] at h
    split at h
    · split at h
      · exact hrest h
      · rcases List.mem_cons.mp h with rfl | h
        · exact Or.inr rfl
        · exact hrest h
    · rename_i hd
      rcases List.mem_cons.mp h with rfl | h
      · exact Or.inl ⟨List.mem_cons_self, eq_false_of_ne_true hd⟩
      · exact hrest h

/-! ### Both ends -/

/-- The text begins and ends with something else than an underscore. -/
structure Enclosed (cs : List Char) : Prop where
  starts : StartsOutside (· == '_') cs
  ends : EndsOutside (· == '_') cs

/-- A step that puts underscores only between characters keeps the first one. -/
theorem head?_of_steps {f : List Char → List Char} (hnil : f [] = [])
    (hcons : ∀ d cs, f (d :: cs) = d :: '_' :: f cs ∧ cs ≠ [] ∨ f (d :: cs) = d :: f cs)
    (cs : List Char) : (f cs).head? = cs.head? := by
  cases cs with
  | nil => rw [hnil]
  | cons d cs => rcases hcons d cs with ⟨heq, -⟩ | heq <;> rw [heq] <;> rfl

/-- Such a step keeps the last one. -/
theorem getLast?_of_steps {f : List Char → List Char} (hnil : f [] = [])
    (hcons : ∀ d cs, f (d :: cs) = d :: '_' :: f cs ∧ cs ≠ [] ∨ f (d :: cs) = d :: f cs)
    (cs : List Char) : (f cs).getLast? = cs.getLast? := by
  have hne : ∀ cs, cs ≠ [] → f cs ≠ [] := by
    intro cs hcs
    obtain ⟨d, ds, rfl⟩ := List.exists_cons_of_ne_nil hcs
    rcases hcons d ds with ⟨heq, -⟩ | heq <;> rw [heq] <;> exact List.cons_ne_nil _ _
  have hlong : ∀ x : List Char, x ≠ [] → ∀ e, (e :: x).getLast? = x.getLast? := by
    intro x hx e
    obtain ⟨y, ys, rfl⟩ := List.exists_cons_of_ne_nil hx
    exact List.getLast?_cons_cons
  induction cs with
  | nil => rw [hnil]
  | cons d cs ih =>
    by_cases hcs : cs = []
    · subst hcs
      rcases hcons d [] with ⟨-, hempty⟩ | heq
      · exact absurd rfl hempty
      · rw [heq, hnil]
    · rcases hcons d cs with ⟨heq, -⟩ | heq
      · rw [heq, hlong _ (List.cons_ne_nil _ _), hlong _ (hne cs hcs), ih, hlong cs hcs]
      · rw [heq, hlong _ (hne cs hcs), ih, hlong cs hcs]

/-- A step that puts underscores only between characters keeps the ends. -/
theorem enclosed_of_steps {f : List Char → List Char} (hnil : f [] = [])
    (hcons : ∀ d cs, f (d :: cs) = d :: '_' :: f cs ∧ cs ≠ [] ∨ f (d :: cs) = d :: f cs)
    (h : Enclosed cs) : Enclosed (f cs) := by
  constructor
  · intro d hd
    rw [head?_of_steps hnil hcons] at hd
    exact h.starts d hd
  · intro d hd
    rw [getLast?_of_steps hnil hcons] at hd
    exact h.ends d hd

theorem underscoreRuns_eq_self {p : Char → Bool} (h : ∀ c ∈ cs, p c = false) :
    underscoreRuns p cs = cs := by
  induction cs with
  | nil => rfl
  | cons d cs ih =>
    unfold underscoreRuns
    rw [h d List.mem_cons_self, if_neg Bool.false_ne_true,
      ih fun c hc => h c (List.mem_cons_of_mem d hc)]

theorem splitHumps_eq_self (h : ∀ c ∈ cs, c.isUpper = false) : splitHumps cs = cs := by
  induction cs with
  | nil => rfl
  | cons d cs ih =>
    have hrest : ∀ c ∈ cs, c.isUpper = false := fun c hc => h c (List.mem_cons_of_mem d hc)
    have hnext : cs.head?.any Char.isUpper = false := by
      cases cs with
      | nil => rfl
      | cons e cs => exact hrest e List.mem_cons_self
    unfold splitHumps
    rw [hnext, Bool.and_false, if_neg Bool.false_ne_true, ih hrest]

theorem splitAcronyms_eq_self (h : ∀ c ∈ cs, c.isUpper = false) : splitAcronyms cs = cs := by
  induction cs with
  | nil => rfl
  | cons d cs ih =>
    unfold splitAcronyms
    rw [h d List.mem_cons_self, Bool.false_and, if_neg Bool.false_ne_true,
      ih fun c hc => h c (List.mem_cons_of_mem d hc)]

/-- No two underscores stand side by side. -/
def Single (cs : List Char) : Prop :=
  cs.IsChain fun a b => ¬(a = '_' ∧ b = '_')

theorem Single.append {as bs : List Char} (hbs : Single bs) (has : '_' ∉ as) :
    Single (as ++ bs) := by
  induction as with
  | nil => exact hbs
  | cons a as ih =>
    rw [List.mem_cons, not_or] at has
    exact List.isChain_cons.mpr ⟨fun _ _ hboth => has.1 hboth.1.symm, ih has.2⟩

theorem head?_underscoreRuns {p : Char → Bool} (h : StartsOutside p cs) :
    (underscoreRuns p cs).head? = cs.head? := by
  cases cs with
  | nil => rfl
  | cons d cs =>
    unfold underscoreRuns
    rw [startsOutside_cons.mp h, if_neg Bool.false_ne_true]
    rfl

/-- Runs of underscores are gone afterwards. -/
theorem single_underscoreRuns (cs : List Char) : Single (underscoreRuns (· == '_') cs) := by
  induction cs with
  | nil => exact List.IsChain.nil
  | cons d cs ih =>
    unfold underscoreRuns
    by_cases hd : (d == '_') = true
    · by_cases hnext : cs.head?.any (· == '_') = true
      · rw [if_pos hd, if_pos hnext]
        exact ih
      · rw [if_pos hd, if_neg hnext]
        have hstart : StartsOutside (· == '_') cs := by
          intro c hc
          rw [Option.mem_def.mp hc] at hnext
          simpa using hnext
        refine List.isChain_cons.mpr ⟨?_, ih⟩
        intro e he hboth
        rw [head?_underscoreRuns hstart] at he
        have := hstart e he
        exact absurd hboth.2 (by simpa using this)
    · rw [if_neg hd]
      refine List.isChain_cons.mpr ⟨?_, ih⟩
      intro e _ hboth
      exact hd (by simpa using hboth.1)

theorem underscoreRuns_of_single (h : Single cs) : underscoreRuns (· == '_') cs = cs := by
  induction cs with
  | nil => rfl
  | cons d cs ih =>
    obtain ⟨hnext, hrest⟩ := List.isChain_cons.mp h
    unfold underscoreRuns
    by_cases hd : d = '_'
    · have hother : cs.head?.any (· == '_') = false := by
        cases cs with
        | nil => rfl
        | cons e cs =>
          have : e ≠ '_' := fun he => hnext e rfl ⟨hd, he⟩
          simpa using this
      rw [if_pos (by simpa using hd), hother, if_neg Bool.false_ne_true, ih hrest, hd]
    · rw [if_neg (by simpa using hd), ih hrest]

theorem getLast?_underscoreRuns (cs : List Char) :
    (underscoreRuns (· == '_') cs).getLast? = cs.getLast? := by
  induction cs with
  | nil => rfl
  | cons d cs ih =>
    cases cs with
    | nil =>
      unfold underscoreRuns
      split
      · rename_i hd
        rw [eq_of_beq hd]
        rfl
      · rfl
    | cons e cs =>
      have hlong :
          ∀ x, (x :: underscoreRuns (· == '_') (e :: cs)).getLast? = (e :: cs).getLast? := by
        intro x
        cases hruns : underscoreRuns (· == '_') (e :: cs) with
        | nil =>
          rw [hruns] at ih
          exact absurd ih.symm (by simp)
        | cons y ys => rw [List.getLast?_cons_cons, ← hruns, ih]
      rw [underscoreRuns, List.getLast?_cons_cons]
      split
      · split
        · exact ih
        · exact hlong '_'
      · exact hlong d

theorem enclosed_underscoreRuns (h : Enclosed cs) : Enclosed (underscoreRuns (· == '_') cs) := by
  constructor
  · intro c hc
    rw [head?_underscoreRuns h.starts] at hc
    exact h.starts c hc
  · intro c hc
    rw [getLast?_underscoreRuns] at hc
    exact h.ends c hc

end Underscores

/-! ## Normal form -/

/-- The underscores of a name in snake case, before it is put in lower case. -/
def underscored (cs : List Char) : List Char :=
  underscoreRuns (· == '_') (splitAcronyms (splitHumps cs))

theorem mem_of_mem_underscored {c : Char} {cs : List Char} (h : c ∈ underscored cs) :
    c ∈ cs ∨ c = '_' := by
  rcases mem_underscoreRuns h with ⟨h, -⟩ | h
  · rcases mem_splitAcronyms h with h | h
    · exact mem_splitHumps h
    · exact Or.inr h
  · exact Or.inr h

/-- Snake case takes out the gaps, parts the words and puts all in lower case. -/
theorem toList_snake_eq (name : String) :
    (snake name).toList = lower (underscored (underscoreRuns isGap (trim name.toList))) :=
  String.toList_ofList

/-- A name without gaps needs no trimming. -/
theorem toList_snake_of_gapless {name : String} (h : ∀ c ∈ name.toList, isGap c = false) :
    (snake name).toList = lower (underscored name.toList) := by
  have hblank : ∀ c ∈ name.toList, isBlank c = false :=
    fun c hc => (Bool.or_eq_false_iff.mp (h c hc)).1
  have htrim : trim name.toList = name.toList :=
    strip_eq_self (startsOutside_of_all hblank) (endsOutside_of_all hblank)
  rw [toList_snake_eq, htrim, underscoreRuns_eq_self h]

/-- What is put in lower case stands in the name and is no gap, or is an underscore. -/
theorem mem_beforeLower {c : Char} {cs : List Char}
    (h : c ∈ underscored (underscoreRuns isGap (trim cs))) :
    c ∈ cs ∧ isGap c = false ∨ c = '_' := by
  rcases mem_of_mem_underscored h with h | h
  · exact (mem_underscoreRuns h).imp_left (And.imp_left mem_of_mem_strip)
  · exact Or.inr h

theorem toNat_mem_separatorPoints {c : Char} (h : isGap c = true ∨ c = '_') :
    c.toNat ∈ separatorPoints := by
  rcases h with h | rfl
  · rcases Bool.or_eq_true_iff.mp h with h | h
    · exact List.mem_cons_of_mem _ (List.mem_cons_of_mem _ (toNat_mem_blankPoints h))
    · rw [beq_iff_eq.mp h]
      exact List.mem_cons_self
  · decide

/-- Lower case makes no gaps. -/
theorem isGap_lowerChar {c : Char} (h : isGap c = false) : ∀ d ∈ lowerChar c, isGap d = false := by
  intro d hd
  rw [← Bool.not_eq_true]
  intro hgap
  rw [eq_of_mem_lowerChar (toNat_mem_separatorPoints (Or.inl hgap)) hd, h] at hgap
  exact Bool.false_ne_true hgap

/-- Single underscores stay single in lower case. -/
theorem single_lower {cs : List Char} (hsingle : Single cs) : Single (lower cs) := by
  have hunder : '_'.toNat ∈ separatorPoints := by decide
  unfold lower
  generalize false = follows
  induction cs generalizing follows with
  | nil => exact List.IsChain.nil
  | cons c cs ih =>
    obtain ⟨hnext, hrest⟩ := List.isChain_cons.mp hsingle
    by_cases hc : c = '_'
    · subst hc
      have hstays : lowerAfter follows ('_' :: cs)
          = '_' :: lowerAfter (if isCaseIgnorable '_' then follows else isCased '_') cs := rfl
      rw [hstays]
      refine List.isChain_cons.mpr ⟨?_, ih hrest _⟩
      cases cs with
      | nil => exact fun e he => nomatch he
      | cons d cs =>
        obtain ⟨e, es, _, heq, hfrom⟩ := lowerAfter_cons
          (if isCaseIgnorable '_' then follows else isCased '_') d cs
        rw [heq]
        rintro _ he ⟨-, rfl⟩
        obtain rfl : e = '_' := Option.some.inj he
        -- it is the lower case of an underscore only
        exact hnext d rfl ⟨rfl, (hfrom '_' List.mem_cons_self hunder).symm⟩
    · obtain ⟨d, ds, follows', heq, hfrom⟩ := lowerAfter_cons follows c cs
      rw [heq]
      exact (ih hrest follows').append fun hmem => hc (hfrom '_' hmem hunder).symm

/-- Lower case, no blanks or hyphens, and no two underscores side by side. -/
structure IsNormal (cs : List Char) : Prop where
  lower : ∀ c ∈ cs, lowerChar c = [c]
  gapless : ∀ c ∈ cs, isGap c = false
  single : Single cs

section Normal

variable {c : Char} {name : String}

theorem lowerChar_of_mem_snake (h : c ∈ (snake name).toList) : lowerChar c = [c] := by
  rw [toList_snake_eq] at h
  exact lowerChar_of_mem_lower h

/-- **What snake case makes is in normal form.** -/
theorem isNormal_snake (name : String) : IsNormal (snake name).toList := by
  refine ⟨fun c hc => lowerChar_of_mem_snake hc, ?_, ?_⟩ <;> rw [toList_snake_eq]
  · refine forall_mem_lower (by decide) (fun c => isGap_lowerChar) fun c hc => ?_
    rcases mem_beforeLower hc with ⟨-, hgap⟩ | rfl
    · exact hgap
    · decide
  · exact single_lower (single_underscoreRuns _)

/-- **Snake case leaves alone what is in normal form**, and nothing else. -/
theorem snake_eq_self_iff : snake name = name ↔ IsNormal name.toList := by
  refine ⟨fun h => h ▸ isNormal_snake name, fun h => ?_⟩
  have hupper : ∀ c ∈ name.toList, c.isUpper = false :=
    fun c hc => isUpper_of_lowerChar_eq (h.lower c hc)
  apply String.toList_inj.mp
  rw [toList_snake_of_gapless h.gapless]
  unfold underscored
  rw [splitHumps_eq_self hupper, splitAcronyms_eq_self hupper, underscoreRuns_of_single h.single,
    lower_eq_self h.lower]

/-- **Snake case is settled after one step.** -/
theorem snake_snake (name : String) : snake (snake name) = snake name :=
  snake_eq_self_iff.mpr (isNormal_snake name)

end Normal

/-! ## Names of ASCII characters -/

/-- Small letters, digits and single underscores. -/
structure IsSnake (cs : List Char) : Prop where
  chars : ∀ c ∈ cs, isSnakeChar c = true
  single : Single cs

section Snake

variable {s : String}

theorem isNameChar_of_mem_underscored {cs : List Char} (h : ∀ c ∈ cs, isNameChar c = true) :
    ∀ c ∈ underscored cs, isNameChar c = true := by
  intro c hc
  rcases mem_of_mem_underscored hc with hc | rfl
  · exact h c hc
  · decide

/-- A name of ASCII characters needs no trimming. -/
theorem toList_snake (h : ∀ c ∈ s.toList, isNameChar c = true) :
    (snake s).toList = (underscored s.toList).map Char.toLower := by
  rw [toList_snake_of_gapless fun c hc => (nameCharFacts (h c hc)).2.1]
  apply lower_of_isAscii
  exact fun c hc => isAscii_of_isNameChar (isNameChar_of_mem_underscored h c hc)

/-- **The snake case of a name is in snake case.** -/
theorem isSnake_snake (h : ∀ c ∈ s.toList, isNameChar c = true) : IsSnake (snake s).toList := by
  refine ⟨fun c hc => ?_, (isNormal_snake s).single⟩
  rw [toList_snake h] at hc
  obtain ⟨d, hd, rfl⟩ := List.mem_map.mp hc
  exact (nameCharFacts (isNameChar_of_mem_underscored h d hd)).2.2.2.1

theorem IsSnake.isNormal {cs : List Char} (h : IsSnake cs) : IsNormal cs := by
  have hname : ∀ c ∈ cs, isNameChar c = true :=
    fun c hc => isNameChar_of_isSnakeChar (h.chars c hc)
  refine ⟨fun c hc => ?_, fun c hc => (nameCharFacts (hname c hc)).2.1, h.single⟩
  unfold lowerChar
  rw [if_pos (isAscii_of_isNameChar (hname c hc)), (snakeCharFacts (h.chars c hc)).2]

/-- **A name in snake case stays as it is.** -/
theorem snake_eq_self (h : IsSnake s.toList) : snake s = s :=
  snake_eq_self_iff.mpr h.isNormal

/-- What encloses a name encloses its snake case. -/
theorem enclosed_snake (h : ∀ c ∈ s.toList, isNameChar c = true) (henclosed : Enclosed s.toList) :
    Enclosed (snake s).toList := by
  have hchars := isNameChar_of_mem_underscored h
  have hunder : Enclosed (underscored s.toList) :=
    enclosed_underscoreRuns (enclosed_of_steps rfl splitAcronyms_cons
      (enclosed_of_steps rfl splitHumps_cons henclosed))
  have hlow : ∀ c ∈ underscored s.toList, (c == '_') = false → (c.toLower == '_') = false := by
    intro c hc hne
    have := (nameCharFacts (hchars c hc)).2.2.2.2
    simpa [this] using hne
  rw [toList_snake h]
  constructor
  · intro c hc
    rw [List.head?_map] at hc
    obtain ⟨d, hd, rfl⟩ := Option.map_eq_some_iff.mp hc
    exact hlow d (List.mem_of_mem_head? hd) (hunder.starts d hd)
  · intro c hc
    rw [List.getLast?_map] at hc
    obtain ⟨d, hd, rfl⟩ := Option.map_eq_some_iff.mp hc
    exact hlow d (List.mem_of_getLast? hd) (hunder.ends d hd)

theorem underscoreRuns_ne_nil {p : Char → Bool} {cs : List Char} (h : cs ≠ []) :
    underscoreRuns p cs ≠ [] := by
  induction cs with
  | nil => exact absurd rfl h
  | cons d cs ih =>
    unfold underscoreRuns
    split
    · split
      · refine ih ?_
        rintro rfl
        rename_i hnext
        exact absurd hnext (by simp)
      · exact List.cons_ne_nil _ _
    · exact List.cons_ne_nil _ _

theorem underscored_ne_nil {cs : List Char} (h : cs ≠ []) : underscored cs ≠ [] := by
  obtain ⟨d, rest, rfl⟩ := List.exists_cons_of_ne_nil h
  have hhumps : splitHumps (d :: rest) ≠ [] := by
    rcases splitHumps_cons d rest with ⟨heq, -⟩ | heq <;> rw [heq] <;> exact List.cons_ne_nil _ _
  obtain ⟨e, ds, hds⟩ := List.exists_cons_of_ne_nil hhumps
  have hacronyms : splitAcronyms (splitHumps (d :: rest)) ≠ [] := by
    rw [hds]
    rcases splitAcronyms_cons e ds with ⟨heq, -⟩ | heq <;> rw [heq] <;> exact List.cons_ne_nil _ _
  exact underscoreRuns_ne_nil hacronyms

/-- A name stays a name. -/
theorem snake_ne_empty (h : ∀ c ∈ s.toList, isNameChar c = true) (hne : s.toList ≠ []) :
    (snake s).toList ≠ [] := by
  rw [toList_snake h, ne_eq, List.map_eq_nil_iff]
  exact underscored_ne_nil hne

theorem IsSnake.isName (h : IsSnake s.toList) (hne : s.toList ≠ []) : IsName s :=
  ⟨hne, fun c hc => (nameCharFacts (isNameChar_of_isSnakeChar (h.chars c hc))).1⟩

end Snake

end Crowsfoot.Naming
