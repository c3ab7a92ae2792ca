import Crowsfoot.Proofs.Diagram.LineForms

/-!
# The phrase `NOT NULL`

A column line may say `NOT NULL` anywhere after its type. `SaysNotNull` is what the reader looks
for: the two words on their own, in any case, with blanks between them (`hasNotNull_iff`). Where they
are found they are taken out, and nothing else is (`withoutNotNull_eq_self`,
`length_withoutNotNull_lt`). Quotes around a text neither bring the phrase into it nor hide it
(`hasNotNull_quoted`, `withoutNotNull_quoted`).
-/

namespace Crowsfoot.Diagram

open Crowsfoot.Text

/-! ## What the phrase is -/

/-- A text begins with the phrase, and what follows does not go on with its last word. -/
def BeginsNotNull (cs : List Char) : Prop :=
  ∃ first gap second tail, cs = first ++ (gap ++ (second ++ tail))
    ∧ AnyCase "not".toList first ∧ (gap ≠ [] ∧ ∀ c ∈ gap, isBlank c = true)
    ∧ AnyCase "null".toList second ∧ StartsOutside isWord tail

/-- A text says `NOT NULL`: the words stand in it on their own, in any case, with blanks between. -/
def SaysNotNull (cs : List Char) : Prop :=
  ∃ lead rest, cs = lead ++ rest ∧ EndsOutside isWord lead ∧ BeginsNotNull rest

theorem any_head?_eq_false {p : Char → Bool} {cs : List Char} :
    cs.head?.any p = false ↔ StartsOutside p cs := by
  cases cs with
  | nil => simp [StartsOutside]
  | cons c cs => simp [startsOutside_cons]

theorem isSome_notNullLength? {cs : List Char} :
    (notNullLength? cs).isSome = true ↔ BeginsNotNull cs := by
  constructor
  · intro h
    obtain ⟨n, hn⟩ := Option.isSome_iff_exists.mp h
    unfold notNullLength? at hn
    obtain ⟨afterNot, hnot, hn⟩ := Option.bind_eq_some_iff.mp hn
    obtain ⟨afterGap, hgap, hn⟩ := Option.bind_eq_some_iff.mp hn
    obtain ⟨tail, hnull, hn⟩ := Option.bind_eq_some_iff.mp hn
    have htail : StartsOutside isWord tail := by
      rw [← any_head?_eq_false]
      cases hword : tail.head?.any isWord with
      | false => rfl
      | true =>
        rw [hword] at hn
        exact nomatch hn
    obtain ⟨first, hfirst, rfl⟩ := afterKeyword?_iff.mp hnot
    obtain ⟨b, more, rfl, hblank, rfl⟩ := afterBlanks?_eq_some hgap
    obtain ⟨second, hsecond, heq⟩ := afterKeyword?_iff.mp hnull
    have hne : (b :: more).takeWhile isBlank ≠ [] := by
      rw [List.takeWhile_cons_of_pos hblank]
      exact List.cons_ne_nil _ _
    refine ⟨first, (b :: more).takeWhile isBlank, second, tail, ?_, hfirst, ⟨hne, ?_⟩, hsecond, htail⟩
    · rw [← heq, List.takeWhile_append_dropWhile]
    · exact fun c hc => List.all_eq_true.mp List.all_takeWhile c hc
  · rintro ⟨first, gap, second, tail, rfl, hfirst, ⟨hne, hblank⟩, hsecond, htail⟩
    have hnot : afterKeyword? "not".toList (first ++ (gap ++ (second ++ tail)))
        = some (gap ++ (second ++ tail)) := afterKeyword?_iff.mpr ⟨first, hfirst, rfl⟩
    have hnull : afterKeyword? "null".toList (second ++ tail) = some tail :=
      afterKeyword?_iff.mpr ⟨second, hsecond, rfl⟩
    have hgap : afterBlanks? (gap ++ (second ++ tail)) = some (second ++ tail) := by
      have hstart : StartsOutside isBlank (second ++ tail) := by
        cases hsecond with
        | cons hc _ =>
          exact startsOutside_cons.mpr
            (isBlank_eq_false_of_isWord (isWord_of_isLetter (by decide) hc))
      obtain ⟨b, more, rfl⟩ := List.exists_cons_of_ne_nil hne
      have hmore := dropWhile_run (fun c hc => hblank c (List.mem_cons_of_mem b hc)) hstart
      simp only [List.cons_append, afterBlanks?, hblank b List.mem_cons_self, if_true, hmore]
    unfold notNullLength?
    simp only [hnot, hgap, hnull, any_head?_eq_false.mpr htail, Option.bind_eq_bind,
      Option.bind_some]
    rfl

/-- The phrase is looked for at every place that no word character is before. -/
theorem hasNotNull_iff_exists {inWord : Bool} {cs : List Char} :
    hasNotNull inWord cs = true ↔ ∃ lead rest, cs = lead ++ rest ∧ (lead = [] → inWord = false)
      ∧ EndsOutside isWord lead ∧ BeginsNotNull rest := by
  induction cs generalizing inWord with
  | nil =>
    constructor
    · exact fun h => nomatch h
    · rintro ⟨lead, rest, hcs, -, -, hrest⟩
      obtain ⟨rfl, rfl⟩ := List.append_eq_nil_iff.mp hcs.symm
      exact nomatch isSome_notNullLength?.mpr hrest
  | cons c cs ih =>
    simp only [hasNotNull, Bool.or_eq_true, Bool.and_eq_true, Bool.not_eq_true',
      isSome_notNullLength?, ih]
    constructor
    · rintro (⟨hword, hbegins⟩ | ⟨lead, rest, rfl, hfirst, hend, hrest⟩)
      · exact ⟨[], c :: cs, rfl, fun _ => hword, endsOutside_nil, hbegins⟩
      · refine ⟨c :: lead, rest, rfl, fun h => absurd h (List.cons_ne_nil c lead), ?_, hrest⟩
        cases lead with
        | nil => exact (endsOutside_append_singleton []).mpr (hfirst rfl)
        | cons d lead =>
          have hcons : EndsOutside isWord ([c] ++ d :: lead) :=
            endsOutside_append (List.cons_ne_nil d lead) hend
          exact hcons
    · rintro ⟨lead, rest, hcs, hfirst, hend, hrest⟩
      cases lead with
      | nil =>
        obtain rfl : c :: cs = rest := hcs
        exact Or.inl ⟨hfirst rfl, hrest⟩
      | cons d lead =>
        obtain ⟨rfl, rfl⟩ := List.cons.inj hcs
        refine Or.inr ⟨lead, rest, rfl, ?_, ?_, hrest⟩
        · rintro rfl
          exact (endsOutside_append_singleton []).mp hend
        · cases lead with
          | nil => exact endsOutside_nil
          | cons e lead =>
            intro f hf
            exact hend f (by rwa [List.getLast?_cons_cons])

/-- **What is looked for is the phrase.** -/
theorem hasNotNull_iff {cs : List Char} : hasNotNull false cs = true ↔ SaysNotNull cs := by
  rw [hasNotNull_iff_exists]
  constructor
  · rintro ⟨lead, rest, hcs, -, hend, hrest⟩
    exact ⟨lead, rest, hcs, hend, hrest⟩
  · rintro ⟨lead, rest, hcs, hend, hrest⟩
    exact ⟨lead, rest, hcs, fun _ => rfl, hend, hrest⟩

instance (cs : List Char) : Decidable (SaysNotNull cs) :=
  decidable_of_iff _ hasNotNull_iff

/-! ## Taking the phrase out -/

theorem withoutNotNull_eq_self {inWord : Bool} {cs : List Char}
    (h : hasNotNull inWord cs = false) : withoutNotNull inWord 0 cs = cs := by
  induction cs generalizing inWord with
  | nil => rfl
  | cons c cs ih =>
    simp only [hasNotNull, Bool.or_eq_false_iff] at h
    have hskip : (if inWord then none else notNullLength? (c :: cs)) = none := by
      cases inWord with
      | true => rfl
      | false => simpa using h.1
    unfold withoutNotNull
    rw [hskip]
    simp only [ih h.2]

theorem length_withoutNotNull_le (inWord : Bool) (k : Nat) (cs : List Char) :
    (withoutNotNull inWord k cs).length ≤ cs.length := by
  induction cs generalizing inWord k with
  | nil => cases k <;> exact Nat.le_refl 0
  | cons c cs ih =>
    cases k with
    | succ k => exact Nat.le_succ_of_le (ih (isWord c) k)
    | zero =>
      unfold withoutNotNull
      split
      · exact Nat.le_succ_of_le (ih _ _)
      · exact Nat.succ_le_succ (ih _ _)

/-- A text that says `NOT NULL` loses something. -/
theorem length_withoutNotNull_lt {inWord : Bool} {cs : List Char}
    (h : hasNotNull inWord cs = true) : (withoutNotNull inWord 0 cs).length < cs.length := by
  induction cs generalizing inWord with
  | nil => exact nomatch h
  | cons c cs ih =>
    unfold withoutNotNull
    split
    · exact Nat.lt_succ_of_le (length_withoutNotNull_le _ _ _)
    · rename_i hnone
      apply Nat.succ_lt_succ
      apply ih
      rw [hasNotNull, Bool.or_eq_true] at h
      refine h.resolve_left fun hbegins => ?_
      obtain ⟨hword, hsome⟩ := Bool.and_eq_true_iff.mp hbegins
      rw [if_neg (by simpa using hword)] at hnone
      rw [hnone] at hsome
      exact nomatch hsome

/-! ## Quotes around a text -/

section ClosingQuote

theorem afterKeyword?_closed (keyword cs : List Char) (hk : ∀ l ∈ keyword, isLetter l '"' = false) :
    afterKeyword? keyword (cs ++ ['"']) = (afterKeyword? keyword cs).map (· ++ ['"']) := by
  induction keyword generalizing cs with
  | nil => rfl
  | cons l keyword ih =>
    cases cs with
    | nil =>
      simp only [List.nil_append, afterKeyword?, hk l List.mem_cons_self]
      rfl
    | cons c cs =>
      simp only [List.cons_append, afterKeyword?]
      split
      · exact ih cs fun m hm => hk m (List.mem_cons_of_mem l hm)
      · rfl

theorem afterBlanks?_closed (cs : List Char) :
    afterBlanks? (cs ++ ['"']) = (afterBlanks? cs).map (· ++ ['"']) := by
  cases cs with
  | nil => decide
  | cons c cs =>
    simp only [List.cons_append, afterBlanks?]
    split
    · rw [dropWhile_append_last (by decide)]; rfl
    · rfl

/-- A quote at the end of a text begins and completes no phrase. -/
theorem notNullLength?_closed (cs : List Char) :
    notNullLength? (cs ++ ['"']) = notNullLength? cs := by
  unfold notNullLength?
  rw [afterKeyword?_closed _ _ (by decide)]
  cases afterKeyword? "not".toList cs with
  | none => rfl
  | some rest =>
    simp only [Option.map_some, Option.bind_eq_bind, Option.bind_some, afterBlanks?_closed]
    cases afterBlanks? rest with
    | none => rfl
    | some next =>
      simp only [Option.map_some, Option.bind_some]
      rw [afterKeyword?_closed _ _ (by decide)]
      cases afterKeyword? "null".toList next with
      | none => rfl
      | some tail =>
        have hhead : (tail ++ ['"']).head?.any isWord = tail.head?.any isWord := by
          cases tail with
          | nil => decide
          | cons c tail => rfl
        simp only [Option.map_some, Option.bind_some, hhead, List.length_append,
          Nat.add_sub_add_right]

theorem hasNotNull_closed (inWord : Bool) (cs : List Char) :
    hasNotNull inWord (cs ++ ['"']) = hasNotNull inWord cs := by
  induction cs generalizing inWord with
  | nil => cases inWord <;> decide
  | cons c cs ih =>
    have := notNullLength?_closed (c :: cs)
    simp only [List.cons_append] at this ⊢
    simp only [hasNotNull, this, ih]

theorem notNullLength?_le {cs : List Char} {n : Nat} (h : notNullLength? cs = some n) :
    n ≤ cs.length := by
  unfold notNullLength? at h
  obtain ⟨_, -, h⟩ := Option.bind_eq_some_iff.mp h
  obtain ⟨_, -, h⟩ := Option.bind_eq_some_iff.mp h
  obtain ⟨_, -, h⟩ := Option.bind_eq_some_iff.mp h
  split at h
  · exact nomatch h
  · rw [← Option.some.inj h]
    exact Nat.sub_le _ _

/-- A quote at the end of a text stays behind what is left of it. -/
theorem withoutNotNull_closed {inWord : Bool} {k : Nat} {cs : List Char} (h : k ≤ cs.length) :
    withoutNotNull inWord k (cs ++ ['"']) = withoutNotNull inWord k cs ++ ['"'] := by
  induction cs generalizing inWord k with
  | nil =>
    obtain rfl : k = 0 := Nat.le_zero.mp h
    cases inWord <;> decide
  | cons c cs ih =>
    cases k with
    | succ k => exact ih (Nat.le_of_succ_le_succ h)
    | zero =>
      have hlength := notNullLength?_closed (c :: cs)
      rw [List.cons_append] at hlength ⊢
      unfold withoutNotNull
      rw [hlength]
      cases hn : if inWord then none else notNullLength? (c :: cs) with
      | none => exact congrArg (c :: ·) (ih (Nat.zero_le _))
      | some n =>
        refine ih ?_
        have hfound : notNullLength? (c :: cs) = some n := by
          cases inWord with
          | true => exact nomatch hn
          | false => exact hn
        have := notNullLength?_le hfound
        rw [List.length_cons] at this
        omega

/-- Quotes around a text bring no phrase into it. -/
theorem hasNotNull_quoted (cs : List Char) :
    hasNotNull false ('"' :: (cs ++ ['"'])) = hasNotNull false cs := by
  have hfirst : notNullLength? ('"' :: (cs ++ ['"'])) = none := rfl
  have hword : isWord '"' = false := by decide
  simp only [hasNotNull, hfirst, hword, hasNotNull_closed]
  rfl

/-- What is taken out of a text is taken out of it between quotes. -/
theorem withoutNotNull_quoted (cs : List Char) :
    withoutNotNull false 0 ('"' :: (cs ++ ['"'])) = '"' :: (withoutNotNull false 0 cs ++ ['"']) := by
  have hfirst : notNullLength? ('"' :: (cs ++ ['"'])) = none := rfl
  have hword : isWord '"' = false := by decide
  rw [withoutNotNull, hfirst, if_neg Bool.false_ne_true, hword]
  exact congrArg ('"' :: ·) (withoutNotNull_closed (Nat.zero_le _))

end ClosingQuote

/-! ## The phrase before a text -/

/-- The phrase at the beginning of a text that no word character follows. -/
theorem notNullLength?_phrase {tail : List Char} (h : StartsOutside isWord tail) :
    notNullLength? ("NOT NULL".toList ++ tail) = some 8 := by
  have hnot : afterKeyword? "not".toList ("NOT NULL".toList ++ tail)
      = some (" NULL".toList ++ tail) := rfl
  have hblank : afterBlanks? (" NULL".toList ++ tail) = some ("NULL".toList ++ tail) := rfl
  have hnull : afterKeyword? "null".toList ("NULL".toList ++ tail) = some tail := rfl
  have hhead : tail.head?.any isWord = false := any_head?_eq_false.mpr h
  have hlength : ("NOT NULL".toList ++ tail).length = 8 + tail.length := by
    rw [List.length_append]
    rfl
  unfold notNullLength?
  simp only [hnot, hblank, hnull, hhead, hlength, Option.bind_eq_bind, Option.bind_some,
    Nat.add_sub_cancel]
  rfl

theorem hasNotNull_phrase {tail : List Char} (h : StartsOutside isWord tail) :
    hasNotNull false ("NOT NULL".toList ++ tail) = true := by
  have hlength := notNullLength?_phrase h
  have hcons : "NOT NULL".toList ++ tail = 'N' :: ("OT NULL".toList ++ tail) := rfl
  rw [hcons] at hlength ⊢
  simp only [hasNotNull, hlength]
  rfl

/-- The phrase is taken out, and what follows it stands after a word. -/
theorem withoutNotNull_phrase {tail : List Char} (h : StartsOutside isWord tail) :
    withoutNotNull false 0 ("NOT NULL".toList ++ tail) = withoutNotNull true 0 tail := by
  have hlength := notNullLength?_phrase h
  have hcons : "NOT NULL".toList ++ tail = 'N' :: ("OT NULL".toList ++ tail) := rfl
  have hskip : withoutNotNull false 0 ('N' :: ("OT NULL".toList ++ tail))
      = withoutNotNull (isWord 'N') 7 ("OT NULL".toList ++ tail) := by
    rw [hcons] at hlength
    rw [withoutNotNull]
    simp only [hlength, Bool.false_eq_true, if_false]
  exact hskip

end Crowsfoot.Diagram
