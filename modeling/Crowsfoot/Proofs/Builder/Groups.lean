import Crowsfoot.Proofs.Builder.Scanning

/-!
# What stands in a group

The inside of a group is items one after another (`Items`): string literals, groups, and other
characters, which are no opening brackets and not the closing one that the group waits for. A
closing bracket of another kind is one of these. `group_eq_some_iff`: a group ends at the closing
bracket before which there are items, and nowhere else.
-/

namespace Crowsfoot.Builder

open Crowsfoot.Text

/-- Items between brackets, the closing one of which is given. -/
inductive Items : (closer : Char) → List Char → Prop where
  | nil {closer : Char} : Items closer []
  | literal {closer quote : Char} {inside cs : List Char} (opens : isQuote quote = true)
    (literal : Inside quote inside) (more : Items closer cs) :
    Items closer (quote :: (inside ++ quote :: cs))
  | group {closer opening closing : Char} {inside cs : List Char}
    (pair : closerOf? opening = some closing) (inner : Items closing inside)
    (more : Items closer cs) : Items closer (opening :: (inside ++ closing :: cs))
  | char {closer c : Char} {cs : List Char} (quote : isQuote c = false)
    (opening : closerOf? c = none) (other : c ≠ closer) (more : Items closer cs) :
    Items closer (c :: cs)

section Groups

variable {opening closing closer : Char} {outer inside rest cs : List Char}

theorem group_closing (pair : closerOf? opening = some closing) :
    group closing (closing :: rest) = some ([], rest) := by
  have hc := pairFacts pair
  simp only [group, groupFrom, hc.closingQuote, hc.closingCloser, Bool.false_eq_true, if_false,
    if_true]

/-- **Items are passed over.** -/
theorem Items.groupFrom (h : Items closer inside) (outer rest : List Char) :
    Builder.groupFrom .code closer outer (inside ++ rest)
      = (Builder.groupFrom .code closer outer rest).map fun r => (inside ++ r.1, r.2) := by
  induction h generalizing outer rest with
  | nil => exact Option.map_id'.symm
  | @literal closer quote inside cs opens literal _ ih =>
    have htext : quote :: (inside ++ quote :: cs) ++ rest
        = quote :: (inside ++ [quote]) ++ (cs ++ rest) := by simp
    rw [htext, (literal.isLiteral opens).groupFrom, ih, Option.map_map]
    refine Option.map_congr fun r _ => ?_
    simp
  | @group closer opening closing inside cs pair _ _ ihInner ih =>
    have htext : opening :: (inside ++ closing :: cs) ++ rest
        = opening :: (inside ++ closing :: (cs ++ rest)) := by simp
    rw [htext, groupFrom_opening pair, ihInner, groupFrom_closing pair, ih]
    simp only [Option.map_map]
    refine Option.map_congr fun r _ => ?_
    simp
  | char quote opening other _ ih =>
    rw [List.cons_append, groupFrom_char quote opening other, ih, Option.map_map]
    rfl

/-- **Where a group ends there are items before its closing bracket.** -/
theorem exists_items {closer : Char} {outer cs : List Char}
    (h : (groupFrom .code closer outer cs).isSome = true) :
    ∃ inside rest, Items closer inside ∧ cs = inside ++ closer :: rest := by
  match cs with
  | [] => exact Bool.noConfusion h
  | c :: cs =>
    by_cases hquote : isQuote c = true
    · rcases inside_or_isUnclosed c cs with ⟨literal, tail, hliteral, rfl⟩ | hunclosed
      · have htext : c :: (literal ++ c :: tail) = c :: (literal ++ [c]) ++ tail := by simp
        rw [htext, (hliteral.isLiteral hquote).groupFrom, Option.isSome_map] at h
        obtain ⟨inside, rest, hinside, rfl⟩ := exists_items h
        exact ⟨_, rest, .literal hquote hliteral hinside, by simp⟩
      · -- no group ends in a literal that is not closed
        have hnone := hunclosed.stays.groupFrom closer outer []
        rw [List.append_nil] at hnone
        simp only [groupFrom, hquote, if_true, hnone] at h
        exact Bool.noConfusion h
    rw [Bool.not_eq_true] at hquote
    cases hopening : closerOf? c with
    | some closing =>
      rw [groupFrom_opening hopening, Option.isSome_map] at h
      obtain ⟨inner, tail, hinner, rfl⟩ := exists_items h
      rw [hinner.groupFrom, groupFrom_closing hopening, Option.isSome_map,
        Option.isSome_map] at h
      obtain ⟨inside, rest, hinside, rfl⟩ := exists_items h
      exact ⟨_, rest, .group hopening hinner hinside, by simp⟩
    | none =>
      by_cases hother : c = closer
      · exact ⟨[], cs, .nil, by rw [hother, List.nil_append]⟩
      · rw [groupFrom_char hquote hopening hother, Option.isSome_map] at h
        obtain ⟨inside, rest, hinside, rfl⟩ := exists_items h
        exact ⟨_, rest, .char hquote hopening hother hinside, rfl⟩
termination_by cs.length

theorem Items.group_append (pair : closerOf? opening = some closing) (h : Items closing inside)
    (rest : List Char) :
    Builder.group closing (inside ++ closing :: rest) = some (inside, rest) := by
  have hclosing : Builder.groupFrom .code closing [] (closing :: rest) = some ([], rest) :=
    group_closing pair
  rw [Builder.group, h.groupFrom, hclosing, Option.map_some, List.append_nil]

/-- **A group is the items before its closing bracket**, and it ends nowhere else. -/
theorem group_eq_some_iff (pair : closerOf? opening = some closing) :
    group closing cs = some (inside, rest)
      ↔ Items closing inside ∧ cs = inside ++ closing :: rest := by
  constructor
  · intro h
    obtain ⟨items, tail, hitems, rfl⟩ := exists_items (Option.isSome_of_mem h)
    rw [hitems.group_append pair, Option.some.injEq, Prod.mk.injEq] at h
    obtain ⟨rfl, rfl⟩ := h
    exact ⟨hitems, rfl⟩
  · rintro ⟨hitems, rfl⟩
    exact hitems.group_append pair rest

end Groups

end Crowsfoot.Builder
