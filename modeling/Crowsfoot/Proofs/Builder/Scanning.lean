import Crowsfoot.Proofs.Builder.Literals
import Crowsfoot.Proofs.Text.Words

/-!
# What scanners pass over

A text is inert for a separator (`Inert`) if every scanner of builder code passes over it: no comment
begins in it, it closes no bracket but its own, and nothing is cut in it. Plain characters and
literals are inert, and so are inert texts one after another; between brackets a separator does not
count (`Inert.brackets`).
-/

namespace Crowsfoot.Builder

open Crowsfoot.Text

/-! ## Plain characters and brackets -/

/-- A character that begins no literal, bracket or comment. -/
def isPlain (c : Char) : Bool :=
  !isQuote c && depthStep c == 0 && c != '/' && c != '#' && c != ':'

/-- A plain character that is not the given separator. -/
def plainBut (sep c : Char) : Bool :=
  isPlain c && c != sep

theorem isPlain_of_plainBut {sep c : Char} (h : plainBut sep c = true) : isPlain c = true := by
  rw [plainBut, Bool.and_eq_true] at h
  exact h.1

theorem ne_of_plainBut {sep c : Char} (h : plainBut sep c = true) : c ≠ sep := by
  rw [plainBut, Bool.and_eq_true, bne_iff_ne] at h
  exact h.2

/-- What a plain character is not. -/
structure PlainFacts (c : Char) : Prop where
  quote : isQuote c = false
  depth : depthStep c = 0
  slash : c ≠ '/'
  hash : c ≠ '#'
  colon : c ≠ ':'

theorem plainFacts {c : Char} (h : isPlain c = true) : PlainFacts c := by
  simp only [isPlain, Bool.and_eq_true, Bool.not_eq_true', beq_iff_eq, bne_iff_ne] at h
  obtain ⟨⟨⟨⟨hquote, hdepth⟩, hslash⟩, hhash⟩, hcolon⟩ := h
  exact ⟨hquote, hdepth, hslash, hhash, hcolon⟩

theorem closerOf?_eq_none {c : Char} (h : depthStep c = 0) : closerOf? c = none := by
  unfold closerOf?
  split
  · exact absurd h (by decide)
  · exact absurd h (by decide)
  · exact absurd h (by decide)
  · rfl

/-- There are three pairs of brackets. -/
theorem closerOf?_cases {opening closing : Char} (h : closerOf? opening = some closing) :
    opening = '(' ∧ closing = ')' ∨ opening = '[' ∧ closing = ']'
      ∨ opening = '\x7b' ∧ closing = '\x7d' := by
  unfold closerOf? at h
  split at h
  · exact .inl ⟨rfl, (Option.some.inj h).symm⟩
  · exact .inr (.inl ⟨rfl, (Option.some.inj h).symm⟩)
  · exact .inr (.inr ⟨rfl, (Option.some.inj h).symm⟩)
  · exact nomatch h

/-- A pair of brackets. -/
structure PairFacts (opening closing : Char) : Prop where
  openingQuote : isQuote opening = false
  closingQuote : isQuote closing = false
  openingDepth : depthStep opening = 1
  closingDepth : depthStep closing = -1
  openingSlash : opening ≠ '/'
  closingSlash : closing ≠ '/'
  openingHash : opening ≠ '#'
  closingHash : closing ≠ '#'
  closingCloser : closerOf? closing = none

theorem pairFacts {opening closing : Char} (h : closerOf? opening = some closing) :
    PairFacts opening closing := by
  rcases closerOf?_cases h with ⟨rfl, rfl⟩ | ⟨rfl, rfl⟩ | ⟨rfl, rfl⟩ <;> constructor <;> decide

section Groups

variable {opening closing closer : Char} {outer rest : List Char}

/-- An opening bracket begins a group in the group. -/
theorem groupFrom_opening (pair : closerOf? opening = some closing) :
    groupFrom .code closer outer (opening :: rest)
      = (groupFrom .code closing (closer :: outer) rest).map fun r => (opening :: r.1, r.2) := by
  have hc := pairFacts pair
  simp only [groupFrom, hc.openingQuote, pair, Bool.false_eq_true, if_false]

/-- The closing bracket that is waited for ends the innermost group. -/
theorem groupFrom_closing (pair : closerOf? opening = some closing) :
    groupFrom .code closing (closer :: outer) (closing :: rest)
      = (groupFrom .code closer outer rest).map fun r => (closing :: r.1, r.2) := by
  have hc := pairFacts pair
  simp only [groupFrom, hc.closingQuote, hc.closingCloser, Bool.false_eq_true, if_false, if_true]

/-- Any other character is part of the group. -/
theorem groupFrom_char {c : Char} (hquote : isQuote c = false) (hopening : closerOf? c = none)
    (hother : c ≠ closer) :
    groupFrom .code closer outer (c :: rest)
      = (groupFrom .code closer outer rest).map fun r => (c :: r.1, r.2) := by
  simp only [groupFrom, hquote, hopening, if_neg hother, Bool.false_eq_true, if_false]

end Groups

theorem withoutComments_cons {c : Char} (hquote : isQuote c = false) (hslash : c ≠ '/')
    (hhash : c ≠ '#') (rest : List Char) :
    withoutComments (c :: rest) = c :: withoutComments rest := by
  unfold withoutComments
  rw [withoutCommentsFrom, next_of_not_quote hquote]
  · rintro tail - rfl
    exact absurd rfl hslash
  · rintro tail - rfl
    exact absurd rfl hslash
  · rintro - rfl
    exact absurd rfl hhash

/-- A character of code other than a quote belongs to its piece, if it does not separate. -/
theorem splitFrom_char {sep c : Char} {depth : Int} (hquote : isQuote c = false)
    (hstays : c = sep → depth + depthStep c ≠ 0) (rest : List Char) :
    splitFrom sep .code depth (c :: rest)
      = extendFirst c (splitFrom sep .code (depth + depthStep c) rest) := by
  have hkept : (c = sep && !isQuote c && depth + depthStep c == 0) = false := by
    by_cases hsame : c = sep
    · simp [hstays hsame]
    · simp [hsame]
  simp only [splitFrom, hkept, next_of_not_quote hquote, Bool.false_eq_true, if_false]

/-! ## Inert texts -/

/-- A text that scanners pass over where the bracket depth is at least `least`. -/
structure Inert (sep : Char) (least : Int) (cs : List Char) : Prop where
  /-- No comment begins in it. -/
  withoutComments : ∀ rest,
    Builder.withoutComments (cs ++ rest) = cs ++ Builder.withoutComments rest
  /-- It closes no bracket but its own. -/
  groupFrom : ∀ closer, depthStep closer = -1 → ∀ outer rest,
    Builder.groupFrom .code closer outer (cs ++ rest)
      = (Builder.groupFrom .code closer outer rest).map fun r => (cs ++ r.1, r.2)
  /-- No separator in it separates. -/
  splitFrom : ∀ depth, least ≤ depth → ∀ rest,
    Builder.splitFrom sep .code depth (cs ++ rest)
      = extendBy cs (Builder.splitFrom sep .code depth rest)

namespace Inert

variable {sep : Char} {least : Int} {cs ds : List Char}

theorem nil : Inert sep least [] :=
  ⟨fun _ => rfl, fun _ _ _ _ => by simp, fun _ _ _ => rfl⟩

theorem append (hcs : Inert sep least cs) (hds : Inert sep least ds) :
    Inert sep least (cs ++ ds) := by
  refine ⟨fun rest => ?_, fun closer hcloser outer rest => ?_, fun depth hdepth rest => ?_⟩
  · rw [List.append_assoc, hcs.withoutComments, hds.withoutComments, List.append_assoc]
  · rw [List.append_assoc, hcs.groupFrom closer hcloser, hds.groupFrom closer hcloser,
      Option.map_map]
    refine Option.map_congr fun r _ => ?_
    simp
  · rw [List.append_assoc, hcs.splitFrom depth hdepth, hds.splitFrom depth hdepth, extendBy_append]

/-- A plain character, which is not the separator where that counts. -/
theorem char {c : Char} (hplain : isPlain c = true) (hne : least ≤ 0 → c ≠ sep) :
    Inert sep least [c] := by
  have hc := plainFacts hplain
  refine ⟨withoutComments_cons hc.quote hc.slash hc.hash, fun closer hcloser outer rest => ?_,
    fun depth hdepth rest => ?_⟩
  · have hcloser' : c ≠ closer := by
      rintro rfl
      rw [hc.depth] at hcloser
      exact absurd hcloser (by decide)
    exact groupFrom_char hc.quote (closerOf?_eq_none hc.depth) hcloser'
  · have hstays : c = sep → depth + depthStep c ≠ 0 := by
      intro he hzero
      rw [hc.depth, Int.add_zero] at hzero
      exact hne (hzero ▸ hdepth) he
    rw [List.singleton_append, splitFrom_char hc.quote hstays, hc.depth, Int.add_zero]
    rfl

theorem of_all (h : ∀ c ∈ cs, isPlain c = true) (hne : least ≤ 0 → sep ∉ cs) :
    Inert sep least cs := by
  induction cs with
  | nil => exact nil
  | cons c cs ih =>
    have hc : Inert sep least [c] :=
      char (h c List.mem_cons_self) fun hleast he => hne hleast (he ▸ List.mem_cons_self)
    exact hc.append (ih (fun d hd => h d (List.mem_cons_of_mem c hd))
      fun hleast hd => hne hleast (List.mem_cons_of_mem c hd))

theorem literal (hquote : isQuote sep = false) {quote : Char} {inside : List Char}
    (h : IsLiteral quote inside cs) : Inert sep least cs :=
  ⟨h.withoutComments, fun closer _ => h.groupFrom closer, fun depth _ => h.splitFrom hquote depth⟩

/-- Within brackets the depth is greater. -/
theorem brackets (hsep : depthStep sep = 0) {opening closing : Char}
    (pair : closerOf? opening = some closing) (hcs : Inert sep (least + 1) cs) :
    Inert sep least (opening :: (cs ++ [closing])) := by
  have hc := pairFacts pair
  have htext : ∀ rest,
      opening :: (cs ++ [closing]) ++ rest = opening :: (cs ++ closing :: rest) := by
    simp
  refine ⟨fun rest => ?_, fun closer hcloser outer rest => ?_, fun depth hdepth rest => ?_⟩
  · rw [htext, withoutComments_cons hc.openingQuote hc.openingSlash hc.openingHash,
      hcs.withoutComments, withoutComments_cons hc.closingQuote hc.closingSlash hc.closingHash,
      htext]
  · rw [htext, groupFrom_opening pair, hcs.groupFrom closing hc.closingDepth, groupFrom_closing pair]
    simp only [Option.map_map]
    refine Option.map_congr fun r _ => ?_
    simp
  · have hopen : opening ≠ sep := by
      rintro rfl
      exact absurd (hc.openingDepth.symm.trans hsep) (by decide)
    have hclose : closing ≠ sep := by
      rintro rfl
      exact absurd (hc.closingDepth.symm.trans hsep) (by decide)
    have hback : depth + 1 + depthStep closing = depth := by
      rw [hc.closingDepth]
      omega
    rw [htext, splitFrom_char hc.openingQuote (absurd · hopen), hc.openingDepth,
      hcs.splitFrom _ (by omega), splitFrom_char hc.closingQuote (absurd · hclose), hback,
      show opening :: (cs ++ [closing]) = [opening] ++ (cs ++ [closing]) from rfl, extendBy_append,
      extendBy_append]
    rfl

/-! ## Pieces -/

theorem withoutComments_self (h : Inert sep least cs) : Builder.withoutComments cs = cs := by
  have hall := h.withoutComments []
  rw [List.append_nil] at hall
  exact hall.trans (List.append_nil cs)

/-- An inert text is one piece. -/
theorem splitAt_self (h : Inert sep 0 cs) : splitAt sep cs = [cs] := by
  have hone := h.splitFrom 0 (Int.le_refl 0) []
  rw [List.append_nil] at hone
  exact hone.trans ((extendBy_cons cs [] []).trans (by rw [List.append_nil]))

/-- An inert text is one piece before a separator. -/
theorem splitAt_sep (h : Inert sep 0 cs) (hsep : isPlain sep = true) (rest : List Char) :
    splitAt sep (cs ++ sep :: rest) = cs :: splitAt sep rest := by
  have hcut : Builder.splitFrom sep .code 0 (sep :: rest) = [] :: splitAt sep rest := by
    simp [Builder.splitFrom, splitAt, (plainFacts hsep).quote, (plainFacts hsep).depth]
  have hall := h.splitFrom 0 (Int.le_refl 0) (sep :: rest)
  rw [hcut, extendBy_cons, List.append_nil] at hall
  exact hall

end Inert

end Crowsfoot.Builder
