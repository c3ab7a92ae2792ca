import Crowsfoot.Files.Glob
import Crowsfoot.Proofs.Text.Words

/-!
# Patterns with one star

A name without wildcards and slashes (`IsPlain`) stands for itself in a pattern. A star before it
makes the pattern of the names that end in it (`accepts_star`), and as a pattern of paths this is a
single segment (`glob_star`).
-/

namespace Crowsfoot.Files

open Crowsfoot.Text

/-- The characters that mean something in a path or in a pattern. -/
def isSpecial (c : Char) : Bool :=
  c == '*' || c == '?' || c == '[' || c == '/'

/-- A text that stands for itself in paths and patterns. -/
def IsPlain (cs : List Char) : Prop :=
  ∀ c ∈ cs, isSpecial c = false

instance (cs : List Char) : Decidable (IsPlain cs) :=
  decidableForallMem cs _

theorem IsPlain.append {cs ds : List Char} (hcs : IsPlain cs) (hds : IsPlain ds) :
    IsPlain (cs ++ ds) := by
  intro c hc
  exact (List.mem_append.mp hc).elim (hcs c) (hds c)

theorem IsPlain.not_mem {cs : List Char} (h : IsPlain cs) {c : Char} (hc : isSpecial c = true) :
    c ∉ cs := by
  intro hmem
  rw [h c hmem] at hc
  exact absurd hc (by simp)

/-! ## Patterns -/

namespace Pattern

theorem readFrom_plain {cs : List Char} (h : IsPlain cs) :
    readFrom 0 cs = cs.map Wildcard.char := by
  induction cs with
  | nil => rfl
  | cons c cs ih =>
    have hc := h c List.mem_cons_self
    simp only [isSpecial, Bool.or_eq_false_iff, beq_eq_false_iff_ne] at hc
    rw [readFrom, if_neg hc.1.1.1, if_neg hc.1.1.2, if_neg hc.1.2, List.map_cons,
      ih fun d hd => h d (List.mem_cons_of_mem c hd)]

/-- Characters accept themselves only. -/
theorem accepts_chars (cs ds : List Char) : accepts (cs.map .char) ds = true ↔ ds = cs := by
  induction cs generalizing ds with
  | nil => cases ds <;> simp [accepts]
  | cons c cs ih =>
    cases ds with
    | nil => simp [accepts]
    | cons d ds =>
      rw [List.map_cons, accepts, Bool.and_eq_true, beq_iff_eq, ih, List.cons.injEq]
      exact and_congr_left fun _ => eq_comm

/-- A star takes off any beginning. -/
theorem accepts_anyText (p : Pattern) (cs : List Char) :
    accepts (.anyText :: p) cs = true ↔ ∃ lead rest, cs = lead ++ rest ∧ accepts p rest = true := by
  induction cs with
  | nil =>
    rw [accepts]
    constructor
    · exact fun h => ⟨[], [], rfl, h⟩
    · rintro ⟨lead, rest, heq, h⟩
      obtain ⟨rfl, rfl⟩ := List.append_eq_nil_iff.mp heq.symm
      exact h
  | cons c cs ih =>
    rw [accepts, Bool.or_eq_true, ih]
    constructor
    · rintro (h | ⟨lead, rest, rfl, h⟩)
      · exact ⟨[], c :: cs, rfl, h⟩
      · exact ⟨c :: lead, rest, rfl, h⟩
    · rintro ⟨lead, rest, heq, h⟩
      cases lead with
      | nil => exact Or.inl (by rwa [heq])
      | cons d lead => exact Or.inr ⟨lead, rest, (List.cons.inj heq).2, h⟩

/-- **A star before a plain text accepts what ends in the text.** -/
theorem accepts_star {s : String} (h : IsPlain s.toList) (name : String) :
    accepts (ofString ("*" ++ s)) name.toList = true ↔ ∃ lead, name = lead ++ s := by
  have hread : ofString ("*" ++ s) = .anyText :: s.toList.map Wildcard.char := by
    unfold ofString
    rw [String.toList_append]
    exact congrArg (Wildcard.anyText :: ·) (readFrom_plain h)
  rw [hread, accepts_anyText]
  simp only [accepts_chars]
  constructor
  · rintro ⟨lead, rest, heq, rfl⟩
    refine ⟨String.ofList lead, String.toList_inj.mp ?_⟩
    rw [heq, String.toList_append, String.toList_ofList]
  · rintro ⟨lead, rfl⟩
    exact ⟨lead.toList, s.toList, String.toList_append .., rfl⟩

end Pattern

/-! ## Paths of one name -/

/-- A plain name other than a dot is a path of its own. -/
theorem Path.ofString_plain {s : String} (h : '/' ∉ s.toList) (hne : s ≠ "") (hdot : s ≠ ".") :
    Path.ofString s = { parts := [s] } := by
  have habsolute : (s.toList.head? == some '/') = false := by
    rw [beq_eq_false_iff_ne]
    exact fun hhead => h (List.mem_of_mem_head? hhead)
  unfold Path.ofString
  rw [habsolute, pieces_eq_singleton h]
  simp [String.ofList_toList, hne, hdot]

theorem hasDoubleStar_eq_false {cs : List Char} (h : '*' ∉ cs) : hasDoubleStar cs = false := by
  induction cs with
  | nil => rfl
  | cons c cs ih =>
    rw [List.mem_cons, not_or] at h
    unfold hasDoubleStar
    split
    · rename_i heq
      exact absurd (List.cons.inj heq).1.symm h.1
    · rename_i heq
      rw [← (List.cons.inj heq).2]
      exact ih h.2
    · rfl

theorem hasDoubleStar_star {c : Char} {cs : List Char} (h : '*' ∉ c :: cs) :
    hasDoubleStar ('*' :: c :: cs) = false := by
  unfold hasDoubleStar
  split
  · rename_i heq
    exact absurd (List.mem_cons.mpr (Or.inl (List.cons.inj (List.cons.inj heq).2).1.symm)) h
  · rename_i heq
    rw [← (List.cons.inj heq).2]
    exact hasDoubleStar_eq_false h
  · rfl

/-- **A star before a plain text is a pattern of names.** -/
theorem glob_star {s : String} (h : IsPlain s.toList) (hne : s ≠ "") :
    Glob.ofString ("*" ++ s) = .ok [.fitting (Pattern.ofString ("*" ++ s))] := by
  have htext : ("*" ++ s).toList = '*' :: s.toList := String.toList_append ..
  obtain ⟨c, cs, hcs⟩ : ∃ c cs, s.toList = c :: cs := by
    refine List.exists_cons_of_ne_nil fun hnil => hne (String.toList_inj.mp hnil)
  have hstar : '*' ∉ s.toList := h.not_mem rfl
  have hslash : '/' ∉ ("*" ++ s).toList := by
    rw [htext, List.mem_cons, not_or]
    exact ⟨by decide, h.not_mem rfl⟩
  have hpath : Path.ofString ("*" ++ s) = { parts := ["*" ++ s] } := by
    refine Path.ofString_plain hslash ?_ ?_
    · intro heq
      rw [heq] at htext
      exact absurd htext (by simp)
    · intro heq
      rw [heq, hcs] at htext
      exact absurd htext (by simp)
  have hdouble : ("*" ++ s) ≠ "**" := by
    intro heq
    rw [heq] at htext
    exact hstar ((List.cons.inj htext).2 ▸ List.mem_singleton_self '*')
  have hstars : hasDoubleStar ("*" ++ s).toList = false := by
    rw [htext, hcs]
    exact hasDoubleStar_star (hcs ▸ hstar)
  have hwild : Pattern.isWild ("*" ++ s) = true := by
    unfold Pattern.isWild
    rw [htext]
    rfl
  have hsegment : Segment.ofString ("*" ++ s) = .ok (.fitting (Pattern.ofString ("*" ++ s))) := by
    unfold Segment.ofString
    rw [if_neg hdouble, hstars, hwild]
    rfl
  unfold Glob.ofString
  rw [hpath]
  simp only [List.mapM_cons, List.mapM_nil, hsegment]
  rfl

end Crowsfoot.Files
