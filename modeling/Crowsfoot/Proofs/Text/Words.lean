import Crowsfoot.Text.Basic
import Mathlib.Data.List.Permutation

/-!
# Words, blanks and lines

What the readers of diagrams and migrations rely on below the level of grammar.

* Blanks and word characters are disjoint (`isWord_eq_false_of_isBlank`), and every line end is a
  blank (`isBlank_of_isLineEnd`). Both classes reach far beyond ASCII, but there are only finitely
  many blanks (`blankPoints`), so the facts are decided on those.
* `takeWhile_run` / `dropWhile_run`: a run of characters in `p` that something outside `p`
  follows is taken off exactly.
* `strip_eq_self`, `strip_append_left`: stripping leaves a text alone that has no such characters at
  its ends, and does not see such characters before it.
* `pieces_intercalate`, `splitLines_intercalate`: pieces that are joined by a separator, and lines
  that are joined by line feeds, are found again; `splitLines_go_append_lineFeed` is what holds of a
  line feed between any two texts.

`IsName` is the shape of identifiers: one or more word characters.
-/

namespace Crowsfoot.Text

/-! ## Character classes -/

/-- What is asked of every character in a text is decided on the text. There are only finitely many
characters, but all of them are far too many. -/
instance decidableForallMem (cs : List Char) (P : Char → Prop) [DecidablePred P] :
    Decidable (∀ c ∈ cs, P c) :=
  List.decidableBAll P cs

theorem isUpper_iff {c : Char} : c.isUpper = true ↔ 65 ≤ c.toNat ∧ c.toNat ≤ 90 :=
  decide_eq_true_iff

theorem isLower_iff {c : Char} : c.isLower = true ↔ 97 ≤ c.toNat ∧ c.toNat ≤ 122 := by
  show (decide (97 ≤ c.val) && decide (c.val ≤ 122)) = true ↔ _
  rw [Bool.and_eq_true, decide_eq_true_iff, decide_eq_true_iff]
  rfl

theorem isAlpha_eq (c : Char) : c.isAlpha = (c.isUpper || c.isLower) := rfl

/-- The code points of the blanks. -/
def blankPoints : List Nat :=
  [9, 10, 11, 12, 13, 28, 29, 30, 31, 32, 0x85, 0xA0, 0x1680, 0x2000, 0x2001, 0x2002, 0x2003,
    0x2004, 0x2005, 0x2006, 0x2007, 0x2008, 0x2009, 0x200A, 0x2028, 0x2029, 0x202F, 0x205F, 0x3000]

theorem toNat_mem_blankPoints {c : Char} (h : isBlank c = true) : c.toNat ∈ blankPoints := by
  simp only [isBlank, Bool.or_eq_true, decide_eq_true_eq, beq_iff_eq] at h
  simp only [blankPoints, List.mem_cons, List.not_mem_nil, or_false]
  omega

/-- A fact about all blanks is decided on their code points. -/
theorem forall_isBlank {P : Char → Prop} (h : ∀ n ∈ blankPoints, P (Char.ofNat n)) {c : Char}
    (hc : isBlank c = true) : P c := by
  have := h c.toNat (toNat_mem_blankPoints hc)
  rwa [Char.ofNat_toNat] at this

theorem isWord_eq_false_of_isBlank {c : Char} (h : isBlank c = true) : isWord c = false :=
  forall_isBlank (P := fun c => isWord c = false) (by decide +kernel) h

theorem isBlank_eq_false_of_isWord {c : Char} (h : isWord c = true) : isBlank c = false := by
  cases hb : isBlank c with
  | false => rfl
  | true => rw [isWord_eq_false_of_isBlank hb] at h; exact absurd h (by simp)

theorem isBlank_of_isLineEnd {c : Char} (h : isLineEnd c = true) : isBlank c = true := by
  simp only [isLineEnd, Bool.or_eq_true, decide_eq_true_eq, beq_iff_eq] at h
  simp only [isBlank, Bool.or_eq_true, decide_eq_true_eq, beq_iff_eq]
  omega

theorem isLineEnd_eq_false_of_isWord {c : Char} (h : isWord c = true) : isLineEnd c = false := by
  cases he : isLineEnd c with
  | false => rfl
  | true =>
    rw [isWord_eq_false_of_isBlank (isBlank_of_isLineEnd he)] at h
    exact absurd h (by simp)

/-- A character of a name is none of the characters that are not. -/
theorem ne_of_isWord {c d : Char} (hc : isWord c = true) (hd : isWord d = false) : c ≠ d := by
  rintro rfl
  rw [hc] at hd
  exact absurd hd (by simp)

/-- A name: one or more word characters. -/
structure IsName (s : String) : Prop where
  nonempty : s.toList ≠ []
  word : ∀ c ∈ s.toList, isWord c = true

instance (s : String) : Decidable (IsName s) :=
  decidable_of_iff (s.toList ≠ [] ∧ ∀ c ∈ s.toList, isWord c = true)
    ⟨fun h => ⟨h.1, h.2⟩, fun h => ⟨h.nonempty, h.word⟩⟩

/-- A name begins with a word character. -/
theorem IsName.exists_cons {s : String} (h : IsName s) :
    ∃ c cs, s.toList = c :: cs ∧ isWord c = true := by
  cases hs : s.toList with
  | nil => exact absurd hs h.nonempty
  | cons c cs => exact ⟨c, cs, rfl, h.word c (hs ▸ List.mem_cons_self)⟩

/-- No character that is not a word character is in a name. -/
theorem IsName.not_mem {s : String} (h : IsName s) {d : Char} (hd : isWord d = false) :
    d ∉ s.toList :=
  fun hm => ne_of_isWord (h.word d hm) hd rfl

theorem IsName.isEmpty_eq_false {s : String} (h : IsName s) : s.isEmpty = false := by
  cases he : s.isEmpty with
  | false => rfl
  | true =>
    have : s = "" := by simpa using he
    exact absurd (by rw [this]; rfl) h.nonempty

/-! ## Runs -/

section Runs

variable {p : Char → Bool}

/-- Nothing that a text begins with is in `p`. -/
def StartsOutside (p : Char → Bool) (cs : List Char) : Prop :=
  ∀ c ∈ cs.head?, p c = false

instance (p : Char → Bool) (cs : List Char) : Decidable (StartsOutside p cs) :=
  decidable_of_iff (∀ c ∈ cs.head?.toList, p c = false)
    (by simp only [StartsOutside, Option.mem_toList, Option.mem_def])

theorem startsOutside_nil : StartsOutside p [] := by
  intro c hc
  simp at hc

theorem startsOutside_cons {c : Char} {cs : List Char} :
    StartsOutside p (c :: cs) ↔ p c = false := by
  simp [StartsOutside]

theorem takeWhile_eq_nil_of_startsOutside {cs : List Char} (h : StartsOutside p cs) :
    cs.takeWhile p = [] := by
  cases cs with
  | nil => rfl
  | cons c cs => rw [List.takeWhile_cons, startsOutside_cons.mp h]; rfl

theorem dropWhile_eq_self_of_startsOutside {cs : List Char} (h : StartsOutside p cs) :
    cs.dropWhile p = cs := by
  cases cs with
  | nil => rfl
  | cons c cs => rw [List.dropWhile_cons, startsOutside_cons.mp h]; rfl

theorem takeWhile_run {run rest : List Char} (hrun : ∀ c ∈ run, p c = true)
    (hrest : StartsOutside p rest) : (run ++ rest).takeWhile p = run := by
  rw [List.takeWhile_append_of_pos hrun, takeWhile_eq_nil_of_startsOutside hrest, List.append_nil]

theorem dropWhile_run {run rest : List Char} (hrun : ∀ c ∈ run, p c = true)
    (hrest : StartsOutside p rest) : (run ++ rest).dropWhile p = rest := by
  rw [List.dropWhile_append_of_pos hrun, dropWhile_eq_self_of_startsOutside hrest]

theorem startsOutside_dropWhile (cs : List Char) : StartsOutside p (cs.dropWhile p) := by
  intro c hc
  have := List.head?_dropWhile_not p cs
  rw [Option.mem_def.mp hc] at this
  simpa using this

/-- A run that ends in a text goes on no further with more behind the text. -/
theorem dropWhile_append {cs more : List Char}
    (h : cs.dropWhile p ≠ [] ∨ StartsOutside p more) :
    (cs ++ more).dropWhile p = cs.dropWhile p ++ more := by
  rw [List.dropWhile_append]
  cases hd : cs.dropWhile p with
  | nil => simpa using dropWhile_eq_self_of_startsOutside (h.resolve_left (absurd hd))
  | cons d ds => rfl

theorem takeWhile_append {cs : List Char} (h : cs.dropWhile p ≠ [])
    (more : List Char) : (cs ++ more).takeWhile p = cs.takeWhile p := by
  have hall := List.takeWhile_append_dropWhile (p := p) (l := cs ++ more)
  rw [dropWhile_append (.inl h), ← List.append_assoc] at hall
  exact List.append_cancel_right ((List.append_cancel_right hall).trans
    (List.takeWhile_append_dropWhile (p := p) (l := cs)).symm)

/-- Nothing that a text ends with is in `p`. -/
def EndsOutside (p : Char → Bool) (cs : List Char) : Prop :=
  ∀ c ∈ cs.getLast?, p c = false

instance (p : Char → Bool) (cs : List Char) : Decidable (EndsOutside p cs) :=
  decidable_of_iff (∀ c ∈ cs.getLast?.toList, p c = false)
    (by simp only [EndsOutside, Option.mem_toList, Option.mem_def])

theorem endsOutside_append_singleton (cs : List Char) {c : Char} :
    EndsOutside p (cs ++ [c]) ↔ p c = false := by
  simp [EndsOutside]

theorem endsOutside_append {cs ds : List Char} (hne : ds ≠ []) (h : EndsOutside p ds) :
    EndsOutside p (cs ++ ds) := by
  intro c hc
  cases hl : ds.getLast? with
  | none => exact absurd (List.getLast?_eq_none_iff.mp hl) hne
  | some d =>
    rw [List.getLast?_append, hl, Option.some_or] at hc
    exact h c (hl ▸ hc)

theorem endsOutside_nil : EndsOutside p [] := by
  intro c hc
  simp at hc

theorem EndsOutside.append {cs ds : List Char} (hcs : EndsOutside p cs) (hds : EndsOutside p ds) :
    EndsOutside p (cs ++ ds) := by
  by_cases hne : ds = []
  · rwa [hne, List.append_nil]
  · exact endsOutside_append hne hds

theorem endsOutside_flatMap {α : Type} {f : α → List Char} {xs : List α}
    (h : ∀ x ∈ xs, EndsOutside p (f x)) : EndsOutside p (xs.flatMap f) := by
  induction xs with
  | nil => exact endsOutside_nil
  | cons x xs ih =>
    rw [List.flatMap_cons]
    exact (h x List.mem_cons_self).append (ih fun y hy => h y (List.mem_cons_of_mem x hy))

theorem endsOutside_of_all {cs : List Char} (h : ∀ c ∈ cs, p c = false) : EndsOutside p cs :=
  fun c hc => h c (List.mem_of_getLast? hc)

theorem startsOutside_of_all {cs : List Char} (h : ∀ c ∈ cs, p c = false) : StartsOutside p cs :=
  fun c hc => h c (List.mem_of_mem_head? hc)

/-- No blank stands before a name, whatever follows it. -/
theorem IsName.startsOutside {s : String} (h : IsName s) (rest : List Char) :
    StartsOutside isBlank (s.toList ++ rest) := by
  obtain ⟨c, cs, hcs, hc⟩ := h.exists_cons
  rw [hcs]
  exact startsOutside_cons.mpr (isBlank_eq_false_of_isWord hc)

theorem IsName.endsOutside {s : String} (h : IsName s) : EndsOutside isBlank s.toList :=
  endsOutside_of_all fun c hc => isBlank_eq_false_of_isWord (h.word c hc)

theorem startsOutside_reverse {cs : List Char} : StartsOutside p cs.reverse ↔ EndsOutside p cs := by
  simp [StartsOutside, EndsOutside, List.head?_reverse]

/-- A last character outside `p` stays where it is. -/
theorem dropWhile_append_last {c : Char} (hc : p c = false) (cs : List Char) :
    (cs ++ [c]).dropWhile p = cs.dropWhile p ++ [c] := by
  induction cs with
  | nil => rw [List.nil_append, List.dropWhile_cons, hc]; rfl
  | cons d cs ih =>
    simp only [List.cons_append, List.dropWhile_cons]
    split
    · exact ih
    · rfl

theorem strip_cons {c : Char} (hc : p c = false) (cs : List Char) :
    strip p (c :: cs) = c :: (cs.reverse.dropWhile p).reverse := by
  unfold strip
  rw [List.dropWhile_cons, hc, if_neg Bool.false_ne_true, List.reverse_cons,
    dropWhile_append_last hc, List.reverse_append, List.reverse_singleton, List.singleton_append]

theorem strip_eq_self {cs : List Char} (hs : StartsOutside p cs) (he : EndsOutside p cs) :
    strip p cs = cs := by
  unfold strip
  rw [dropWhile_eq_self_of_startsOutside hs,
    dropWhile_eq_self_of_startsOutside (startsOutside_reverse.mpr he), List.reverse_reverse]

theorem strip_append_left {lead : List Char} (h : ∀ c ∈ lead, p c = true) (cs : List Char) :
    strip p (lead ++ cs) = strip p cs := by
  unfold strip
  rw [List.dropWhile_append_of_pos h]

theorem strip_append_right {trail : List Char} (h : ∀ c ∈ trail, p c = true) (cs : List Char) :
    strip p (cs ++ trail) = strip p cs := by
  unfold strip
  rw [List.dropWhile_append]
  cases hd : cs.dropWhile p with
  | nil =>
    have htrail : (trail ++ []).dropWhile p = [] := List.dropWhile_append_of_pos h
    rw [List.append_nil] at htrail
    rw [List.isEmpty_nil, if_pos rfl, htrail]
  | cons d ds =>
    rw [List.isEmpty_cons, if_neg Bool.false_ne_true, List.reverse_append,
      List.dropWhile_append_of_pos fun c hc => h c (List.mem_reverse.mp hc)]

theorem trim_cons_space (cs : List Char) : trim (' ' :: cs) = trim cs :=
  strip_append_left (show ∀ c ∈ [' '], isBlank c = true by decide) cs

theorem strip_eq_nil {cs : List Char} (h : ∀ c ∈ cs, p c = true) : strip p cs = [] := by
  have := strip_append_left h []
  rw [List.append_nil] at this
  rw [this]
  rfl

/-- What is stripped off. -/
theorem exists_strip (p : Char → Bool) (cs : List Char) :
    ∃ lead trail, cs = lead ++ (strip p cs ++ trail) ∧ (∀ c ∈ lead, p c = true)
      ∧ ∀ c ∈ trail, p c = true := by
  refine ⟨cs.takeWhile p, ((cs.dropWhile p).reverse.takeWhile p).reverse, ?_, ?_, ?_⟩
  · unfold strip
    rw [← List.reverse_append, List.takeWhile_append_dropWhile, List.reverse_reverse,
      List.takeWhile_append_dropWhile]
  · exact List.all_eq_true.mp List.all_takeWhile
  · intro c hc
    exact List.all_eq_true.mp List.all_takeWhile c (List.mem_reverse.mp hc)

theorem mem_of_mem_strip {cs : List Char} {c : Char} (h : c ∈ strip p cs) : c ∈ cs := by
  unfold strip at h
  rw [List.mem_reverse] at h
  exact List.dropWhile_subset p (List.mem_reverse.mp (List.dropWhile_subset p h))

theorem endsOutside_strip (cs : List Char) : EndsOutside p (strip p cs) := by
  rw [← startsOutside_reverse]
  unfold strip
  rw [List.reverse_reverse]
  exact startsOutside_dropWhile _

theorem startsOutside_strip (cs : List Char) : StartsOutside p (strip p cs) := by
  -- what is left is a prefix of a text that starts outside `p`
  have hpre : strip p cs <+: cs.dropWhile p := by
    unfold strip
    rw [← List.reverse_suffix, List.reverse_reverse]
    exact List.dropWhile_suffix p
  obtain ⟨tail, ht⟩ := hpre
  intro c hc
  apply startsOutside_dropWhile (p := p) cs c
  rw [← ht]
  cases hs : strip p cs with
  | nil => rw [hs] at hc; simp at hc
  | cons d ds => rw [hs] at hc; simpa using hc

end Runs

/-! ## Pieces -/

theorem after?_append (lead rest : List Char) : after? lead (lead ++ rest) = some rest := by
  induction lead with
  | nil => rfl
  | cons c lead ih => simp [after?, ih]

theorem pieces_eq_singleton {sep : Char} {piece : List Char} (h : sep ∉ piece) :
    pieces sep piece = [piece] := by
  induction piece with
  | nil => rfl
  | cons c piece ih =>
    rw [List.mem_cons, not_or] at h
    rw [pieces, if_neg (Ne.symm h.1), ih h.2]

theorem pieces_append {sep : Char} {piece : List Char} (h : sep ∉ piece) (rest : List Char) :
    pieces sep (piece ++ sep :: rest) = piece :: pieces sep rest := by
  induction piece with
  | nil => rw [List.nil_append, pieces, if_pos rfl]
  | cons c piece ih =>
    rw [List.mem_cons, not_or] at h
    rw [List.cons_append, pieces, if_neg (Ne.symm h.1), ih h.2]

theorem mem_of_mem_intercalate {sep d : Char} {ps : List (List Char)}
    (h : d ∈ [sep].intercalate ps) : d = sep ∨ ∃ p ∈ ps, d ∈ p := by
  induction ps with
  | nil => exact absurd h (by simp [List.intercalate])
  | cons p ps ih =>
    cases ps with
    | nil =>
      rw [List.intercalate_singleton] at h
      exact Or.inr ⟨p, List.mem_cons_self, h⟩
    | cons q ps =>
      rw [List.intercalate_cons_cons, List.mem_append, List.mem_append, List.mem_singleton] at h
      rcases h with (h | h) | h
      · exact Or.inr ⟨p, List.mem_cons_self, h⟩
      · exact Or.inl h
      · rcases ih h with h | ⟨r, hr, h⟩
        · exact Or.inl h
        · exact Or.inr ⟨r, List.mem_cons_of_mem p hr, h⟩

/-- **Joined pieces are found again**, if the separator is in none of them. -/
theorem pieces_intercalate {sep : Char} {ps : List (List Char)} (hne : ps ≠ [])
    (h : ∀ p ∈ ps, sep ∉ p) : pieces sep ([sep].intercalate ps) = ps := by
  induction ps with
  | nil => exact absurd rfl hne
  | cons p ps ih =>
    have hp := h p List.mem_cons_self
    cases ps with
    | nil => rw [List.intercalate_singleton, pieces_eq_singleton hp]
    | cons q ps =>
      rw [List.intercalate_cons_cons, List.append_assoc, List.singleton_append, pieces_append hp,
        ih (List.cons_ne_nil q ps) fun r hr => h r (List.mem_cons_of_mem p hr)]

theorem joinWith_eq_intercalate (sep : List Char) (ps : List (List Char)) :
    joinWith sep ps = sep.intercalate ps := by
  induction ps with
  | nil => rfl
  | cons p ps ih =>
    cases ps with
    | nil => exact List.intercalate_singleton.symm
    | cons q ps => rw [joinWith, ih, List.intercalate_cons_cons]; exact List.cons_ne_nil q ps

/-- **Pieces that are joined again make the text.** -/
theorem intercalate_pieces (sep : Char) (cs : List Char) :
    [sep].intercalate (pieces sep cs) = cs := by
  rw [← joinWith_eq_intercalate, joinWith_pieces]

/-! ## Lines -/

/-- No character of a text ends a line. -/
def OneLine (cs : List Char) : Prop :=
  ∀ c ∈ cs, isLineEnd c = false

instance (cs : List Char) : Decidable (OneLine cs) :=
  inferInstanceAs (Decidable (∀ c ∈ cs, isLineEnd c = false))

theorem OneLine.append {cs ds : List Char} (hcs : OneLine cs) (hds : OneLine ds) :
    OneLine (cs ++ ds) := by
  intro c hc
  rcases List.mem_append.mp hc with hc | hc
  · exact hcs c hc
  · exact hds c hc

theorem IsName.oneLine {s : String} (h : IsName s) : OneLine s.toList :=
  fun c hc => isLineEnd_eq_false_of_isWord (h.word c hc)

theorem splitLines_go_append {line : List Char} (h : OneLine line)
    (run rest : List Char) :
    splitLines.go run (line ++ rest) = splitLines.go (line.reverse ++ run) rest := by
  induction line generalizing run with
  | nil => rfl
  | cons c line ih =>
    have hc : isLineEnd c = false := h c List.mem_cons_self
    have hr : ∀ tail, c = '\r' → line ++ rest = '\n' :: tail → False := by
      rintro _ rfl -
      exact absurd hc (by decide)
    rw [List.cons_append, splitLines.go.eq_3 _ _ _ hr, hc]
    rw [if_neg Bool.false_ne_true, ih fun d hd => h d (List.mem_cons_of_mem c hd)]
    simp

theorem splitLines_go_lineFeed (run rest : List Char) :
    splitLines.go run ('\n' :: rest) = run.reverse :: splitLines.go [] rest := by
  rw [splitLines.go.eq_3 _ _ _ (by simp)]
  rw [if_pos (by decide)]

/-- **Joined lines are found again**, if none has a line end of its own and the last is not
empty. -/
theorem splitLines_intercalate {lines : List (List Char)}
    (h : ∀ l ∈ lines, OneLine l) (hlast : lines.getLast? ≠ some []) :
    splitLines (['\n'].intercalate lines) = lines := by
  unfold splitLines
  induction lines with
  | nil => rfl
  | cons line lines ih =>
    have hline := h line List.mem_cons_self
    cases lines with
    | nil =>
      have hne : line ≠ [] := by simpa using hlast
      have := splitLines_go_append hline [] []
      rw [List.append_nil, List.append_nil] at this
      rw [List.intercalate_singleton, this]
      simp [splitLines.go, hne]
    | cons next lines =>
      rw [List.intercalate_cons_cons, List.append_assoc, splitLines_go_append hline]
      rw [List.singleton_append, splitLines_go_lineFeed,
        ih fun l hl => h l (List.mem_cons_of_mem _ hl)]
      · simp
      · simpa using hlast

/-- **The lines of two texts that a line feed joins** are those of the first and those of the second.
A line end at the end of the first leaves an empty line between them, unless it is a carriage return,
which is one line end with the line feed. -/
theorem splitLines_go_append_lineFeed (run cs rest : List Char) :
    ∃ gap, (∀ line ∈ gap, line = []) ∧ splitLines.go run (cs ++ '\n' :: rest)
      = splitLines.go run cs ++ (gap ++ splitLines rest) := by
  -- a carriage return at the end makes one line end with the line feed
  have hnext : ∀ {c cs}, (∀ tail, c = '\r' → cs = '\n' :: tail → False) → ¬(c = '\r' ∧ cs = []) →
      ∀ tail, c = '\r' → cs ++ '\n' :: rest = '\n' :: tail → False := by
    intro c cs happart hmore tail hreturn heq
    cases cs with
    | nil => exact hmore ⟨hreturn, rfl⟩
    | cons d cs => exact happart cs hreturn (by rw [(List.cons.inj heq).1])
  fun_induction splitLines.go run cs with
  | case1 run hempty =>
    rw [List.isEmpty_iff.mp hempty]
    exact ⟨[[]], by simp, splitLines_go_lineFeed [] rest⟩
  | case2 run hempty => exact ⟨[], by simp, splitLines_go_lineFeed run rest⟩
  | case3 run cs ih =>
    obtain ⟨gap, hgap, hgo⟩ := ih
    refine ⟨gap, hgap, ?_⟩
    rw [List.cons_append, List.cons_append, splitLines.go.eq_2, hgo, List.cons_append]
  | case4 run c cs happart hend ih =>
    by_cases hlast : c = '\r' ∧ cs = []
    · refine ⟨[], by simp, ?_⟩
      rw [hlast.1, hlast.2, List.singleton_append, splitLines.go.eq_2]
      rfl
    · obtain ⟨gap, hgap, hgo⟩ := ih
      refine ⟨gap, hgap, ?_⟩
      rw [List.cons_append, splitLines.go.eq_3 _ _ _ (hnext happart hlast), if_pos hend, hgo,
        List.cons_append]
  | case5 run c cs happart hend ih =>
    have hlast : ¬(c = '\r' ∧ cs = []) := by
      rintro ⟨rfl, -⟩
      exact hend (by decide)
    obtain ⟨gap, hgap, hgo⟩ := ih
    refine ⟨gap, hgap, ?_⟩
    rw [List.cons_append, splitLines.go.eq_3 _ _ _ (hnext happart hlast), if_neg hend, hgo]

/-- What follows a line feed is cut the same way, whatever is before it. -/
theorem mem_splitLines_go_append {line rest : List Char} (h : line ∈ splitLines.go [] rest)
    (run cs : List Char) : line ∈ splitLines.go run (cs ++ '\n' :: rest) := by
  obtain ⟨gap, -, hgo⟩ := splitLines_go_append_lineFeed run cs rest
  rw [hgo]
  exact List.mem_append_right _ (List.mem_append_right _ h)

/-- **A joined line is found again** if it has no line end of its own, whatever the other lines
are. -/
theorem mem_splitLines_intercalate {lines : List (List Char)} {line : List Char}
    (h : line ∈ lines) (hline : OneLine line) (hne : line ≠ []) :
    line ∈ splitLines (['\n'].intercalate lines) := by
  unfold splitLines
  induction lines with
  | nil => exact absurd h (by simp)
  | cons first lines ih =>
    cases lines with
    | nil =>
      have hgo := splitLines_go_append hline [] []
      rw [List.append_nil, List.append_nil] at hgo
      rw [List.intercalate_singleton, ← List.mem_singleton.mp h, hgo]
      simp [splitLines.go, hne]
    | cons next lines =>
      rw [List.intercalate_cons_cons, List.append_assoc, List.singleton_append]
      rcases List.mem_cons.mp h with rfl | h
      · rw [splitLines_go_append hline, splitLines_go_lineFeed]
        simp
      · exact mem_splitLines_go_append (ih h) [] first

/-! ## Order -/

/-- Two names are in order, or they change places. -/
theorem sorted_pair (a b : String) : sorted [a, b] = [a, b] ∨ sorted [a, b] = [b, a] :=
  List.perm_pair.mp (List.mergeSort_perm _ _)

/-- The order of strings does not depend on how they are listed. -/
theorem sorted_congr {as bs : List String} (h : as.Perm bs) : sorted as = sorted bs := by
  have htrans : ∀ a b c : String, le a b = true → le b c = true → le a c = true := by
    intro a b c hab hbc
    exact decide_eq_true (String.le_trans (of_decide_eq_true hab) (of_decide_eq_true hbc))
  have htotal : ∀ a b : String, (le a b || le b a) = true := by
    intro a b
    rw [Bool.or_eq_true]
    exact (String.le_total a b).imp decide_eq_true decide_eq_true
  have hperm : (sorted as).Perm (sorted bs) :=
    (List.mergeSort_perm as le).trans (h.trans (List.mergeSort_perm bs le).symm)
  refine List.Perm.eq_of_pairwise ?_ (List.pairwise_mergeSort htrans htotal as)
    (List.pairwise_mergeSort htrans htotal bs) hperm
  intro a b _ _ hab hba
  exact String.le_antisymm (of_decide_eq_true hab) (of_decide_eq_true hba)

end Crowsfoot.Text
