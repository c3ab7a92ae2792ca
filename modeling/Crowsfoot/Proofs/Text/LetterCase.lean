import Crowsfoot.Proofs.Text.Words
import Crowsfoot.Text.Case

/-!
# Letter case in any script

ASCII is put in lower case character by character (`lower_of_isAscii`), and a fact about all of it
is decided (`forall_isAscii`).

The case mappings can turn a letter into one with combining marks behind it, which are no letters.
`isSpelling` are the characters that can come out of letters and numerals, however often they are
mapped: letters, numerals, and nine marks (`isSpelling_lower`, `isSpelling_upperChar`). The marks
stay what they are (`IsFixed`), so that they cannot get lost (`mem_lower`, `mem_upper`).

Nothing in lower case has a lower case other than itself (`lowerChar_of_mem_lower`), and what
separates words is the lower case of nothing else (`eq_of_mem_lowerChar`). A text that ends in no
ASCII letter or digit does not get one at its end (`exists_lower_endsOutside`), but for one sign
whose lower case is a letter of ASCII (`kelvinSign`).

The tables are looked at entry by entry: a shift keeps characters in some ranges if it moves its
span into one of them, or has nothing to do with them (`Shift.keeps`).
-/

namespace Crowsfoot.Text

/-! ## ASCII -/

/-- A fact about all ASCII characters is decided on their code points. -/
theorem forall_isAscii {P : Char → Prop} (h : ∀ n < 128, P (Char.ofNat n)) {c : Char}
    (hc : isAscii c = true) : P c := by
  have := h c.toNat (of_decide_eq_true hc)
  rwa [Char.ofNat_toNat] at this

theorem lowerAfter_of_isAscii {cs : List Char} (h : ∀ c ∈ cs, isAscii c = true) (follows : Bool) :
    lowerAfter follows cs = cs.map Char.toLower := by
  induction cs generalizing follows with
  | nil => rfl
  | cons c cs ih =>
    have hc := h c List.mem_cons_self
    have hsigma : c.toNat ≠ 0x3A3 := by
      have : c.toNat < 128 := of_decide_eq_true hc
      omega
    unfold lowerAfter
    dsimp only
    rw [if_neg hsigma, ih fun d hd => h d (List.mem_cons_of_mem c hd)]
    simp [lowerChar, hc]

/-- ASCII text is put in lower case character by character. -/
theorem lower_of_isAscii {cs : List Char} (h : ∀ c ∈ cs, isAscii c = true) :
    lower cs = cs.map Char.toLower :=
  lowerAfter_of_isAscii h false

/-! ## Shifts -/

/-- Whether one of the ranges covers all points from `a` to `b`. -/
def covers (a b : Nat) : List (Nat × Nat) → Bool
  | [] => false
  | r :: rs => (Nat.ble r.1 a && Nat.ble b r.2) || covers a b rs

/-- Whether no point from `a` to `b` lies in one of the ranges. -/
def avoids (a b : Nat) : List (Nat × Nat) → Bool
  | [] => true
  | r :: rs => (Nat.blt b r.1 || Nat.blt r.2 a) && avoids a b rs

/-- The code point that a shift moves another to. -/
def Shift.image (s : Shift) (n : Nat) : Nat :=
  (n + s.offset).toNat

/-- Whether a shift keeps characters in the ranges: the image of its span lies in one of them, its
span lies in none, or the image of each of its points lies in one. -/
def Shift.keeps (ranges : List (Nat × Nat)) (s : Shift) : Bool :=
  covers (s.image s.span.first) (s.image s.span.last) ranges
    || avoids s.span.first s.span.last ranges
    || (List.range' s.span.first (s.span.last + 1 - s.span.first)).all fun n =>
      !s.span.has n || covers (s.image n) (s.image n) ranges

theorem covers_iff {a b : Nat} {ranges : List (Nat × Nat)} :
    covers a b ranges = true ↔ ∃ r ∈ ranges, r.1 ≤ a ∧ b ≤ r.2 := by
  induction ranges with
  | nil => simp [covers]
  | cons r ranges ih =>
    rw [covers, Bool.or_eq_true, Bool.and_eq_true, Nat.ble_eq, Nat.ble_eq, ih]
    simp

theorem avoids_iff {a b : Nat} {ranges : List (Nat × Nat)} :
    avoids a b ranges = true ↔ ∀ r ∈ ranges, b < r.1 ∨ r.2 < a := by
  induction ranges with
  | nil => simp [avoids]
  | cons r ranges ih =>
    rw [avoids, Bool.and_eq_true, Bool.or_eq_true, Nat.blt_eq, Nat.blt_eq, ih]
    simp

theorem inRanges_iff {ranges : List (Nat × Nat)} {c : Char} :
    inRanges ranges c = true ↔ ∃ r ∈ ranges, r.1 ≤ c.toNat ∧ c.toNat ≤ r.2 := by
  simp [inRanges]

/-- The range holds code points of characters only. -/
def isScalarRange (r : Nat × Nat) : Bool :=
  Nat.blt r.2 0xD800 || (Nat.blt 0xDFFF r.1 && Nat.blt r.2 0x110000)

theorem isValidChar_of_mem {r : Nat × Nat} (hscalar : isScalarRange r = true) {n : Nat}
    (hn : r.1 ≤ n ∧ n ≤ r.2) : n.isValidChar := by
  simp only [isScalarRange, Bool.or_eq_true, Bool.and_eq_true, Nat.blt_eq] at hscalar
  unfold Nat.isValidChar
  omega

/-- A character stays if no shift has it. A shift moves it to its image, or to the null character if
no character is there. -/
theorem shifted_cases (shifts : List Shift) (c : Char) :
    (shifts.find? (fun s => s.span.has c.toNat) = none ∧ shifted shifts c = c)
      ∨ ∃ s ∈ shifts, s.span.has c.toNat = true
        ∧ ((shifted shifts c).toNat = s.image c.toNat
          ∨ ¬(s.image c.toNat).isValidChar ∧ shifted shifts c = Char.ofNat 0) := by
  unfold shifted
  cases hfind : shifts.find? fun s => s.span.has c.toNat with
  | none => exact Or.inl ⟨rfl, rfl⟩
  | some s =>
    have hspan := List.find?_some hfind
    refine Or.inr ⟨s, List.mem_of_find?_eq_some hfind, hspan, ?_⟩
    show (Char.ofNat (s.image c.toNat)).toNat = s.image c.toNat
      ∨ ¬(s.image c.toNat).isValidChar ∧ Char.ofNat (s.image c.toNat) = Char.ofNat 0
    by_cases hvalid : (s.image c.toNat).isValidChar
    · left
      rw [Char.ofNat, dif_pos hvalid]
      rfl
    · right
      rw [Char.ofNat, dif_neg hvalid]
      exact ⟨hvalid, rfl⟩

/-- **Shifts keep characters in ranges** if each of them does. -/
theorem inRanges_shifted {ranges : List (Nat × Nat)} {shifts : List Shift}
    (hscalar : ∀ r ∈ ranges, isScalarRange r = true) (hkeeps : ∀ s ∈ shifts, s.keeps ranges = true)
    {c : Char} (hc : inRanges ranges c = true) : inRanges ranges (shifted shifts c) = true := by
  rcases shifted_cases shifts c with ⟨-, hstays⟩ | ⟨s, hs, hhas, hmoved⟩
  · rwa [hstays]
  have hspan := hhas
  simp only [Span.has, Bool.and_eq_true, decide_eq_true_eq] at hspan
  obtain ⟨⟨hfirst, hlast⟩, -⟩ := hspan
  have himage : ∃ r ∈ ranges, r.1 ≤ s.image c.toNat ∧ s.image c.toNat ≤ r.2 := by
    have hs := hkeeps s hs
    unfold Shift.keeps at hs
    rw [Bool.or_eq_true, Bool.or_eq_true] at hs
    rcases hs with (hs | hs) | hs
    · obtain ⟨r, hr, hbounds⟩ := covers_iff.mp hs
      refine ⟨r, hr, ?_⟩
      unfold Shift.image at hbounds ⊢
      omega
    · obtain ⟨r, hr, hbounds⟩ := inRanges_iff.mp hc
      have := avoids_iff.mp hs r hr
      omega
    · have hpoint := List.all_eq_true.mp hs c.toNat (List.mem_range'_1.mpr (by omega))
      rw [hhas, Bool.not_true, Bool.false_or] at hpoint
      exact covers_iff.mp hpoint
  obtain ⟨r, hr, hbounds⟩ := himage
  have hpoint := hmoved.resolve_right fun h => h.1 (isValidChar_of_mem (hscalar r hr) hbounds)
  rw [inRanges_iff]
  exact ⟨r, hr, by rwa [hpoint]⟩

/-! ## Spelling -/

/-- Combining marks that the case mappings put behind letters. -/
def caseMarks : List Nat :=
  [0x300, 0x301, 0x307, 0x308, 0x30A, 0x30C, 0x313, 0x331, 0x342]

/-- Letters, numerals, and the marks that case mappings put behind them. -/
def isSpelling (c : Char) : Bool :=
  isAlphanumeric c || caseMarks.contains c.toNat

/-- The code points of letters, numerals and marks. -/
def spellingRanges : List (Nat × Nat) :=
  [(0x30, 0x39), (0x41, 0x5A), (0x61, 0x7A)]
    ++ (caseMarks.map (fun n => (n, n)) ++ alphanumericRanges)

/-- Letters, numerals and marks beyond ASCII are beyond ASCII. -/
theorem lt_of_mem_beyond {r : Nat × Nat}
    (h : r ∈ caseMarks.map (fun n => (n, n)) ++ alphanumericRanges) :
    127 < r.1 ∧ isScalarRange r = true := by
  have hall : (caseMarks.map (fun n => (n, n)) ++ alphanumericRanges).all (fun r =>
      Nat.blt 127 r.1 && isScalarRange r) = true := by
    decide +kernel
  have hr := List.all_eq_true.mp hall r h
  rwa [Bool.and_eq_true, Nat.blt_eq] at hr

theorem isScalarRange_spellingRanges : ∀ r ∈ spellingRanges, isScalarRange r = true := by
  intro r hr
  rcases List.mem_append.mp hr with hr | hr
  · exact (by decide : ∀ r ∈ [(0x30, 0x39), (0x41, 0x5A), (0x61, 0x7A)], isScalarRange r = true)
      r hr
  · exact (lt_of_mem_beyond hr).2

/-- The marks of case are beyond ASCII. -/
theorem contains_caseMarks_of_isAscii {c : Char} (hascii : isAscii c = true) :
    caseMarks.contains c.toNat = false := by
  have hlow : c.toNat < 128 := of_decide_eq_true hascii
  simp only [caseMarks, List.contains_eq_mem, List.mem_cons, List.not_mem_nil, or_false,
    decide_eq_false_iff_not]
  omega

theorem contains_caseMarks_eq (c : Char) :
    caseMarks.contains c.toNat = inRanges (caseMarks.map fun n => (n, n)) c := by
  rw [Bool.eq_iff_iff, inRanges_iff, List.contains_iff_mem]
  constructor
  · exact fun h => ⟨_, List.mem_map_of_mem h, le_rfl, le_rfl⟩
  · rintro ⟨r, hr, hbounds⟩
    obtain ⟨n, hn, rfl⟩ := List.mem_map.mp hr
    have heq : c.toNat = n := by
      dsimp only at hbounds
      omega
    rwa [heq]

theorem isSpelling_eq (c : Char) : isSpelling c = inRanges spellingRanges c := by
  have hparts : inRanges spellingRanges c
      = (inRanges [(0x30, 0x39), (0x41, 0x5A), (0x61, 0x7A)] c
        || inRanges (caseMarks.map (fun n => (n, n)) ++ alphanumericRanges) c) := by
    unfold inRanges spellingRanges
    exact List.any_append
  unfold isSpelling isAlphanumeric
  rw [hparts]
  by_cases hascii : isAscii c = true
  · have hplain : c.isAlphanum = inRanges [(0x30, 0x39), (0x41, 0x5A), (0x61, 0x7A)] c :=
      forall_isAscii
        (P := fun c => c.isAlphanum = inRanges [(0x30, 0x39), (0x41, 0x5A), (0x61, 0x7A)] c)
        (by decide) hascii
    have hlow : c.toNat < 128 := of_decide_eq_true hascii
    have hbeyond : inRanges (caseMarks.map (fun n => (n, n)) ++ alphanumericRanges) c = false := by
      rw [← Bool.not_eq_true, inRanges_iff]
      rintro ⟨r, hr, hbounds⟩
      have := (lt_of_mem_beyond hr).1
      omega
    rw [if_pos hascii, hplain, hbeyond, contains_caseMarks_of_isAscii hascii]
  · have hlow : ¬c.toNat < 128 := fun h => hascii (decide_eq_true h)
    have hplain : inRanges [(0x30, 0x39), (0x41, 0x5A), (0x61, 0x7A)] c = false := by
      simp only [inRanges, List.any_cons, List.any_nil, Bool.or_false, Bool.or_eq_false_iff,
        Bool.and_eq_false_iff, decide_eq_false_iff_not]
      omega
    rw [if_neg hascii, hplain, contains_caseMarks_eq, Bool.false_or, Bool.or_comm]
    exact List.any_append.symm

theorem lowerShifts_keep : ∀ s ∈ lowerShifts, s.keeps spellingRanges = true := by
  rw [← List.all_eq_true]
  decide +kernel

theorem upperShifts_keep : ∀ s ∈ upperShifts, s.keeps spellingRanges = true := by
  rw [← List.all_eq_true]
  decide +kernel

theorem isSpelling_shifted {shifts : List Shift}
    (hkeep : ∀ s ∈ shifts, s.keeps spellingRanges = true) {c : Char} (h : isSpelling c = true) :
    isSpelling (shifted shifts c) = true := by
  rw [isSpelling_eq] at h ⊢
  exact inRanges_shifted isScalarRange_spellingRanges hkeep h

theorem isSpelling_of_isAlphanum {c : Char} (hascii : isAscii c = true) (h : c.isAlphanum = true) :
    isSpelling c = true := by
  unfold isSpelling isAlphanumeric
  rw [if_pos hascii, h, Bool.true_or]

/-- What spelling is among ASCII stays spelling in another case. -/
theorem isSpelling_ascii {c : Char} (hascii : isAscii c = true) (h : isSpelling c = true) :
    isSpelling c.toLower = true ∧ isSpelling c.toUpper = true := by
  unfold isSpelling isAlphanumeric at h
  rw [if_pos hascii, contains_caseMarks_of_isAscii hascii, Bool.or_false] at h
  have hall : c.isAlphanum = true → (isAscii c.toLower = true ∧ c.toLower.isAlphanum = true)
      ∧ isAscii c.toUpper = true ∧ c.toUpper.isAlphanum = true :=
    forall_isAscii (P := fun c => c.isAlphanum = true →
      (isAscii c.toLower = true ∧ c.toLower.isAlphanum = true)
        ∧ isAscii c.toUpper = true ∧ c.toUpper.isAlphanum = true) (by decide) hascii
  obtain ⟨⟨hl, hl'⟩, hu, hu'⟩ := hall h
  exact ⟨isSpelling_of_isAlphanum hl hl', isSpelling_of_isAlphanum hu hu'⟩

theorem isSpelling_lowerChar {c : Char} (h : isSpelling c = true) :
    ∀ d ∈ lowerChar c, isSpelling d = true := by
  intro d hd
  unfold lowerChar at hd
  split at hd
  · rename_i hascii
    rw [List.mem_singleton.mp hd]
    exact (isSpelling_ascii hascii h).1
  · split at hd
    · exact (by decide +kernel : ∀ d ∈ ['i', Char.ofNat 0x307], isSpelling d = true) d hd
    · rw [List.mem_singleton.mp hd]
      exact isSpelling_shifted lowerShifts_keep h

theorem isSpelling_upperChar {c : Char} (h : isSpelling c = true) :
    ∀ d ∈ upperChar c, isSpelling d = true := by
  have hexpansions : ∀ e ∈ upperExpansions, ∀ n ∈ e.2, isSpelling (Char.ofNat n) = true := by
    decide +kernel
  intro d hd
  unfold upperChar at hd
  split at hd
  · rename_i hascii
    rw [List.mem_singleton.mp hd]
    exact (isSpelling_ascii hascii h).2
  · split at hd
    · rename_i e he
      obtain ⟨n, hn, rfl⟩ := List.mem_map.mp hd
      exact hexpansions e (List.mem_of_find?_eq_some he) n hn
    · rw [List.mem_singleton.mp hd]
      exact isSpelling_shifted upperShifts_keep h

/-- What each mapping to lower case keeps holds of the lower case of a text. -/
theorem forall_mem_lower {P : Char → Prop}
    (hsigma : P (Char.ofNat 0x3C2) ∧ P (Char.ofNat 0x3C3))
    (hstep : ∀ c, P c → ∀ d ∈ lowerChar c, P d) {cs : List Char} (h : ∀ c ∈ cs, P c) :
    ∀ c ∈ lower cs, P c := by
  unfold lower
  generalize false = follows
  induction cs generalizing follows with
  | nil => simp [lowerAfter]
  | cons d cs ih =>
    intro c hc
    unfold lowerAfter at hc
    dsimp only at hc
    rcases List.mem_append.mp hc with hc | hc
    · split at hc
      · rw [List.mem_singleton.mp hc]
        split
        · exact hsigma.1
        · exact hsigma.2
      · exact hstep d (h d List.mem_cons_self) c hc
    · exact ih (fun e he => h e (List.mem_cons_of_mem d he)) _ c hc

/-- **Lower case is spelling** if the text is. -/
theorem isSpelling_lower {cs : List Char} (h : ∀ c ∈ cs, isSpelling c = true) :
    ∀ c ∈ lower cs, isSpelling c = true :=
  forall_mem_lower (by decide) (fun _ => isSpelling_lowerChar) h

/-! ## What stays -/

/-- A character that has no other case. -/
structure IsFixed (c : Char) : Prop where
  lower : lowerChar c = [c]
  upper : upperChar c = [c]
  notSigma : c.toNat ≠ 0x3A3

theorem isFixed_of_mem_caseMarks {c : Char} (h : c.toNat ∈ caseMarks) : IsFixed c := by
  have hall : ∀ n ∈ caseMarks, lowerChar (Char.ofNat n) = [Char.ofNat n]
      ∧ upperChar (Char.ofNat n) = [Char.ofNat n] ∧ n ≠ 0x3A3 := by
    decide
  have hc := hall c.toNat h
  rw [Char.ofNat_toNat] at hc
  exact ⟨hc.1, hc.2.1, hc.2.2⟩

/-- What has no other case stays in the text. -/
theorem mem_lower {c : Char} (hfixed : IsFixed c) {cs : List Char} (h : c ∈ cs) : c ∈ lower cs := by
  unfold lower
  generalize false = follows
  induction cs generalizing follows with
  | nil => exact absurd h (by simp)
  | cons d cs ih =>
    unfold lowerAfter
    dsimp only
    rcases List.mem_cons.mp h with rfl | h
    · rw [if_neg hfixed.notSigma, hfixed.lower]
      exact List.mem_append_left _ (List.mem_singleton_self c)
    · exact List.mem_append_right _ (ih h _)

theorem mem_upper {c : Char} (hfixed : IsFixed c) {cs : List Char} (h : c ∈ cs) : c ∈ upper cs := by
  unfold upper
  rw [List.mem_flatMap]
  exact ⟨c, h, by rw [hfixed.upper]; exact List.mem_singleton_self c⟩

/-! ## Capitals -/

theorem isUpper_of_beyond {c : Char} (h : 0x5A < c.toNat) : c.isUpper = false := by
  rw [← Bool.not_eq_true, isUpper_iff]
  omega

/-- No shift to lower case leads to a capital of ASCII, or into ASCII before them. -/
theorem lt_image_lowerShifts {s : Shift} (h : s ∈ lowerShifts) :
    0x5A < s.image s.span.first := by
  have hall : lowerShifts.all (fun s => Nat.blt 0x5A (s.image s.span.first)) = true := by
    decide
  simpa using List.all_eq_true.mp hall s h

theorem isUpper_shifted {c : Char} (h : 0x5A < c.toNat) :
    (shifted lowerShifts c).isUpper = false := by
  rcases shifted_cases lowerShifts c with ⟨-, hstays⟩ | ⟨s, hs, hspan, hpoint | ⟨-, hnull⟩⟩
  · rw [hstays]
    exact isUpper_of_beyond h
  · have hfirst := lt_image_lowerShifts hs
    simp only [Span.has, Bool.and_eq_true, decide_eq_true_eq] at hspan
    refine isUpper_of_beyond ?_
    unfold Shift.image at hfirst hpoint
    omega
  · rw [hnull]
    rfl

theorem isUpper_lowerChar (c : Char) : ∀ d ∈ lowerChar c, d.isUpper = false := by
  intro d hd
  unfold lowerChar at hd
  split at hd
  · rename_i hascii
    rw [List.mem_singleton.mp hd]
    exact forall_isAscii (P := fun c => c.toLower.isUpper = false) (by decide) hascii
  · rename_i hascii
    have hlow : ¬c.toNat < 128 := fun h => hascii (decide_eq_true h)
    split at hd
    · exact (by decide : ∀ d ∈ ['i', Char.ofNat 0x307], d.isUpper = false) d hd
    · rw [List.mem_singleton.mp hd]
      exact isUpper_shifted (by omega)

/-! ## Lower case stays -/

/-- Whether a shift moves no point into a span: the images lie apart from it, or between its
points. -/
def Shift.misses (s : Shift) (t : Span) : Bool :=
  Nat.blt (s.image s.span.last) t.first || Nat.blt t.last (s.image s.span.first)
    || (t.step == 2 && (s.span.step == 2 || s.span.first == s.span.last)
      && (s.image s.span.first + t.first) % 2 == 1)

theorem Shift.has_image_eq_false {s : Shift} {t : Span} (h : s.misses t = true)
    (hpos : 0 < s.image s.span.first) {n : Nat} (hn : s.span.has n = true) :
    t.has (s.image n) = false := by
  unfold Span.has at hn
  simp only [Bool.and_eq_true, decide_eq_true_eq, beq_iff_eq] at hn
  obtain ⟨⟨hfirst, hlast⟩, hstep⟩ := hn
  have himage : s.image n = s.image s.span.first + (n - s.span.first)
      ∧ s.image n ≤ s.image s.span.last := by
    unfold Shift.image at hpos ⊢
    omega
  rw [← Bool.not_eq_true]
  intro hhas
  unfold Span.has at hhas
  simp only [Bool.and_eq_true, decide_eq_true_eq, beq_iff_eq] at hhas
  obtain ⟨⟨hfirst', hlast'⟩, hstep'⟩ := hhas
  unfold Shift.misses at h
  simp only [Bool.or_eq_true, Bool.and_eq_true, Nat.blt_eq, beq_iff_eq] at h
  rcases h with (h | h) | ⟨⟨htwo, hpoints⟩, hodd⟩
  · omega
  · omega
  · rw [htwo] at hstep'
    rcases hpoints with hpoints | hpoints
    · rw [hpoints] at hstep
      omega
    · omega

/-- What is moved to lower case is moved to where nothing is moved from. -/
theorem lowerShifts_miss {s : Shift} (hs : s ∈ lowerShifts) :
    (∀ t ∈ lowerShifts, s.misses t.span = true) ∧ s.misses ⟨0x130, 0x130, 1⟩ = true := by
  have hall : lowerShifts.all (fun s =>
      lowerShifts.all (fun t => s.misses t.span) && s.misses ⟨0x130, 0x130, 1⟩) = true := by
    decide +kernel
  have hs := List.all_eq_true.mp hall s hs
  rwa [Bool.and_eq_true, List.all_eq_true] at hs

/-- A character in lower case has no other lower case. -/
theorem lowerChar_lowerChar {c d : Char} (h : d ∈ lowerChar c) : lowerChar d = [d] := by
  have hsmall : ∀ e : Char, isAscii e = true → e.isUpper = false → lowerChar e = [e] :=
    fun e he => forall_isAscii (P := fun e => e.isUpper = false → lowerChar e = [e])
      (by decide) he
  have hupper := isUpper_lowerChar c d h
  by_cases hd : isAscii d = true
  · exact hsmall d hd hupper
  unfold lowerChar at h
  split at h
  · rename_i hc
    rw [List.mem_singleton.mp h] at hd
    exact absurd (forall_isAscii (P := fun c => isAscii c.toLower = true) (by decide) hc) hd
  · rename_i hc
    split at h
    · exact (by decide : ∀ d ∈ ['i', Char.ofNat 0x307], lowerChar d = [d]) d h
    · rename_i hdotted
      rw [List.mem_singleton] at h
      rcases shifted_cases lowerShifts c with ⟨-, hstays⟩ | ⟨s, hs, hspan, hpoint | ⟨-, hnull⟩⟩
      · rw [hstays] at h
        unfold lowerChar
        rw [h, if_neg hc, if_neg hdotted, hstays]
      · rw [← h] at hpoint
        have hpos : 0 < s.image s.span.first :=
          Nat.zero_lt_of_lt (lt_image_lowerShifts hs)
        have hnone : lowerShifts.find? (fun t => t.span.has d.toNat) = none := by
          rw [List.find?_eq_none]
          intro t ht
          rw [hpoint, Shift.has_image_eq_false ((lowerShifts_miss hs).1 t ht) hpos hspan]
          exact Bool.false_ne_true
        have hother : d.toNat ≠ 0x130 := by
          intro heq
          have hmiss := Shift.has_image_eq_false (lowerShifts_miss hs).2 hpos hspan
          rw [← hpoint, heq] at hmiss
          exact absurd hmiss (by decide)
        unfold lowerChar
        rw [if_neg hd, if_neg hother]
        unfold shifted
        rw [hnone]
      · rw [h, hnull] at hd
        exact absurd (by decide) hd

theorem isUpper_of_lowerChar_eq {c : Char} (h : lowerChar c = [c]) : c.isUpper = false := by
  refine isUpper_lowerChar c c ?_
  rw [h]
  exact List.mem_singleton_self c

/-- **Nothing in lower case has another lower case.** -/
theorem lowerChar_of_mem_lower {cs : List Char} {c : Char} (h : c ∈ lower cs) :
    lowerChar c = [c] := by
  unfold lower at h
  generalize false = follows at h
  induction cs generalizing follows with
  | nil => exact absurd h (by simp [lowerAfter])
  | cons d cs ih =>
    unfold lowerAfter at h
    dsimp only at h
    rcases List.mem_append.mp h with h | h
    · split at h
      · rw [List.mem_singleton.mp h]
        split <;> decide
      · exact lowerChar_lowerChar h
    · exact ih _ h

theorem lowerChar_ne_nil (c : Char) : lowerChar c ≠ [] := by
  unfold lowerChar
  split
  · exact List.cons_ne_nil _ _
  · split <;> exact List.cons_ne_nil _ _

/-- **Lower case stays as it is.** -/
theorem lower_eq_self {cs : List Char} (h : ∀ c ∈ cs, lowerChar c = [c]) : lower cs = cs := by
  unfold lower
  generalize false = follows
  induction cs generalizing follows with
  | nil => rfl
  | cons c cs ih =>
    have hc := h c List.mem_cons_self
    have hsigma : c.toNat ≠ 0x3A3 := by
      intro heq
      rw [← Char.ofNat_toNat c, heq] at hc
      exact absurd hc (by decide)
    unfold lowerAfter
    dsimp only
    rw [if_neg hsigma, hc, ih fun d hd => h d (List.mem_cons_of_mem c hd)]
    rfl

/-! ## Separators -/

/-- The code points of what separates the words of a name: hyphen, underscore and blanks. -/
def separatorPoints : List Nat :=
  45 :: 95 :: blankPoints

theorem lowerShifts_miss_separators {s : Shift} (hs : s ∈ lowerShifts) :
    ∀ n ∈ separatorPoints, s.misses ⟨n, n, 1⟩ = true := by
  have hall :
      lowerShifts.all (fun s => separatorPoints.all fun n => s.misses ⟨n, n, 1⟩) = true := by
    decide +kernel
  exact List.all_eq_true.mp (List.all_eq_true.mp hall s hs)

/-- **A separator is the lower case of nothing else.** -/
theorem eq_of_mem_lowerChar {c d : Char} (hd : d.toNat ∈ separatorPoints) (h : d ∈ lowerChar c) :
    d = c := by
  unfold lowerChar at h
  split at h
  · rename_i hascii
    have hsame : c.toLower.toNat ∈ separatorPoints → c.toLower = c :=
      forall_isAscii (P := fun c => c.toLower.toNat ∈ separatorPoints → c.toLower = c)
        (by decide) hascii
    obtain rfl := List.mem_singleton.mp h
    exact hsame hd
  · split at h
    · exact absurd hd ((by decide : ∀ d ∈ ['i', Char.ofNat 0x307], d.toNat ∉ separatorPoints) d h)
    · obtain rfl := List.mem_singleton.mp h
      rcases shifted_cases lowerShifts c with ⟨-, hstays⟩ | ⟨s, hs, hspan, hpoint | ⟨-, hnull⟩⟩
      · exact hstays
      · rw [hpoint] at hd
        -- the image would be the one point of a span that the shift misses
        have hmiss := Shift.has_image_eq_false (lowerShifts_miss_separators hs _ hd)
          (Nat.zero_lt_of_lt (lt_image_lowerShifts hs)) hspan
        simp [Span.has] at hmiss
      · rw [hnull] at hd
        exact absurd hd (by decide)

/-- In lower case a character becomes one or more, of which none is a separator but for itself. -/
theorem lowerAfter_cons (follows : Bool) (c : Char) (cs : List Char) :
    ∃ d ds follows', lowerAfter follows (c :: cs) = (d :: ds) ++ lowerAfter follows' cs
      ∧ ∀ e ∈ d :: ds, e.toNat ∈ separatorPoints → e = c := by
  rw [lowerAfter]
  split
  · refine ⟨_, [], _, rfl, fun e he hpoint => ?_⟩
    rw [List.mem_singleton.mp he] at hpoint
    -- neither form of the sigma is a separator
    split at hpoint <;> exact absurd hpoint (by decide)
  · cases hlower : lowerChar c with
    | nil => exact absurd hlower (lowerChar_ne_nil c)
    | cons d ds =>
      exact ⟨d, ds, _, rfl, fun e he hpoint => eq_of_mem_lowerChar hpoint (hlower ▸ he)⟩

/-! ## The end of a text -/

/-- The sign that is no ASCII letter but has one in lower case. -/
def kelvinSign : Char := Char.ofNat 0x212A

theorem isAlphanum_of_beyond {c : Char} (h : 0x7A < c.toNat) : c.isAlphanum = false := by
  have hdigit : c.isDigit = false := by
    rw [← Bool.not_eq_true]
    intro hdigit
    have hle : c.toNat ≤ 57 := of_decide_eq_true (Bool.and_eq_true_iff.mp hdigit).2
    omega
  have hlower : c.isLower = false := by
    rw [← Bool.not_eq_true, isLower_iff]
    omega
  unfold Char.isAlphanum Char.isAlpha
  rw [isUpper_of_beyond (by omega), hlower, hdigit]
  rfl

/-- One shift leads from beyond ASCII into it. -/
theorem image_lowerShifts {s : Shift} (h : s ∈ lowerShifts) :
    0x7A < s.image s.span.first ∨ s.span.first = 0x212A ∧ s.span.last = 0x212A := by
  have hall : lowerShifts.all (fun s => Nat.blt 0x7A (s.image s.span.first)
      || (s.span.first == 0x212A && s.span.last == 0x212A)) = true := by
    decide
  simpa using List.all_eq_true.mp hall s h

/-- **What is no ASCII letter or digit does not become one**, with one exception. -/
theorem isAlphanum_shifted {c : Char} (hc : 0x7A < c.toNat) :
    (shifted lowerShifts c).isAlphanum = false ∧ shifted lowerShifts c ≠ '\n' ∨ c = kelvinSign := by
  have hbeyond : ∀ {d : Char}, 0x7A < d.toNat → d.isAlphanum = false ∧ d ≠ '\n' := by
    intro d hd
    refine ⟨isAlphanum_of_beyond hd, ?_⟩
    rintro rfl
    exact absurd hd (by decide)
  rcases shifted_cases lowerShifts c with ⟨-, hstays⟩ | ⟨s, hs, hspan, hmoved⟩
  · rw [hstays]
    exact Or.inl (hbeyond hc)
  simp only [Span.has, Bool.and_eq_true, decide_eq_true_eq] at hspan
  rcases image_lowerShifts hs with hfirst | ⟨hfirst, hlast⟩
  · left
    rcases hmoved with hpoint | ⟨-, hnull⟩
    · refine hbeyond ?_
      unfold Shift.image at hfirst hpoint
      omega
    · rw [hnull]
      decide
  · right
    rw [← Char.ofNat_toNat c, show c.toNat = 0x212A by omega]
    rfl

theorem getLast?_lowerChar {c d : Char} (hc : c.isAlphanum = false)
    (hd : d ∈ (lowerChar c).getLast?) :
    d.isAlphanum = false ∧ (d = '\n' → c = '\n') ∨ c = kelvinSign ∧ d = 'k' := by
  by_cases hkelvin : c = kelvinSign
  · subst hkelvin
    have hk : (lowerChar kelvinSign).getLast? = some 'k' := by decide
    rw [hk] at hd
    exact Or.inr ⟨rfl, (Option.mem_some_iff.mp hd).symm⟩
  left
  unfold lowerChar at hd
  split at hd
  · rename_i hascii
    obtain rfl : c.toLower = d := Option.mem_some_iff.mp hd
    have hsame : c.isAlphanum = false → c.toLower = c :=
      forall_isAscii (P := fun c => c.isAlphanum = false → c.toLower = c) (by decide) hascii
    rw [hsame hc]
    exact ⟨hc, id⟩
  · rename_i hascii
    have hlow : ¬c.toNat < 128 := fun h => hascii (decide_eq_true h)
    split at hd
    · obtain rfl : Char.ofNat 0x307 = d := Option.mem_some_iff.mp hd
      exact ⟨by decide, fun h => absurd h (by decide)⟩
    · obtain rfl : shifted lowerShifts c = d := Option.mem_some_iff.mp hd
      obtain ⟨hother, hline⟩ := (isAlphanum_shifted (by omega)).resolve_right hkelvin
      exact ⟨hother, fun h => absurd h hline⟩

/-- What stands behind a text is put in lower case like a text of its own, but for a sigma. -/
theorem exists_lower_append (lead rest : List Char) :
    ∃ before follows, lower (lead ++ rest) = before ++ lowerAfter follows rest := by
  unfold lower
  generalize false = follows
  induction lead generalizing follows with
  | nil => exact ⟨[], follows, rfl⟩
  | cons c lead ih =>
    obtain ⟨before, follows', heq⟩ := ih (if isCaseIgnorable c then follows else isCased c)
    rw [List.cons_append, lowerAfter, heq, ← List.append_assoc]
    exact ⟨_, follows', rfl⟩

/-- **A text that ends outside ASCII letters and digits does so in lower case**, with one
exception. -/
theorem exists_lower_endsOutside {cs : List Char} (h : EndsOutside Char.isAlphanum cs)
    (rest : List Char) :
    ∃ low follows, lower (cs ++ rest) = low ++ lowerAfter follows rest
      ∧ ∀ d ∈ low.getLast?, d.isAlphanum = false ∧ (d = '\n' → cs.getLast? = some '\n')
        ∨ d = 'k' ∧ cs.getLast? = some kelvinSign := by
  rcases List.eq_nil_or_concat' cs with rfl | ⟨lead, c, rfl⟩
  · exact ⟨[], false, rfl, fun d hd => nomatch hd⟩
  obtain ⟨before, follows, heq⟩ := exists_lower_append lead (c :: rest)
  obtain ⟨mapped, follows', hmapped, hsome, hlast⟩ : ∃ mapped follows',
      lowerAfter follows (c :: rest) = mapped ++ lowerAfter follows' rest ∧ mapped ≠ []
        ∧ ∀ d ∈ mapped.getLast?,
          d.isAlphanum = false ∧ (d = '\n' → c = '\n') ∨ c = kelvinSign ∧ d = 'k' := by
    rw [lowerAfter]
    split
    · have hsigma : ∀ e ∈ [Char.ofNat 0x3C2, Char.ofNat 0x3C3],
          e.isAlphanum = false ∧ e ≠ '\n' := by
        decide
      refine ⟨_, _, rfl, List.cons_ne_nil _ _, fun d hd => Or.inl ?_⟩
      have hmem : d ∈ [Char.ofNat 0x3C2, Char.ofNat 0x3C3] := by
        rw [List.getLast?_singleton, Option.mem_some_iff] at hd
        subst hd
        split <;> simp
      exact ⟨(hsigma d hmem).1, fun he => absurd he (hsigma d hmem).2⟩
    · exact ⟨_, _, rfl, lowerChar_ne_nil c,
        fun d hd => getLast?_lowerChar ((endsOutside_append_singleton lead).mp h) hd⟩
  rw [List.append_cons, hmapped, ← List.append_assoc] at heq
  refine ⟨before ++ mapped, follows', heq, fun d hd => ?_⟩
  rw [List.getLast?_append_of_ne_nil _ hsome] at hd
  rw [List.getLast?_concat]
  rcases hlast d hd with hout | ⟨rfl, rfl⟩
  · exact Or.inl (hout.imp id fun hline he => congrArg some (hline he))
  · exact Or.inr ⟨rfl, rfl⟩

end Crowsfoot.Text
