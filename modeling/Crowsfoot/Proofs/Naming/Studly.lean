import Crowsfoot.Proofs.Naming.Pascal

/-!
# Capitals and back

`studly` puts the words of a name together and shows by a capital where each begins, and `snake`
looks for the capitals and parts the words again.

* `toList_snake_studly`: the words of the name come back, with underscores where the capitals show
  two words apart (`rejoined`).
* `snake_studly_eq_iff`: so the name comes back exactly if each of its words is shown apart from the
  next.
* `snake_studly`: that is so if every word begins with a letter that is not all of it.
* `snake_normalizes`: what snake case does on ASCII, where names in normal form have no capitals.

A word that begins with a digit has no capital, and an initial goes with the capital behind it, as
capitals in a row are taken for an acronym: of `a_b` only `ab` is left, while `a_bc` comes back.
-/

namespace Crowsfoot.Text

section Runs

variable {p : Char → Bool} {sep : Char}

theorem runsOutside_go_append {piece : List Char} (h : ∀ c ∈ piece, p c = false)
    (run rest : List Char) :
    runsOutside.go p run (piece ++ rest) = runsOutside.go p (piece.reverse ++ run) rest := by
  induction piece generalizing run with
  | nil => rfl
  | cons c piece ih =>
    rw [List.cons_append, runsOutside.go, h c List.mem_cons_self, if_neg Bool.false_ne_true,
      ih fun d hd => h d (List.mem_cons_of_mem c hd)]
    simp

/-- **Joined pieces are found again as runs**, if none is empty. -/
theorem runsOutside_intercalate (hsep : p sep = true) {ps : List (List Char)}
    (h : ∀ r ∈ ps, r ≠ [] ∧ ∀ c ∈ r, p c = false) : runsOutside p ([sep].intercalate ps) = ps := by
  have hkept : ps.filter (fun run => !run.isEmpty) = ps := by
    refine List.filter_eq_self.mpr fun r hr => ?_
    simpa using (h r hr).1
  have hgo : ps ≠ [] → runsOutside.go p [] ([sep].intercalate ps) = ps := by
    intro hne
    induction ps with
    | nil => exact absurd rfl hne
    | cons r ps ih =>
      have hr := (h r List.mem_cons_self).2
      cases ps with
      | nil =>
        have halone := runsOutside_go_append hr [] []
        rw [List.append_nil, List.append_nil] at halone
        rw [List.intercalate_singleton, halone, runsOutside.go, List.reverse_reverse]
      | cons q ps =>
        have hrest : ∀ r ∈ q :: ps, r ≠ [] ∧ ∀ c ∈ r, p c = false :=
          fun r hr => h r (List.mem_cons_of_mem _ hr)
        rw [List.intercalate_cons_cons, List.append_assoc, runsOutside_go_append hr,
          List.singleton_append, runsOutside.go, if_pos hsep, List.append_nil,
          List.reverse_reverse, ih hrest (List.filter_eq_self.mpr ?_) (List.cons_ne_nil q ps)]
        intro r hr
        simpa using (hrest r hr).1
  unfold runsOutside
  by_cases hne : ps = []
  · rw [hne]
    rfl
  · rw [hgo hne, hkept]

end Runs

end Crowsfoot.Text

namespace Crowsfoot.Naming

open Crowsfoot.Text

/-! ## Words of names -/

/-- Nothing but small ASCII letters and digits, and some of them. -/
structure IsSmallRun (word : List Char) : Prop where
  nonempty : word ≠ []
  small : ∀ c ∈ word, isSmall c = true

/-- A small letter, and small letters or digits after it. -/
def IsSnakeWord : List Char → Prop
  | [] => False
  | c :: rest => c.isLower = true ∧ rest ≠ [] ∧ ∀ d ∈ rest, isSmall d = true

instance (word : List Char) : Decidable (IsSnakeWord word) :=
  match word with
  | [] => inferInstanceAs (Decidable False)
  | c :: rest =>
    inferInstanceAs (Decidable (c.isLower = true ∧ rest ≠ [] ∧ ∀ d ∈ rest, isSmall d = true))

/-- What the capital of a small letter or a digit tells. -/
theorem toUpperFacts {c : Char} (h : isSmall c = true) :
    c.toUpper.isUpper = c.isLower ∧ isSmall c.toUpper = !c.isLower ∧ c.toUpper.isLower = false :=
  forall_isSmall (P := fun c => c.toUpper.isUpper = c.isLower ∧ isSmall c.toUpper = !c.isLower
    ∧ c.toUpper.isLower = false) (by decide) h

section Words

variable {word : List Char}

theorem IsSmallWord.isSnakeWord (h : IsSmallWord word) (hlength : 2 ≤ word.length) :
    IsSnakeWord word := by
  obtain ⟨c, rest, rfl⟩ := List.exists_cons_of_ne_nil h.nonempty
  refine ⟨h.small c List.mem_cons_self, ?_, ?_⟩
  · rintro rfl
    exact absurd hlength (by simp)
  · exact fun d hd => isSmall_of_isLower (h.small d (List.mem_cons_of_mem c hd))

theorem IsSnakeWord.isSmallRun (h : IsSnakeWord word) : IsSmallRun word := by
  cases word with
  | nil => exact absurd h id
  | cons c rest =>
    exact ⟨List.cons_ne_nil c rest, List.forall_mem_cons.mpr ⟨isSmall_of_isLower h.1, h.2.2⟩⟩

/-- The capitalized form of a word, taken apart. -/
theorem IsSmallRun.capitalized (h : IsSmallRun word) :
    ∃ c rest, word = c :: rest ∧ capitalized word = c.toUpper :: rest ∧ isSmall c = true
      ∧ ∀ d ∈ rest, isSmall d = true := by
  obtain ⟨c, rest, rfl⟩ := List.exists_cons_of_ne_nil h.nonempty
  obtain ⟨hc, hrest⟩ := List.forall_mem_cons.mp h.small
  exact ⟨c, rest, rfl, capitalized_cons (isAlphanum_of_isSmall hc), hc, hrest⟩

theorem IsSmallRun.alphanumeric (h : IsSmallRun word) :
    ∀ c ∈ Text.capitalized word, c.isAlphanum = true := by
  obtain ⟨c, rest, -, heq, hc, hrest⟩ := h.capitalized
  rw [heq]
  exact List.forall_mem_cons.mpr
    ⟨isAlphanum_toUpper_of_isSmall hc, fun d hd => isAlphanum_of_isSmall (hrest d hd)⟩

theorem IsSmallRun.map_toLower (h : IsSmallRun word) :
    (Text.capitalized word).map Char.toLower = word := by
  rw [← lower_of_isAlphanum h.alphanumeric, lower_capitalized h.small]

/-- The characters of a word are not between words. -/
theorem IsSmallRun.outside (h : IsSmallRun word) : ∀ c ∈ word, (isGap c || c == '_') = false := by
  intro c hc
  have hname : isNameChar c = true :=
    isNameChar_of_isSnakeChar (by rw [isSnakeChar, h.small c hc, Bool.true_or])
  rw [(nameCharFacts hname).2.1, beq_underscore_eq_false_of_isSmall (h.small c hc), Bool.or_self]

/-- A word of two characters still ends small when it is capitalized. -/
theorem IsSnakeWord.exists_last (h : IsSnakeWord word) :
    ∃ c ∈ (Text.capitalized word).getLast?, isSmall c = true := by
  cases word with
  | nil => exact absurd h id
  | cons c rest =>
    obtain ⟨hc, hne, hrest⟩ := h
    obtain ⟨d, hd⟩ := Option.ne_none_iff_exists'.mp (mt List.getLast?_eq_none_iff.mp hne)
    refine ⟨d, ?_, hrest d (List.mem_of_getLast? hd)⟩
    rw [capitalized_cons (isAlphanum_of_isSmall (isSmall_of_isLower hc)), List.getLast?_cons, hd]
    rfl

end Words

section Names

variable {words : List (List Char)} {name : String}

/-- The words of a name are the runs in it. -/
theorem toList_studly (h : ∀ word ∈ words, IsSmallRun word)
    (hname : name.toList = ['_'].intercalate words) :
    (studly name).toList = words.flatMap capitalized := by
  have hruns : runsOutside (fun c => isGap c || c == '_') (['_'].intercalate words) = words :=
    runsOutside_intercalate (by decide) fun word hword =>
      ⟨(h word hword).nonempty, (h word hword).outside⟩
  unfold studly onChars
  rw [String.toList_ofList, hname]
  dsimp only
  rw [hruns]

theorem alphanumeric_flatMap (h : ∀ word ∈ words, IsSmallRun word) :
    ∀ c ∈ words.flatMap capitalized, c.isAlphanum = true := by
  intro c hc
  obtain ⟨word, hword, hc⟩ := List.mem_flatMap.mp hc
  exact (h word hword).alphanumeric c hc

end Names

theorem beq_underscore_eq_false_of_alphanumeric {cs : List Char}
    (h : ∀ c ∈ cs, c.isAlphanum = true) : ∀ c ∈ cs, (c == '_') = false := by
  intro c hc
  rw [beq_eq_false_iff_ne]
  rintro rfl
  exact absurd (h '_' hc) (by decide)

theorem enclosed_of_alphanumeric {cs : List Char} (h : ∀ c ∈ cs, c.isAlphanum = true) :
    Enclosed cs :=
  ⟨startsOutside_of_all (beq_underscore_eq_false_of_alphanumeric h),
    endsOutside_of_all (beq_underscore_eq_false_of_alphanumeric h)⟩

/-! ## Where words are parted -/

section Parting

variable {c : Char} {rest y : List Char}

/-- A step that puts an underscore behind each character in `p` before something in `q` looks at a
word only where it ends: nothing in `q` begins with a small letter or a digit. -/
theorem step_append {f : List Char → List Char} {p : Char → Bool} {q : List Char → Bool}
    (hcons : ∀ d cs, f (d :: cs) = if p d && q cs then d :: '_' :: f cs else d :: f cs)
    (hsmall : ∀ d cs, isSmall d = true → q (d :: cs) = false)
    (hrest : ∀ d ∈ rest, isSmall d = true) (y : List Char) :
    f (c :: rest ++ y)
      = c :: rest ++ if (c :: rest).getLast?.any p && q y then '_' :: f y else f y := by
  induction rest generalizing c with
  | nil =>
    rw [List.singleton_append, hcons, List.getLast?_singleton, Option.any_some]
    split <;> rfl
  | cons d rest ih =>
    obtain ⟨hd, hrest⟩ := List.forall_mem_cons.mp hrest
    rw [List.cons_append, List.cons_append, hcons, hsmall d _ hd, Bool.and_false,
      if_neg Bool.false_ne_true, ← List.cons_append, ih hrest, List.getLast?_cons_cons]
    rfl

/-- Words begin where they began before small letters and capitals were parted. -/
theorem beginsWord_splitHumps (cs : List Char) : beginsWord (splitHumps cs) = beginsWord cs := by
  cases cs with
  | nil => rfl
  | cons c cs =>
    cases hc : c.isUpper with
    | true =>
      rw [splitHumps, (upperFacts hc).1, Bool.false_and, if_neg Bool.false_ne_true, beginsWord_cons,
        beginsWord_cons, head?_of_steps rfl splitHumps_cons]
    | false =>
      have hstart : StartsOutside Char.isUpper (splitHumps (c :: cs)) := by
        unfold StartsOutside
        rw [head?_of_steps rfl splitHumps_cons]
        exact startsOutside_cons.mpr hc
      rw [beginsWord_of_startsOutside hstart,
        beginsWord_of_startsOutside (startsOutside_cons.mpr hc)]

/-- Whether snake case parts a word from what is behind it: a small letter or a digit from a
capital, or a capital from a capital that begins a word. -/
def partsBefore (word y : List Char) : Bool :=
  word.getLast?.any isSmall && y.head?.any Char.isUpper
    || word.getLast?.any Char.isUpper && beginsWord y

theorem splitAcronyms_splitHumps_append (hrest : ∀ d ∈ rest, isSmall d = true) (y : List Char) :
    splitAcronyms (splitHumps (c :: rest ++ y))
      = c :: rest ++ if partsBefore (c :: rest) y then '_' :: splitAcronyms (splitHumps y)
        else splitAcronyms (splitHumps y) := by
  have hhumps := step_append (f := splitHumps) (c := c) (fun _ _ => rfl)
    (fun d _ hd => isUpper_eq_false_of_isSmall hd) hrest
  have hacronyms := step_append (f := splitAcronyms) (c := c) (fun _ _ => rfl)
    (fun d cs hd => beginsWord_of_startsOutside
      (startsOutside_cons.mpr (isUpper_eq_false_of_isSmall hd))) hrest
  rw [hhumps, hacronyms, partsBefore]
  cases (c :: rest).getLast?.any isSmall && y.head?.any Char.isUpper with
  | true =>
    -- the two are parted already, and an underscore begins no word
    have hunder : '_'.isUpper = false := by decide
    rw [if_pos rfl, beginsWord_of_startsOutside (startsOutside_cons.mpr hunder), Bool.and_false,
      if_neg Bool.false_ne_true, Bool.true_or, if_pos rfl, splitAcronyms, hunder, Bool.false_and,
      if_neg Bool.false_ne_true]
  | false => rw [if_neg Bool.false_ne_true, beginsWord_splitHumps, Bool.false_or]

/-- **Snake case goes on behind a word**, and puts an underscore there if it parts the two. -/
theorem underscored_word_append (hc : c.isAlphanum = true) (hrest : ∀ d ∈ rest, isSmall d = true)
    (hy : Enclosed y) :
    underscored (c :: rest ++ y)
      = c :: rest ++ if partsBefore (c :: rest) y then '_' :: underscored y else underscored y := by
  have hword : ∀ d ∈ c :: rest, (d == '_') = false :=
    beq_underscore_eq_false_of_alphanumeric
      (List.forall_mem_cons.mpr ⟨hc, fun d hd => isAlphanum_of_isSmall (hrest d hd)⟩)
  unfold underscored
  rw [splitAcronyms_splitHumps_append hrest,
    underscoreRuns_append (Or.inl (endsOutside_of_all hword)), underscoreRuns_eq_self hword]
  split
  · rw [underscoreRuns_cons (enclosed_parted hy).starts]
  · rfl

end Parting

/-! ## Names in capitals -/

/-- A letter alone, of which a capital alone is left. -/
def isInitial : List Char → Bool
  | [c] => c.isLower
  | _ => false

/-- Whether capitals show a word apart from the next: the next has a capital, and that stands behind
something small or before it. -/
def showsApart (word next : List Char) : Bool :=
  match next with
  | [] => false
  | c :: rest => c.isLower && (!isInitial word || rest.head?.any Char.isLower)

/-- The words of a name, with underscores where capitals show them apart. -/
def rejoined : List (List Char) → List Char
  | [] => []
  | [word] => word
  | word :: next :: rest =>
    if showsApart word next then word ++ '_' :: rejoined (next :: rest)
    else word ++ rejoined (next :: rest)

section Rejoined

variable {word next : List Char} {words : List (List Char)} {name : String}

theorem isInitial_eq (h : IsSmallRun word) :
    (capitalized word).getLast?.any Char.isUpper = isInitial word
      ∧ (capitalized word).getLast?.any isSmall = !isInitial word := by
  obtain ⟨c, rest, rfl, heq, hc, hrest⟩ := h.capitalized
  rw [heq]
  cases rest with
  | nil =>
    obtain ⟨hupper, hsmall, -⟩ := toUpperFacts hc
    exact ⟨hupper, hsmall⟩
  | cons d rest =>
    have hlast := hrest _ (List.getLast_mem (List.cons_ne_nil d rest))
    rw [List.getLast?_cons_cons, List.getLast?_eq_some_getLast (List.cons_ne_nil d rest),
      Option.any_some, Option.any_some, isUpper_eq_false_of_isSmall hlast, hlast]
    exact ⟨rfl, rfl⟩

/-- No small letter is where a word in capitals begins. -/
theorem head?_flatMap_capitalized (h : ∀ word ∈ words, IsSmallRun word) :
    (words.flatMap capitalized).head?.any Char.isLower = false := by
  cases words with
  | nil => rfl
  | cons word words =>
    obtain ⟨c, rest, -, heq, hc, -⟩ := (h word List.mem_cons_self).capitalized
    rw [List.flatMap_cons, heq, List.cons_append, List.head?_cons, Option.any_some]
    exact (toUpperFacts hc).2.2

/-- **Snake case parts the words that capitals show apart.** -/
theorem partsBefore_capitalized (hword : IsSmallRun word) (hnext : IsSmallRun next)
    (hwords : ∀ word ∈ words, IsSmallRun word) :
    partsBefore (capitalized word) ((next :: words).flatMap capitalized)
      = showsApart word next := by
  obtain ⟨hupper, hsmall⟩ := isInitial_eq hword
  obtain ⟨c, rest, rfl, heq, hc, -⟩ := hnext.capitalized
  have hbehind : (rest ++ words.flatMap capitalized).head?.any Char.isLower
      = rest.head?.any Char.isLower := by
    cases rest with
    | nil => exact head?_flatMap_capitalized hwords
    | cons d rest => rfl
  rw [List.flatMap_cons, heq, partsBefore, hupper, hsmall, List.cons_append, List.head?_cons,
    Option.any_some, beginsWord_cons, hbehind, (toUpperFacts hc).1, showsApart]
  cases isInitial word <;> cases c.isLower <;> rfl

/-- **Of a name in capitals the words are left that capitals show apart.** -/
theorem lower_underscored_flatMap (h : ∀ word ∈ words, IsSmallRun word) :
    (underscored (words.flatMap capitalized)).map Char.toLower = rejoined words := by
  induction words with
  | nil => rfl
  | cons word words ih =>
    obtain ⟨hword, hwords⟩ := List.forall_mem_cons.mp h
    obtain ⟨c, rest, -, heq, hc, hrest⟩ := hword.capitalized
    have hlow := hword.map_toLower
    have hparted := underscored_word_append (isAlphanum_toUpper_of_isSmall hc) hrest
      (enclosed_of_alphanumeric (alphanumeric_flatMap hwords))
    rw [← heq] at hparted
    rw [List.flatMap_cons, hparted]
    cases words with
    | nil =>
      have hnone : partsBefore (capitalized word) [] = false := by
        simp [partsBefore, beginsWord]
      rw [List.flatMap_nil, hnone, if_neg Bool.false_ne_true, List.map_append, hlow]
      exact List.append_nil word
    | cons next words =>
      obtain ⟨hnext, hothers⟩ := List.forall_mem_cons.mp hwords
      rw [partsBefore_capitalized hword hnext hothers, rejoined]
      split
      · rw [List.map_append, hlow, List.map_cons, ih hwords]
        rfl
      · rw [List.map_append, hlow, ih hwords]

/-- **What comes back of a name in capitals.** -/
theorem toList_snake_studly (h : ∀ word ∈ words, IsSmallRun word)
    (hname : name.toList = ['_'].intercalate words) :
    (snake (studly name)).toList = rejoined words := by
  have hstudly := toList_studly h hname
  have hchars : ∀ c ∈ (studly name).toList, isNameChar c = true := by
    intro c hc
    rw [hstudly] at hc
    rw [isNameChar, alphanumeric_flatMap h c hc, Bool.true_or]
  rw [toList_snake hchars, hstudly, lower_underscored_flatMap h]

theorem head?_rejoined (h : IsSmallRun next) (words : List (List Char)) :
    (rejoined (next :: words)).head? = next.head? := by
  obtain ⟨c, rest, rfl⟩ := List.exists_cons_of_ne_nil h.nonempty
  cases words with
  | nil => rfl
  | cons word words =>
    rw [rejoined]
    split <;> rfl

theorem rejoined_eq_iff (h : ∀ word ∈ words, IsSmallRun word) :
    rejoined words = ['_'].intercalate words
      ↔ words.IsChain fun word next => showsApart word next = true := by
  induction words with
  | nil => exact iff_of_true rfl List.IsChain.nil
  | cons word words ih =>
    have hwords := (List.forall_mem_cons.mp h).2
    cases words with
    | nil => exact iff_of_true (List.intercalate_singleton).symm (List.IsChain.singleton word)
    | cons next words =>
      rw [List.isChain_cons_cons, ← ih hwords, List.intercalate_cons_cons, List.append_assoc,
        rejoined]
      by_cases hshown : showsApart word next = true
      · rw [if_pos hshown, List.append_right_inj, List.singleton_append, List.cons_inj_right]
        exact (and_iff_right hshown).symm
      · rw [if_neg hshown, List.append_right_inj]
        refine iff_of_false (fun heq => ?_) fun hboth => hshown hboth.1
        -- the next word would begin with an underscore
        have hnext := hwords next List.mem_cons_self
        have hhead := head?_rejoined hnext words
        rw [heq, List.singleton_append, List.head?_cons] at hhead
        exact absurd (hnext.small '_' (List.mem_of_head? hhead.symm)) (by decide)

/-- **A name comes back exactly if capitals show each of its words apart from the next.** -/
theorem snake_studly_eq_iff (h : ∀ word ∈ words, IsSmallRun word)
    (hname : name.toList = ['_'].intercalate words) :
    snake (studly name) = name ↔ words.IsChain fun word next => showsApart word next = true := by
  rw [← rejoined_eq_iff h, ← toList_snake_studly h hname, ← hname, String.toList_inj]

/-- An initial is shown apart from a word, but not from a letter with a digit. -/
example : snake (studly "a_bc_d") = "a_bc_d" ∧ snake (studly "ab_c_d1") = "ab_cd1" := by
  decide +kernel

theorem showsApart_of_isSnakeWord (hword : IsSnakeWord word) (hnext : IsSnakeWord next) :
    showsApart word next = true := by
  cases next with
  | nil => exact absurd hnext id
  | cons c rest =>
    have hinitial : isInitial word = false := by
      match word, hword with
      | _ :: _ :: _, _ => rfl
      | [_], hword => exact absurd rfl hword.2.1
    rw [showsApart, hnext.1, hinitial]
    rfl

/-- **The snake case of a studly name is the name**, for names in snake case. -/
theorem snake_studly (h : ∀ word ∈ words, IsSnakeWord word)
    (hname : name.toList = ['_'].intercalate words) : snake (studly name) = name := by
  refine (snake_studly_eq_iff (fun word hword => (h word hword).isSmallRun) hname).mpr ?_
  exact (List.pairwise_of_forall_mem_list fun word hword next hnext =>
    showsApart_of_isSnakeWord (h word hword) (h next hnext)).isChain

end Rejoined

/-! ## ASCII -/

section Ascii

variable {c : Char} {name : String}

/-- Snake case stays in ASCII. -/
theorem isAscii_snake (h : ∀ c ∈ name.toList, isAscii c = true) :
    ∀ c ∈ (snake name).toList, isAscii c = true := by
  have hbefore : ∀ c ∈ underscored (underscoreRuns isGap (trim name.toList)),
      isAscii c = true := by
    intro c hc
    rcases mem_beforeLower hc with ⟨hmem, -⟩ | rfl
    · exact h c hmem
    · decide
  rw [toList_snake_eq, lower_of_isAscii hbefore]
  intro c hc
  obtain ⟨d, hd, rfl⟩ := List.mem_map.mp hc
  exact forall_isAscii (P := fun d => isAscii d.toLower = true) (by decide) (hbefore d hd)

/-- In ASCII nothing in lower case is a capital. -/
theorem isUpperChar_eq_false_of_lowerChar (hascii : isAscii c = true) (h : lowerChar c = [c]) :
    isUpperChar c = false := by
  have hall : lowerChar c = [c] → isUpperChar c = false :=
    forall_isAscii (P := fun c => lowerChar c = [c] → isUpperChar c = false) (by decide) hascii
  exact hall h

/-- **Snake case makes a normal form and keeps it**: of an ASCII name it leaves no capital, blank or
hyphen and no two underscores side by side, and a second time it changes nothing. A name comes back
from its capitals if each of its parts begins with a small letter and goes on with small letters and
digits. -/
theorem snake_normalizes :
    (∀ name : String, (∀ c ∈ name.toList, isAscii c = true) →
      (∀ c ∈ (snake name).toList, isUpperChar c = false ∧ isBlank c = false ∧ c ≠ '-')
        ∧ Single (snake name).toList
        ∧ snake (snake name) = snake name)
      ∧ ∀ name : String, (∀ part ∈ pieces '_' name.toList, IsSnakeWord part) →
        snake (studly name) = name := by
  refine ⟨fun name hascii => ⟨fun c hc => ?_, (isNormal_snake name).single, snake_snake name⟩,
    fun name hparts => snake_studly hparts (intercalate_pieces '_' name.toList).symm⟩
  have hupper := isUpperChar_eq_false_of_lowerChar (isAscii_snake hascii c hc)
    (lowerChar_of_mem_snake hc)
  obtain ⟨hblank, hhyphen⟩ := Bool.or_eq_false_iff.mp ((isNormal_snake name).gapless c hc)
  exact ⟨hupper, hblank, beq_eq_false_iff_ne.mp hhyphen⟩

theorem snake_normalizes_httpServer :
    (∀ c ∈ " HTTPServer--Error_ 2x ".toList, isAscii c = true)
      ∧ snake " HTTPServer--Error_ 2x " = "http_server_error_2x"
      ∧ snake (snake " HTTPServer--Error_ 2x ") = snake " HTTPServer--Error_ 2x "
      ∧ (∀ part ∈ pieces '_' "order_b2_item".toList, IsSnakeWord part)
      ∧ studly "order_b2_item" = "OrderB2Item"
      ∧ snake (studly "order_b2_item") = "order_b2_item" := by
  have hascii : ∀ c ∈ " HTTPServer--Error_ 2x ".toList, isAscii c = true := by decide +kernel
  have hparts : ∀ part ∈ pieces '_' "order_b2_item".toList, IsSnakeWord part := by decide +kernel
  exact ⟨hascii, by decide +kernel, (snake_normalizes.1 _ hascii).2.2, hparts, by decide +kernel,
    snake_normalizes.2 _ hparts⟩

/-- Beyond ASCII a capital does not part words. -/
example : snake (studly "ab_\u00e9c") = "ab\u00e9c" := by
  decide +kernel

end Ascii

end Crowsfoot.Naming
