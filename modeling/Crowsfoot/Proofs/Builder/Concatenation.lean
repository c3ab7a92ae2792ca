import Crowsfoot.Proofs.Builder.Code

/-!
# Code put together

A scanner goes on where the text before it ends: in a region (`regionAfter`), which for the removal
of comments is all it needs to know (`withoutCommentsFrom_append`), and at a bracket depth
(`depthAfter`), which together with the quoting is all it takes to cut at separators
(`splitFrom_append_sep`).

After a text that ends a statement (`EndsStatement`) both start anew: `splitAt_append` puts the
statements of such a text before those of any other.
-/

namespace Crowsfoot.Builder

open Crowsfoot.Text

/-! ## Comments -/

/-- The region in which the position after a text is. -/
def regionAfter : Region → List Char → Region
  | r, [] => r
  | .source .code, '/' :: '*' :: rest => regionAfter .blockComment rest
  | .source .code, '/' :: '/' :: rest => regionAfter .lineComment rest
  | .source .code, '#' :: rest => regionAfter .lineComment rest
  | .source q, c :: rest => regionAfter (.source (q.next c)) rest
  | .blockComment, '*' :: '/' :: rest => regionAfter (.source .code) rest
  | .blockComment, _ :: rest => regionAfter .blockComment rest
  | .lineComment, '\n' :: rest => regionAfter (.source .code) rest
  | .lineComment, _ :: rest => regionAfter .lineComment rest

/-- Where what is left of a text begins and ends: a comment leaves nothing, and code around it. -/
def Region.quoting : Region → Quoting
  | .source q => q
  | .blockComment | .lineComment => .code

/-- Whether a character can be the second of a comment mark. -/
def endsMark (c : Char) : Bool :=
  c == '/' || c == '*'

theorem mem_of_mem_withoutCommentsFrom {r : Region} {cs : List Char} {c : Char}
    (h : c ∈ withoutCommentsFrom r cs) : c ∈ cs := by
  fun_induction withoutCommentsFrom r cs with grind

/-- What is left of a text ends where its region says. -/
theorem after_withoutCommentsFrom (r : Region) (cs : List Char) :
    r.quoting.after (withoutCommentsFrom r cs) = (regionAfter r cs).quoting := by
  have hnewline : Quoting.next .code '\n' = .code := by decide
  fun_induction withoutCommentsFrom r cs with
    grind [regionAfter, Region.quoting, Quoting.after]

/-- A mark does not end in a text that does not begin with the second character of one. -/
theorem append_ne_cons {mark : Char} (hmark : endsMark mark = true) {cs ds : List Char}
    (h : StartsOutside endsMark ds) (hne : ∀ tail, cs ≠ mark :: tail) (tail : List Char) :
    cs ++ ds ≠ mark :: tail := by
  cases cs with
  | nil =>
    rintro rfl
    rw [startsOutside_cons, hmark] at h
    exact nomatch h
  | cons c rest =>
    intro he
    exact hne rest (by rw [(List.cons.inj he).1])

/-- **Comments are removed from one text after the other**, if no comment mark stands across the
border. -/
theorem withoutCommentsFrom_append (r : Region) (cs : List Char) {ds : List Char}
    (h : StartsOutside endsMark ds) :
    withoutCommentsFrom r (cs ++ ds)
      = withoutCommentsFrom r cs ++ withoutCommentsFrom (regionAfter r cs) ds := by
  fun_induction withoutCommentsFrom r cs with
  | case5 q c rest hblock hline hhash ih =>
    have hblock' : ∀ tail, q = .code → c = '/' → rest ++ ds = '*' :: tail → False :=
      fun tail hq hc => append_ne_cons (by decide) h (fun tail => hblock tail hq hc) tail
    have hline' : ∀ tail, q = .code → c = '/' → rest ++ ds = '/' :: tail → False :=
      fun tail hq hc => append_ne_cons (by decide) h (fun tail => hline tail hq hc) tail
    rw [List.cons_append, withoutCommentsFrom, regionAfter, ih]
    · rfl
    all_goals assumption
  | case7 c rest hclose ih =>
    have hclose' : ∀ tail, c = '*' → rest ++ ds = '/' :: tail → False :=
      fun tail hc => append_ne_cons (by decide) h (fun tail => hclose tail hc) tail
    rw [List.cons_append, withoutCommentsFrom, regionAfter, ih]
    all_goals assumption
  | _ => grind [regionAfter, withoutCommentsFrom]

/-- **Nothing is left of a text but its own source**: a character that is left stands in the text, in
the source, and what is left around it is left of the text around it. -/
theorem exists_source_of_withoutCommentsFrom {r : Region} {cs pre post : List Char} {c : Char}
    (hnewline : c ≠ '\n') (h : withoutCommentsFrom r cs = pre ++ c :: post) :
    ∃ before after q, cs = before ++ c :: after ∧ regionAfter r before = .source q
      ∧ withoutCommentsFrom r before = pre
      ∧ withoutCommentsFrom (.source q) (c :: after) = c :: post := by
  fun_induction withoutCommentsFrom r cs generalizing pre with
  | case1 r => exact absurd h (by simp)
  | case2 rest ih =>
    obtain ⟨before, after, q, rfl, hregion, hleft, hhere⟩ := ih h
    exact ⟨'/' :: '*' :: before, after, q, rfl, hregion, hleft, hhere⟩
  | case3 rest ih =>
    obtain ⟨before, after, q, rfl, hregion, hleft, hhere⟩ := ih h
    exact ⟨'/' :: '/' :: before, after, q, rfl, hregion, hleft, hhere⟩
  | case4 rest ih =>
    obtain ⟨before, after, q, rfl, hregion, hleft, hhere⟩ := ih h
    exact ⟨'#' :: before, after, q, rfl, hregion, hleft, hhere⟩
  | case5 q d rest hblock hline hhash ih =>
    cases pre with
    | nil =>
      obtain ⟨rfl, hpost⟩ := List.cons.inj h
      refine ⟨[], rest, q, rfl, rfl, rfl, ?_⟩
      rw [withoutCommentsFrom, hpost]
      all_goals assumption
    | cons e pre =>
      obtain ⟨rfl, hmore⟩ := List.cons.inj h
      obtain ⟨before, after, q', rfl, hregion, hleft, hhere⟩ := ih hmore
      have hblock' : ∀ tail, q = .code → d = '/' → before = '*' :: tail → False :=
        fun tail hq hd hb => hblock (tail ++ c :: after) hq hd (by rw [hb]; rfl)
      have hline' : ∀ tail, q = .code → d = '/' → before = '/' :: tail → False :=
        fun tail hq hd hb => hline (tail ++ c :: after) hq hd (by rw [hb]; rfl)
      refine ⟨d :: before, after, q', rfl, ?_, ?_, hhere⟩
      · rw [regionAfter, hregion]
        all_goals assumption
      · rw [withoutCommentsFrom, hleft]
        all_goals assumption
  | case6 rest ih =>
    obtain ⟨before, after, q, rfl, hregion, hleft, hhere⟩ := ih h
    exact ⟨'*' :: '/' :: before, after, q, rfl, hregion, hleft, hhere⟩
  | case7 d rest hclose ih =>
    obtain ⟨before, after, q, rfl, hregion, hleft, hhere⟩ := ih h
    have hclose' : ∀ tail, d = '*' → before = '/' :: tail → False :=
      fun tail hd hb => hclose (tail ++ c :: after) hd (by rw [hb]; rfl)
    refine ⟨d :: before, after, q, rfl, ?_, ?_, hhere⟩
    · rw [regionAfter, hregion]
      exact hclose'
    · rw [withoutCommentsFrom, hleft]
      exact hclose'
  | case8 rest ih =>
    cases pre with
    | nil => exact absurd (List.cons.inj h).1.symm hnewline
    | cons e pre =>
      obtain ⟨rfl, hmore⟩ := List.cons.inj h
      obtain ⟨before, after, q, rfl, hregion, hleft, hhere⟩ := ih hmore
      exact ⟨'\n' :: before, after, q, rfl, hregion, congrArg _ hleft, hhere⟩
  | case9 d rest hne ih =>
    obtain ⟨before, after, q, rfl, hregion, hleft, hhere⟩ := ih h
    refine ⟨d :: before, after, q, rfl, ?_, ?_, hhere⟩
    · rw [regionAfter, hregion]
      exact hne
    · rw [withoutCommentsFrom, hleft]
      exact hne

/-- A comment with its end. -/
inductive IsComment : List Char → Prop where
  | block {inside : List Char} (unclosed : ¬ ['*', '/'] <:+: inside) :
    IsComment ('/' :: '*' :: (inside ++ ['*', '/']))
  | line {mark inside : List Char} (begins : mark = ['/', '/'] ∨ mark = ['#'])
    (oneLine : '\n' ∉ inside) : IsComment (mark ++ (inside ++ ['\n']))

theorem withoutCommentsFrom_block {inside : List Char} (h : ¬ ['*', '/'] <:+: inside)
    (rest : List Char) :
    withoutCommentsFrom .blockComment (inside ++ '*' :: '/' :: rest) = withoutComments rest := by
  induction inside with
  | nil => rfl
  | cons c inside ih =>
    have hearly : ∀ tail, c = '*' → inside ++ '*' :: '/' :: rest = '/' :: tail → False := by
      rintro tail rfl he
      cases inside with
      | nil => exact absurd (List.cons.inj he).1 (by decide)
      | cons d inside =>
        obtain rfl : d = '/' := (List.cons.inj he).1
        exact h ⟨[], inside, rfl⟩
    rw [List.cons_append, withoutCommentsFrom]
    · exact ih (mt (fun hin => hin.trans (List.suffix_cons c inside).isInfix) h)
    · exact hearly

theorem withoutCommentsFrom_line {inside : List Char} (h : '\n' ∉ inside) (rest : List Char) :
    withoutCommentsFrom .lineComment (inside ++ '\n' :: rest) = '\n' :: withoutComments rest := by
  induction inside with
  | nil => rfl
  | cons c inside ih =>
    have hne : c ≠ '\n' := fun he => h (he ▸ List.mem_cons_self)
    rw [List.cons_append, withoutCommentsFrom]
    · exact ih (mt (List.mem_cons_of_mem c) h)
    · exact hne

/-- Nothing is left of a comment but the line feed of a line comment. -/
theorem IsComment.withoutComments {comment : List Char} (h : IsComment comment)
    (rest : List Char) :
    Builder.withoutComments (comment ++ rest) = Builder.withoutComments rest
      ∨ Builder.withoutComments (comment ++ rest) = '\n' :: Builder.withoutComments rest := by
  cases h with
  | @block inside hunclosed =>
    left
    have htext : '/' :: '*' :: (inside ++ ['*', '/']) ++ rest
        = '/' :: '*' :: (inside ++ '*' :: '/' :: rest) := by
      simp
    rw [htext]
    exact withoutCommentsFrom_block hunclosed rest
  | @line mark inside hmark hline =>
    right
    have htext : mark ++ (inside ++ ['\n']) ++ rest = mark ++ (inside ++ '\n' :: rest) := by simp
    rw [htext, ← withoutCommentsFrom_line hline]
    rcases hmark with rfl | rfl <;> rfl

/-! ## Separators -/

/-- The bracket depth after a text that begins at this one. -/
def depthAfter : Quoting → Int → List Char → Int
  | _, depth, [] => depth
  | .code, depth, c :: cs => depthAfter (Quoting.code.next c) (depth + depthStep c) cs
  | q, depth, c :: cs => depthAfter (q.next c) depth cs

theorem extendFirst_append (c : Char) {ps : List (List Char)} (h : ps ≠ [])
    (qs : List (List Char)) : extendFirst c (ps ++ qs) = extendFirst c ps ++ qs := by
  obtain ⟨p, ps, rfl⟩ := List.exists_cons_of_ne_nil h
  rfl

section Separators

variable {sep : Char} (hquote : isQuote sep = false) (hsep : depthStep sep = 0)
include hquote hsep

/-- **A text is cut at a separator in code outside brackets**, and goes on like a text of its
own. -/
theorem splitFrom_append_sep {q : Quoting} {depth : Int} {cs : List Char}
    (hcode : q.after cs = .code) (hdepth : depthAfter q depth cs = 0) (ds : List Char) :
    splitFrom sep q depth (cs ++ sep :: ds) = splitFrom sep q depth cs ++ splitAt sep ds := by
  induction cs generalizing q depth with
  | nil =>
    obtain rfl : q = .code := hcode
    obtain rfl : depth = 0 := hdepth
    simp [splitFrom, splitAt, hquote, hsep]
  | cons c cs ih =>
    have hrest : (q.next c).after cs = .code := hcode
    have keep (q' : Quoting) (depth' : Int) (hq : q'.after cs = .code)
        (hd : depthAfter q' depth' cs = 0) :
        extendFirst c (splitFrom sep q' depth' (cs ++ sep :: ds))
          = extendFirst c (splitFrom sep q' depth' cs) ++ splitAt sep ds := by
      rw [ih hq hd, extendFirst_append c (splitFrom_ne_nil _ _ _ _)]
    cases q with
    | code =>
      have hback : depthAfter (Quoting.code.next c) (depth + depthStep c) cs = 0 := hdepth
      rw [List.cons_append]
      unfold splitFrom
      dsimp only
      split
      · rename_i hcut
        simp only [Bool.and_eq_true, decide_eq_true_eq, Bool.not_eq_true'] at hcut
        rw [next_of_not_quote hcut.1.2] at hrest hback
        rw [ih hrest hback, List.cons_append]
      · exact keep _ _ hrest hback
    | literal quote | escape quote =>
      exact keep _ _ hrest hdepth

end Separators

/-! ## Statements -/

/-- A text that ends with a semicolon outside comments and literals and has all its brackets
closed. -/
structure EndsStatement (text : List Char) : Prop where
  semicolon : ∃ lead, text = lead ++ [';'] ∧ regionAfter (.source .code) lead = .source .code
  closed : depthAfter .code 0 (withoutComments text) = 0

theorem depthAfter_append (q : Quoting) (depth : Int) (cs ds : List Char) :
    depthAfter q depth (cs ++ ds) = depthAfter (q.after cs) (depthAfter q depth cs) ds := by
  induction cs generalizing q depth with
  | nil => rfl
  | cons c cs ih => cases q <;> exact ih _ _

section Semicolon

variable {lead : List Char} (hregion : regionAfter (.source .code) lead = .source .code)
include hregion

/-- A semicolon in code stands behind what is left of the text before it. -/
theorem withoutComments_append_semicolon (more : List Char) :
    withoutComments (lead ++ ';' :: more)
      = withoutComments lead ++ ';' :: withoutComments more := by
  unfold withoutComments
  rw [withoutCommentsFrom_append _ _ (startsOutside_cons.mpr (by decide)), hregion]
  exact congrArg _ (withoutComments_cons (by decide) (by decide) (by decide) more)

theorem after_withoutComments : Quoting.code.after (withoutComments lead) = .code := by
  have hafter := after_withoutCommentsFrom (.source .code) lead
  rwa [hregion] at hafter

/-- With all brackets closed, the semicolon separates. -/
theorem splitAt_append_semicolon (hdepth : depthAfter .code 0 (withoutComments lead) = 0)
    (more : List Char) :
    splitAt ';' (withoutComments (lead ++ ';' :: more))
      = splitAt ';' (withoutComments lead) ++ splitAt ';' (withoutComments more) := by
  rw [withoutComments_append_semicolon hregion]
  exact splitFrom_append_sep (by decide) (by decide) (after_withoutComments hregion) hdepth _

theorem depthAfter_append_semicolon :
    depthAfter .code 0 (withoutComments (lead ++ [';']))
      = depthAfter .code 0 (withoutComments lead) := by
  rw [withoutComments_append_semicolon hregion, depthAfter_append, after_withoutComments hregion]
  exact Int.add_zero _

end Semicolon

/-- **After the end of a statement** the statements are those of the text that follows. -/
theorem splitAt_append {text : List Char} (h : EndsStatement text) :
    ∃ pieces, splitAt ';' (withoutComments text) = pieces ++ [[]] ∧ ∀ more : List Char,
      splitAt ';' (withoutComments (text ++ more)) = pieces ++ splitAt ';' (withoutComments more) := by
  obtain ⟨lead, rfl, hregion⟩ := h.semicolon
  have hdepth := h.closed
  rw [depthAfter_append_semicolon hregion] at hdepth
  have hcut := splitAt_append_semicolon hregion hdepth
  exact ⟨splitAt ';' (withoutComments lead), hcut [], fun more => by simpa using hcut more⟩

/-- A statement without its semicolon: a text that ends outside comments and literals, has all its
brackets closed and holds no other semicolon that separates. -/
structure IsUnended (text : List Char) : Prop where
  region : regionAfter (.source .code) text = .source .code
  closed : depthAfter .code 0 (withoutComments text) = 0
  single : splitAt ';' (withoutComments text) = [withoutComments text]

/-- One statement, up to its semicolon. -/
def IsStatement (text : List Char) : Prop :=
  ∃ lead, text = lead ++ [';'] ∧ IsUnended lead

instance (text : List Char) : Decidable (IsUnended text) :=
  decidable_of_iff (regionAfter (.source .code) text = .source .code
      ∧ depthAfter .code 0 (withoutComments text) = 0
      ∧ splitAt ';' (withoutComments text) = [withoutComments text])
    ⟨fun ⟨region, closed, single⟩ => ⟨region, closed, single⟩,
      fun h => ⟨h.region, h.closed, h.single⟩⟩

instance (text : List Char) : Decidable (IsStatement text) :=
  decidable_of_iff (text = text.dropLast ++ [';'] ∧ IsUnended text.dropLast)
    ⟨fun h => ⟨text.dropLast, h⟩, by
      rintro ⟨lead, rfl, h⟩
      rw [List.dropLast_concat]
      exact ⟨rfl, h⟩⟩

theorem IsUnended.endsStatement {lead : List Char} (h : IsUnended lead) :
    EndsStatement (lead ++ [';']) :=
  ⟨⟨lead, rfl, h.region⟩, by rw [depthAfter_append_semicolon h.region, h.closed]⟩

/-- The one statement of a text, and what follows it. -/
theorem IsUnended.splitAt {lead : List Char} (h : IsUnended lead) (more : List Char) :
    Builder.splitAt ';' (withoutComments (lead ++ ';' :: more))
      = withoutComments lead :: Builder.splitAt ';' (withoutComments more) := by
  rw [splitAt_append_semicolon h.region h.closed, h.single, List.singleton_append]

end Crowsfoot.Builder
