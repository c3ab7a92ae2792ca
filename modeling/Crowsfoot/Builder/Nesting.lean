import Crowsfoot.Text.Basic
import Crowsfoot.Text.Quoted

/-!
# Literals and brackets

The lexical structure of builder code. Every position is either in code or inside a string literal
(`Quoting`); a literal is closed by the quote that opened it, and a backslash takes the next
character with it. Brackets count only in code.

* `group` cuts a text at the bracket that closes the group it begins in. An opening bracket begins
  a nested group; a closing bracket other than the awaited one is an ordinary character.
* `splitAt` cuts a text at the separators outside literals and brackets. Here the depth is a plain
  count over all kinds of brackets and falls below zero at a stray closing one.
* Neither loses anything: `group_eq` and `joinWith_splitAt`.
-/

namespace Crowsfoot.Builder

open Crowsfoot.Text

/-- Whether a position is in code or in a literal. -/
inductive Quoting where
  | code
  /-- In a literal opened by this quote. -/
  | literal (quote : Char)
  /-- In such a literal, after a backslash. -/
  | escape (quote : Char)
  deriving Repr, DecidableEq

/-- Where the position after a character is. -/
def Quoting.next : Quoting → Char → Quoting
  | .code, c => if isQuote c then .literal c else .code
  | .literal quote, c =>
    if c = '\\' then .escape quote else if c = quote then .code else .literal quote
  | .escape quote, _ => .literal quote

/-- Where the position after a text is. -/
def Quoting.after (q : Quoting) (cs : List Char) : Quoting :=
  cs.foldl Quoting.next q

/-- The bracket that closes an opening one. -/
def closerOf? : Char → Option Char
  | '(' => some ')'
  | '[' => some ']'
  | '\x7b' => some '\x7d'
  | _ => none

/-- What a character of code adds to the bracket depth. -/
def depthStep (c : Char) : Int :=
  if c = '(' || c = '[' || c = '\x7b' then 1
  else if c = ')' || c = ']' || c = '\x7d' then -1
  else 0

/-! ## Groups -/

/-- The inside of a group and what follows its closing bracket `closer`; `outer` are the closing
brackets that the enclosing groups wait for, the innermost first. The inside of the outermost group
is given. -/
def groupFrom (q : Quoting) (closer : Char) (outer : List Char) :
    List Char → Option (List Char × List Char)
  | [] => none
  | c :: cs =>
    let keep := Option.map fun (r : List Char × List Char) => (c :: r.1, r.2)
    match q with
    | .code =>
      if isQuote c then keep (groupFrom (.literal c) closer outer cs)
      else
        match closerOf? c with
        | some inner => keep (groupFrom .code inner (closer :: outer) cs)
        | none =>
          if c = closer then
            match outer with
            | [] => some ([], cs)
            | next :: rest => keep (groupFrom .code next rest cs)
          else keep (groupFrom .code closer outer cs)
    | _ => keep (groupFrom (q.next c) closer outer cs)

/-- The inside of a group that `closer` closes, and what follows. -/
def group (closer : Char) (cs : List Char) : Option (List Char × List Char) :=
  groupFrom .code closer [] cs

theorem groupFrom_eq {q : Quoting} {closer : Char} {outer cs inside rest : List Char}
    (h : groupFrom q closer outer cs = some (inside, rest)) :
    ∃ c, cs = inside ++ c :: rest := by
  induction cs generalizing q closer outer inside with
  | nil => simp [groupFrom] at h
  | cons c cs ih =>
    have keep {q' closer' outer'}
        (h' : Option.map (fun (r : List Char × List Char) => (c :: r.1, r.2))
          (groupFrom q' closer' outer' cs) = some (inside, rest)) :
        ∃ d, c :: cs = inside ++ d :: rest := by
      obtain ⟨⟨i, r⟩, hg, he⟩ := Option.map_eq_some_iff.1 h'
      cases he
      obtain ⟨d, hd⟩ := ih hg
      exact ⟨d, by simp [hd]⟩
    unfold groupFrom at h
    split at h
    · split at h
      · exact keep h
      · split at h
        · exact keep h
        · split at h
          · split at h
            · simp only [Option.some.injEq, Prod.mk.injEq] at h
              exact ⟨c, by simp [← h.1, h.2]⟩
            · exact keep h
          · exact keep h
    · exact keep h

/-- A group, its closing bracket and the rest are the text. -/
theorem group_eq {closer : Char} {cs inside rest : List Char}
    (h : group closer cs = some (inside, rest)) : ∃ c, cs = inside ++ c :: rest :=
  groupFrom_eq h

/-- Why a position does not begin a group. -/
inductive PositionError where
  /-- No character is there. -/
  | outOfRange
  /-- The character there is no opening bracket. -/
  | notOpening (c : Char)
  deriving Repr, DecidableEq

/-- The wording of a position error. -/
def PositionError.message : PositionError → String
  | .outOfRange => "string index out of range"
  | .notOpening c => String.ofList (quoted [c])

/-- The index of the bracket that closes the one at `start`, if there is one. A negative start
counts from the end of the text, and reading goes on from there to its beginning. -/
def closingIndex (text : String) (start : Int) : Except PositionError (Option Int) :=
  let cs := text.toList
  let back := (-start).toNat
  let unrolled := cs.drop (cs.length - back) ++ cs
  if cs.length < back then .error .outOfRange
  else
    match unrolled.drop (start.toNat) with
    | [] => .error .outOfRange
    | c :: rest =>
      match closerOf? c with
      | none => .error (.notOpening c)
      | some closer =>
        .ok ((group closer rest).map fun found => start + 1 + (found.1.length : Int))

/-! ## Separators -/

/-- Adds a character to the first piece. -/
def extendFirst (c : Char) : List (List Char) → List (List Char)
  | [] => [[c]]
  | p :: ps => (c :: p) :: ps

/-- The pieces between the separators, read from the given quoting and depth. -/
def splitFrom (sep : Char) (q : Quoting) (depth : Int) : List Char → List (List Char)
  | [] => [[]]
  | c :: cs =>
    match q with
    | .code =>
      let deeper := depth + depthStep c
      if c = sep && !isQuote c && deeper == 0 then [] :: splitFrom sep .code deeper cs
      else extendFirst c (splitFrom sep (q.next c) deeper cs)
    | _ => extendFirst c (splitFrom sep (q.next c) depth cs)

/-- The pieces of a text between the separators outside literals and brackets. -/
def splitAt (sep : Char) (cs : List Char) : List (List Char) :=
  splitFrom sep .code 0 cs

theorem extendFirst_ne_nil (c : Char) (ps : List (List Char)) : extendFirst c ps ≠ [] := by
  cases ps <;> simp [extendFirst]

theorem splitFrom_ne_nil (sep : Char) (q : Quoting) (depth : Int) (cs : List Char) :
    splitFrom sep q depth cs ≠ [] := by
  cases cs with
  | nil => simp [splitFrom]
  | cons c cs =>
    unfold splitFrom
    split
    · dsimp only
      split
      · simp
      · exact extendFirst_ne_nil _ _
    · exact extendFirst_ne_nil _ _

theorem joinWith_extendFirst {sep : List Char} (c : Char) {ps : List (List Char)} (h : ps ≠ []) :
    joinWith sep (extendFirst c ps) = c :: joinWith sep ps := by
  match ps, h with
  | [p], _ => rfl
  | p :: q :: ps, _ => simp [extendFirst, joinWith]

theorem joinWith_splitFrom (sep : Char) (q : Quoting) (depth : Int) (cs : List Char) :
    joinWith [sep] (splitFrom sep q depth cs) = cs := by
  induction cs generalizing q depth with
  | nil => rfl
  | cons c cs ih =>
    unfold splitFrom
    split
    · dsimp only
      split
      · next h =>
        have hc : c = sep := by simp at h; exact h.1.1
        cases hs : splitFrom sep .code (depth + depthStep c) cs with
        | nil => exact absurd hs (splitFrom_ne_nil _ _ _ _)
        | cons p ps =>
          have := ih .code (depth + depthStep c)
          rw [hs] at this
          simp [joinWith, this, hc]
      · rw [joinWith_extendFirst c (splitFrom_ne_nil _ _ _ _), ih]
    · rw [joinWith_extendFirst c (splitFrom_ne_nil _ _ _ _), ih]

/-- The pieces with the separators between them are the text. -/
theorem joinWith_splitAt (sep : Char) (cs : List Char) : joinWith [sep] (splitAt sep cs) = cs :=
  joinWith_splitFrom sep .code 0 cs

theorem length_le_of_mem_joinWith {sep p : List Char} {ps : List (List Char)} (h : p ∈ ps) :
    p.length ≤ (joinWith sep ps).length := by
  induction ps with
  | nil => simp at h
  | cons q ps ih =>
    cases ps with
    | nil => simp at h; simp [joinWith, h]
    | cons r rs =>
      rcases List.mem_cons.1 h with rfl | h
      · simp only [joinWith, List.length_append]; omega
      · have := ih h; simp only [joinWith, List.length_append]; omega

/-- No piece is longer than the text. -/
theorem length_le_of_mem_splitAt {sep : Char} {p cs : List Char} (h : p ∈ splitAt sep cs) :
    p.length ≤ cs.length := by
  have := @length_le_of_mem_joinWith [sep] _ _ h
  rwa [joinWith_splitAt] at this

end Crowsfoot.Builder
