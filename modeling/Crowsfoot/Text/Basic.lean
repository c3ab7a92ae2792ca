import Crowsfoot.Text.CharClass

/-!
# Cutting and joining text

Operations on `List Char`, the form in which all reading is done, and their counterparts on
`String`, the form in which names and documents are kept.

* `strip p` drops the characters in `p` at both ends; `trim` does so for blanks.
* `pieces sep` cuts at every separator, so that `joinWith` puts the text together again
  (`joinWith_pieces`).
* `splitLines` cuts at every kind of line end; a line end at the very end opens no further line.
-/

namespace Crowsfoot.Text

/-- Drops the characters in `p` at both ends. -/
def strip (p : Char → Bool) (cs : List Char) : List Char :=
  ((cs.dropWhile p).reverse.dropWhile p).reverse

/-- Drops the blanks at both ends. -/
def trim (cs : List Char) : List Char :=
  strip isBlank cs

theorem length_strip_le (p : Char → Bool) (cs : List Char) : (strip p cs).length ≤ cs.length := by
  have h1 := (List.dropWhile_suffix (l := (cs.dropWhile p).reverse) p).length_le
  have h2 := (List.dropWhile_suffix (l := cs) p).length_le
  simp only [strip, List.length_reverse] at h1 ⊢
  omega

theorem length_trim_le (cs : List Char) : (trim cs).length ≤ cs.length :=
  length_strip_le isBlank cs

/-- Cuts at every separator; there is one piece more than there are separators. -/
def pieces (sep : Char) : List Char → List (List Char)
  | [] => [[]]
  | c :: rest =>
    if c = sep then [] :: pieces sep rest
    else
      match pieces sep rest with
      | [] => [[c]]
      | p :: ps => (c :: p) :: ps

/-- Puts `sep` between the pieces. -/
def joinWith (sep : List Char) : List (List Char) → List Char
  | [] => []
  | [p] => p
  | p :: ps => p ++ sep ++ joinWith sep ps

theorem pieces_ne_nil (sep : Char) (cs : List Char) : pieces sep cs ≠ [] := by
  cases cs with
  | nil => simp [pieces]
  | cons c rest =>
    unfold pieces
    split
    · simp
    · split <;> simp

/-- Cutting loses nothing but the separators. -/
theorem joinWith_pieces (sep : Char) (cs : List Char) :
    joinWith [sep] (pieces sep cs) = cs := by
  induction cs with
  | nil => rfl
  | cons c rest ih =>
    unfold pieces
    split
    · next h =>
      cases hp : pieces sep rest with
      | nil => exact absurd hp (pieces_ne_nil sep rest)
      | cons p ps => rw [hp] at ih; simp [joinWith, ih, h]
    · cases hp : pieces sep rest with
      | nil => exact absurd hp (pieces_ne_nil sep rest)
      | cons p ps =>
        rw [hp] at ih
        cases ps with
        | nil => simp only [joinWith] at ih ⊢; rw [ih]
        | cons q qs => simp only [joinWith, List.cons_append] at ih ⊢; rw [ih]

/-- Maximal runs of characters outside `p`. -/
def runsOutside (p : Char → Bool) (cs : List Char) : List (List Char) :=
  let rec go (run : List Char) : List Char → List (List Char)
    | [] => [run.reverse]
    | c :: rest => if p c then run.reverse :: go [] rest else go (c :: run) rest
  (go [] cs).filter fun run => !run.isEmpty

/-- What follows `lead` in a text that begins with it. -/
def after? : (lead cs : List Char) → Option (List Char)
  | [], cs => some cs
  | _ :: _, [] => none
  | l :: ls, c :: cs => if l = c then after? ls cs else none

theorem eq_append_of_after? {lead cs rest : List Char} (h : after? lead cs = some rest) :
    cs = lead ++ rest := by
  induction lead generalizing cs with
  | nil => simpa [after?] using h
  | cons l ls ih =>
    cases cs with
    | nil => simp [after?] at h
    | cons c cs =>
      simp only [after?] at h
      split at h
      · next hc => rw [ih h, hc]; rfl
      · simp at h

/-- Removes the occurrences of `part`; the first `skip` characters belong to one that has begun. -/
def withoutFrom (part : List Char) : Nat → List Char → List Char
  | _, [] => []
  | k + 1, _ :: cs => withoutFrom part k cs
  | 0, c :: cs =>
    if part.isPrefixOf (c :: cs) then withoutFrom part (part.length - 1) cs
    else c :: withoutFrom part 0 cs

/-- The text without the occurrences of a non-empty `part`, found from left to right. -/
def without (part cs : List Char) : List Char :=
  withoutFrom part 0 cs

/-- Whether the text begins with `lead`. -/
def startsWith (lead cs : List Char) : Bool :=
  lead.isPrefixOf cs

/-- Whether the text ends with `tail`. -/
def endsWith (tail cs : List Char) : Bool :=
  tail.isSuffixOf cs

/-- The text without one final line feed. -/
def dropFinalNewline (cs : List Char) : List Char :=
  if cs.getLast? = some '\n' then cs.dropLast else cs

/-- Characters that end a line of a diagram. -/
def isLineEnd (c : Char) : Bool :=
  let n := c.toNat
  decide (10 ≤ n ∧ n ≤ 13) || decide (28 ≤ n ∧ n ≤ 30) || n == 0x85 || n == 0x2028 || n == 0x2029

/-- The lines of a text. A carriage return with a line feed is one line end. -/
def splitLines (cs : List Char) : List (List Char) :=
  go [] cs
where
  /-- `run` holds the current line backwards. -/
  go (run : List Char) : List Char → List (List Char)
    | [] => if run.isEmpty then [] else [run.reverse]
    | '\r' :: '\n' :: rest => run.reverse :: go [] rest
    | c :: rest => if isLineEnd c then run.reverse :: go [] rest else go (c :: run) rest

/-- Turns every kind of line end of a stored file into a line feed. -/
def unifyNewlines : List Char → List Char
  | [] => []
  | '\r' :: '\n' :: rest => '\n' :: unifyNewlines rest
  | '\r' :: rest => '\n' :: unifyNewlines rest
  | c :: rest => c :: unifyNewlines rest

/-! ## On strings -/

/-- Applies an operation on character lists to a string. -/
def onChars (f : List Char → List Char) (s : String) : String :=
  String.ofList (f s.toList)

/-- The string without the blanks at both ends. -/
def trimmed (s : String) : String :=
  onChars trim s

/-- Whether nothing but blanks is in the string. -/
def isBlankText (s : String) : Bool :=
  s.toList.all isBlank

/-- The strings with `", "` between them. -/
def commaList (ss : List String) : String :=
  ", ".intercalate ss

/-- Code point order. -/
def le (a b : String) : Bool :=
  decide (a ≤ b)

/-- The strings in code point order. -/
def sorted (ss : List String) : List String :=
  ss.mergeSort le

end Crowsfoot.Text
