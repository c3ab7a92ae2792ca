import Crowsfoot.Files.Path

/-!
# Patterns of file names

A pattern has wildcards: a star stands for any text, a question mark for one character, and a set in
square brackets for one of its characters, or for one that is not among them if it begins with an
exclamation mark. A bracket that is never closed stands for itself. `Pattern.accepts` decides
whether a name fits a pattern as a whole.
-/

namespace Crowsfoot.Files

open Crowsfoot.Text

/-- One element of a pattern. -/
inductive Wildcard where
  | char (c : Char)
  | anyChar
  | anyText
  /-- A character in one of the ranges, or outside all of them. -/
  | set (negated : Bool) (ranges : List (Char × Char))
  deriving Repr, DecidableEq

/-- A pattern. -/
abbrev Pattern := List Wildcard

namespace Pattern

/-- The ranges of the characters between brackets. A hyphen between two characters makes a range,
which is empty if they are out of order. -/
def ranges : List Char → List (Char × Char)
  | a :: '-' :: b :: rest => (a, b) :: ranges rest
  | a :: rest => (a, a) :: ranges rest
  | [] => []

/-- What stands between brackets and what follows them, for a text after an opening bracket. A
closing bracket right at the beginning belongs to the set. -/
def setText? (cs : List Char) : Option (List Char × List Char) :=
  let lead :=
    match cs with
    | '!' :: ']' :: _ => 2
    | '!' :: _ => 1
    | ']' :: _ => 1
    | _ => 0
  let rest := cs.drop lead
  match rest.dropWhile (· != ']') with
  | _ :: after => some (cs.take lead ++ rest.takeWhile (· != ']'), after)
  | [] => none

/-- The set for the characters between brackets. -/
def setOf : List Char → Wildcard
  | '!' :: cs => .set true (ranges cs)
  | cs => .set false (ranges cs)

/-- Reads a pattern; the first `skip` characters belong to a set that has been read. -/
def readFrom : Nat → List Char → Pattern
  | _, [] => []
  | k + 1, _ :: cs => readFrom k cs
  | 0, c :: cs =>
    if c = '*' then .anyText :: readFrom 0 cs
    else if c = '?' then .anyChar :: readFrom 0 cs
    else if c = '[' then
      match setText? cs with
      | some (inside, _) => setOf inside :: readFrom (inside.length + 1) cs
      | none => .char c :: readFrom 0 cs
    else .char c :: readFrom 0 cs

/-- Reads a pattern. -/
def ofString (s : String) : Pattern :=
  readFrom 0 s.toList

/-- Whether a character is in one of the ranges. -/
def inSet (rs : List (Char × Char)) (c : Char) : Bool :=
  rs.any fun r => decide (r.1 ≤ c) && decide (c ≤ r.2)

/-- Whether a text fits a pattern as a whole. -/
def accepts : Pattern → List Char → Bool
  | [], cs => cs.isEmpty
  | .anyText :: p, [] => accepts p []
  | .anyText :: p, c :: cs => accepts p (c :: cs) || accepts (.anyText :: p) cs
  | .char a :: p, c :: cs => a == c && accepts p cs
  | .anyChar :: p, _ :: cs => accepts p cs
  | .set negated rs :: p, c :: cs => (inSet rs c != negated) && accepts p cs
  | _ :: _, [] => false
termination_by p cs => p.length + cs.length

/-- Whether a text has wildcards. -/
def isWild (s : String) : Bool :=
  s.toList.any fun c => c == '*' || c == '?' || c == '['

end Pattern

end Crowsfoot.Files
