import Crowsfoot.Builder.Nesting

/-!
# Comments

`withoutComments` removes block comments (`/* … */`) and line comments (`//` or `#`, up to the line
feed, which stays) wherever they stand outside string literals. A comment or literal that is never
closed runs to the end of the text.
-/

namespace Crowsfoot.Builder

open Crowsfoot.Text

/-- What a position belongs to. -/
inductive Region where
  | source (quoting : Quoting)
  | blockComment
  | lineComment
  deriving Repr, DecidableEq

/-- What is left of a text that begins in the given region. -/
def withoutCommentsFrom : Region → List Char → List Char
  | _, [] => []
  | .source .code, '/' :: '*' :: rest => withoutCommentsFrom .blockComment rest
  | .source .code, '/' :: '/' :: rest => withoutCommentsFrom .lineComment rest
  | .source .code, '#' :: rest => withoutCommentsFrom .lineComment rest
  | .source q, c :: rest => c :: withoutCommentsFrom (.source (q.next c)) rest
  | .blockComment, '*' :: '/' :: rest => withoutCommentsFrom (.source .code) rest
  | .blockComment, _ :: rest => withoutCommentsFrom .blockComment rest
  | .lineComment, '\n' :: rest => '\n' :: withoutCommentsFrom (.source .code) rest
  | .lineComment, _ :: rest => withoutCommentsFrom .lineComment rest

/-- The text without its comments. -/
def withoutComments (cs : List Char) : List Char :=
  withoutCommentsFrom (.source .code) cs

end Crowsfoot.Builder
