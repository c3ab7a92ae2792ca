import Crowsfoot.Builder.Nesting
import Crowsfoot.Text.Integer

/-!
# Arguments of builder calls

An argument is a string literal, an integer, a list in square brackets or, where none of these fits,
a bare token such as `now()` or `User::class`; a blank argument is missing. `parse` reads one
argument, `parseAll` a list of them separated by commas. Reading fails only on a token that looks
like an integer and is none.

`literal` writes a string the way generated migrations do.
-/

namespace Crowsfoot.Builder

open Crowsfoot.Text

/-- An argument of a builder call. -/
inductive Argument where
  /-- Nothing but blanks. -/
  | missing
  /-- A string literal. -/
  | text (s : String)
  /-- Any other token. -/
  | bare (s : String)
  | int (n : Int)
  | list (items : List Argument)
  deriving Repr, Inhabited

namespace Argument

/-- A string as a literal in single quotes, with a backslash before quotes and backslashes. -/
def literal (s : String) : String :=
  onChars (fun cs =>
    '\'' :: cs.flatMap (fun c => if c = '\\' || c = '\'' then ['\\', c] else [c]) ++ ['\'']) s

/-- Takes the backslashes off escaped characters; one at the end is dropped. -/
def unescape : List Char → List Char
  | [] => []
  | ['\\'] => []
  | '\\' :: c :: rest => c :: unescape rest
  | c :: rest => c :: unescape rest

/-- Reads one argument. -/
def parse (token : List Char) : Except ReadError Argument :=
  match _ : trim token with
  | [] => .ok .missing
  | first :: more =>
    let last := (first :: more).getLast (by simp)
    if isQuote first && last == first && !more.isEmpty then
      .ok (.text (String.ofList (unescape more.dropLast)))
    else if first = '[' && last == ']' then do
      let items := (splitAt ',' more.dropLast).attach.filter fun item => !item.1.all isBlank
      let items ← items.mapM fun item => parse item.1
      return .list items
    else if looksNumeric (first :: more) then
      return .int (← readInteger (first :: more))
    else
      .ok (.bare (String.ofList (first :: more)))
termination_by token.length
decreasing_by
  rename_i h _ _
  have hp := length_le_of_mem_splitAt item.2
  have ht := length_trim_le token
  rw [h] at ht
  simp only [List.length_cons] at ht
  simp only [List.length_dropLast] at hp
  omega

/-- Reads the arguments between the brackets of a call. -/
def parseAll (raw : List Char) : Except ReadError (List Argument) :=
  if raw.all isBlank then .ok [] else (splitAt ',' raw).mapM parse

/-- The integer an argument is. -/
def int? : Argument → Option Int
  | .int n => some n
  | _ => none

/-- The string a literal stands for. -/
def text? : Argument → Option String
  | .text s => some s
  | _ => none

/-- The string of a literal or the token itself. -/
def word? : Argument → Option String
  | .text s => some s
  | .bare s => some s
  | _ => none

/-- The column names an argument gives: one literal, or the literals and tokens of a list. -/
def names : Argument → List String
  | .text s => [s]
  | .list items => items.filterMap word?
  | _ => []

mutual
/-- An argument inside a list, as it is shown. -/
def shownItem : Argument → String
  | .missing => "None"
  | .text s => quotedText s
  | .bare s => quotedText s
  | .int n => toString n
  | .list items => "[" ++ shownItems items ++ "]"

/-- The items of a list, as they are shown. -/
def shownItems : List Argument → String
  | [] => ""
  | [a] => shownItem a
  | a :: rest => shownItem a ++ ", " ++ shownItems rest
end

/-- An argument as text: strings and tokens as they are, lists with quoted items. -/
def shown : Argument → String
  | .text s => s
  | .bare s => s
  | a => shownItem a

/-- Whether an argument is missing, zero or empty. -/
def isVoid : Argument → Bool
  | .missing => true
  | .text s => s.isEmpty
  | .bare s => s.isEmpty
  | .int n => n == 0
  | .list items => items.isEmpty

end Argument

end Crowsfoot.Builder
