import Crowsfoot.Environment.Basic
import Crowsfoot.Text.Basic

/-!
# Environment files

A file that sets variables, one `NAME=value` an entry. A name may stand in single quotes and after
the word `export`. A value is bare, up to a comment or the end of the line, or it stands in quotes
and may then go over several lines and hold escapes. In every value `${NAME}` stands for another
variable, and `${NAME:-text}` for one with a default. A line that is no entry is skipped, and so is
a byte order mark at the beginning.

`read` gives the entries as they are written, `Environment.withFile` the environment with the
variables that it did not have yet.
-/

namespace Crowsfoot.Environment

open Crowsfoot.Text

/-- An entry of an environment file; without an equals sign it has no value. -/
structure Entry where
  name : String
  value : Option String
  deriving Repr, DecidableEq

/-! ## Grammar -/

/-- Blanks that do not end a line. -/
def isInlineBlank (c : Char) : Bool :=
  isBlank c && c != '\n'

/-- Whether a character belongs to a bare name. -/
def isNameChar (c : Char) : Bool :=
  !isBlank c && c != '=' && c != '#'

/-- What follows the word `export` and the blanks after it, if both are there. -/
def afterExport (cs : List Char) : List Char :=
  match after? "export".toList cs with
  | some (c :: rest) => if isInlineBlank c then rest.dropWhile isInlineBlank else cs
  | _ => cs

/-- A name and what follows it. A comment is an entry without a name. -/
def name? (cs : List Char) : Option (Option String × List Char) :=
  match cs with
  | '#' :: _ => some (none, cs)
  | '\'' :: inside =>
    let name := inside.takeWhile (· != '\'')
    match inside.dropWhile (· != '\'') with
    | _ :: rest => if name.isEmpty then none else some (some (String.ofList name), rest)
    | [] => none
  | _ =>
    let name := cs.takeWhile isNameChar
    if name.isEmpty then none
    else some (some (String.ofList name), cs.dropWhile isNameChar)

/-- The inside of a quoted value and what follows it. The first quote without an escape closes the
value; a backslash keeps the character after it from closing it, be it a quote or a backslash. -/
def quotedValue? (quote : Char) : List Char → Option (List Char × List Char)
  | [] => none
  | '\\' :: c :: rest =>
    (quotedValue? quote rest).map fun (inside, after) => ('\\' :: c :: inside, after)
  | c :: rest =>
    if c = quote then some ([], rest)
    else (quotedValue? quote rest).map fun (inside, after) => (c :: inside, after)

/-- What a character means after a backslash in single quotes. -/
def singleEscape? (c : Char) : Option Char :=
  if c = '\\' || c = '\'' then some c else none

/-- What a character means after a backslash in double quotes. -/
def doubleEscape? (c : Char) : Option Char :=
  match c with
  | '\\' | '\'' | '"' => some c
  | 'a' => some (Char.ofNat 7)
  | 'b' => some (Char.ofNat 8)
  | 't' => some '\t'
  | 'n' => some '\n'
  | 'v' => some (Char.ofNat 11)
  | 'f' => some (Char.ofNat 12)
  | 'r' => some '\r'
  | _ => none

/-- Replaces escapes by what they mean; other backslashes stay. -/
def unescape (meaning : Char → Option Char) : List Char → List Char
  | '\\' :: c :: rest =>
    match meaning c with
    | some d => d :: unescape meaning rest
    | none => '\\' :: unescape meaning (c :: rest)
  | c :: rest => c :: unescape meaning rest
  | [] => []

/-- A text up to the blanks before a comment. -/
def beforeComment : List Char → List Char
  | [] => []
  | c :: rest =>
    if isBlank c && (rest.dropWhile isBlank).head? == some '#' then []
    else c :: beforeComment rest

/-- The bare value in what follows the equals sign on its line: without a comment, and without
blanks at either end. A `#` begins a comment only after a blank, which may be the first one after
the equals sign; the value is empty then. -/
def bareValue (line : List Char) : List Char :=
  trim (beforeComment line)

/-- The value after an equals sign, and what follows it. -/
def value? (cs : List Char) : Option (List Char × List Char) :=
  match cs.dropWhile isInlineBlank with
  | '\'' :: inside =>
    (quotedValue? '\'' inside).map fun (v, rest) => (unescape singleEscape? v, rest)
  | '"' :: inside =>
    (quotedValue? '"' inside).map fun (v, rest) => (unescape doubleEscape? v, rest)
  | _ => some (bareValue (cs.takeWhile (· != '\n')), cs.dropWhile (· != '\n'))

/-- A text after the comment that it begins with, if it does. -/
def afterComment (cs : List Char) : List Char :=
  match cs.dropWhile isInlineBlank with
  | '#' :: rest => rest.dropWhile (· != '\n')
  | _ => cs

/-- What follows the end of a line. -/
def afterLine? (cs : List Char) : Option (List Char) :=
  match cs.dropWhile isInlineBlank with
  | [] => some []
  | '\n' :: rest => some rest
  | _ => none

/-- The entry at the beginning of a text, and what follows it; where there is none, the place up to
which the text was understood. -/
def entry (cs : List Char) : Except (List Char) (Option Entry × List Char) := do
  let cs := afterExport cs
  let (name, rest) ← (name? cs).elim (.error cs) .ok
  let (value, rest) ←
    match rest.dropWhile isInlineBlank with
    | '=' :: rest =>
      match value? rest with
      | some (v, rest) => .ok (some (String.ofList v), rest)
      | none => .error rest
    | rest => .ok (none, rest)
  let rest := afterComment rest
  let rest ← (afterLine? rest).elim (.error rest) .ok
  return (name.map fun n => ⟨n, value⟩, rest)

/-- What follows the line that a place is in. -/
def nextLine (cs : List Char) : List Char :=
  (cs.dropWhile (· != '\n')).tail

/-- A text without the byte order mark that it may begin with. -/
def withoutMark : List Char → List Char
  | '\ufeff' :: rest => rest
  | cs => cs

/-- The entries of a text. Every entry and every skipped line leaves less of the text. -/
def read (text : List Char) : List Entry :=
  let start := text.dropWhile isBlank
  if start.isEmpty then []
  else
    let (found, rest) :=
      match entry start with
      | .ok (found, rest) => (found, rest)
      | .error stop => (none, nextLine stop)
    if _h : rest.length < text.length then found.toList ++ read rest else found.toList
termination_by text.length

/-! ## Variables in values -/

/-- A variable in a value: its name and its default. -/
structure Reference where
  name : String
  default : Option String
  deriving Repr, DecidableEq

/-- The reference after its opening brace, and the number of characters it takes up to its closing
brace. -/
def reference? (cs : List Char) : Option (Reference × Nat) :=
  let name := cs.takeWhile fun c => c != '\x7d' && c != ':'
  match cs.drop name.length with
  | '\x7d' :: _ => some (⟨String.ofList name, none⟩, name.length + 1)
  | ':' :: '-' :: rest =>
    let default := rest.takeWhile (· != '\x7d')
    if (rest.drop default.length).isEmpty then none
    else some (⟨String.ofList name, some (String.ofList default)⟩, name.length + default.length + 3)
  | _ => none

/-- The text with its references replaced; the first `skip` characters belong to one that has been
read. -/
def expandFrom (lookup : String → Option String) : Nat → List Char → List Char
  | _, [] => []
  | k + 1, _ :: cs => expandFrom lookup k cs
  | 0, c :: cs =>
    match c, cs with
    | '$', '\x7b' :: inside =>
      match reference? inside with
      | some (r, length) =>
        (((lookup r.name).or r.default).getD "").toList ++ expandFrom lookup (length + 1) cs
      | none => c :: expandFrom lookup 0 cs
    | _, _ => c :: expandFrom lookup 0 cs

/-- The text with its references replaced. -/
def expand (lookup : String → Option String) (s : String) : String :=
  String.ofList (expandFrom lookup 0 s.toList)

/-! ## Effect on an environment -/

/-- The values of the entries up to now, by name. A later entry takes the place of an earlier one of
its name. -/
abbrev Values := List (String × Option String)

/-- The values with one more. -/
def Values.set (values : Values) (name : String) (value : Option String) : Values :=
  if (values.lookup name).isSome then
    values.map fun v => if v.1 == name then (name, value) else v
  else values ++ [(name, value)]

/-- The value of a variable: that of the environment, or else that of an earlier entry. -/
def lookupIn (env : Environment) (values : Values) (name : String) : Option String :=
  (env.get? name).or ((values.lookup name).map (·.getD ""))

/-- The values of entries, with their references replaced. -/
def resolve (env : Environment) (entries : List Entry) : Values :=
  entries.foldl (fun values e => values.set e.name (e.value.map (expand (lookupIn env values)))) []

/-- The environment with the variables of an environment file that it did not have. -/
def withFile (env : Environment) (text : String) : Environment :=
  env.setDefaults <|
    (resolve env (read (withoutMark text.toList))).filterMap fun (name, value) => value.map fun v => (name, v)

end Crowsfoot.Environment
