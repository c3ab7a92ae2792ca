import Crowsfoot.Schema.Column
import Crowsfoot.Schema.Relationship
import Crowsfoot.Text.Integer

/-!
# Lines of a diagram

The forms a line can have. A relationship line joins two words by a crow's-foot sign. A column line
is

    [*] name : type[(parameters)] [NOT NULL] ["comment"]

and an entity line opens a list of them. `relationship?` and `entity?` read the first and the last
form; `columnText?` finds the parts of the second and `ColumnText.column` gives them their meaning.
A column line that is well formed can still fail to be read: its numbers may have digits without a
positional value.
-/

namespace Crowsfoot.Diagram

open Crowsfoot.Text

/-! ## Words -/

/-- The word a text begins with and what follows it. -/
def word? (cs : List Char) : Option (List Char × List Char) :=
  let word := cs.takeWhile isWord
  if word.isEmpty then none else some (word, cs.dropWhile isWord)

/-- What follows one or more blanks. -/
def afterBlanks? : List Char → Option (List Char)
  | c :: rest => if isBlank c then some (rest.dropWhile isBlank) else none
  | [] => none

/-- Whether a text ends here, or after one line feed. -/
def isEnd (cs : List Char) : Bool :=
  cs.isEmpty || cs == ['\n']

/-- Whether `c` is the small letter `l` in either case; the dotted and the dotless i are cases
of `i`. -/
def isLetter (l c : Char) : Bool :=
  c.toLower == l || (l == 'i' && (c.toNat == 0x130 || c.toNat == 0x131))

/-- What follows a word of small letters, written in any case. -/
def afterKeyword? : (keyword cs : List Char) → Option (List Char)
  | [], cs => some cs
  | l :: ls, c :: cs => if isLetter l c then afterKeyword? ls cs else none
  | _ :: _, [] => none

/-! ## Entities and relationships -/

/-- The name of the entity that a line opens. -/
def entity? (cs : List Char) : Option String := do
  let rest ← afterKeyword? "entity".toList cs
  let rest ← afterBlanks? rest
  let (name, rest) ← word? rest
  let tail := rest.dropWhile isBlank
  if isEnd rest || isEnd tail || (tail.head? == some '\x7b' && isEnd tail.tail) then
    some (String.ofList name)
  else none

/-- The sign between parent and children. -/
def oneToManySign : String := "||--o\x7b"

/-- The sign between parent and child. -/
def oneToOneSign : String := "||--||"

/-- The sign between the ends of a many-to-many relationship. -/
def manyToManySign : String := "\x7do--o\x7b"

/-- The words on both sides of a sign, and what follows the second. -/
def joined? (sign : String) (cs : List Char) : Option (String × String × List Char) := do
  let (left, rest) ← word? cs
  let rest ← afterBlanks? rest
  let rest ← after? sign.toList rest
  let rest ← afterBlanks? rest
  let (right, rest) ← word? rest
  return (String.ofList left, String.ofList right, rest)

/-- The words on both sides of a sign that nothing follows. -/
def ends? (sign : String) (cs : List Char) : Option (String × String) := do
  let (left, right, rest) ← joined? sign cs
  if isEnd rest then some (left, right) else none

/-- The label after the second word of a relationship line. -/
def label? (cs : List Char) : Option String := do
  let rest ← after? [':'] (cs.dropWhile isBlank)
  let (label, rest) ← word? (rest.dropWhile isBlank)
  if isEnd rest then some (String.ofList label) else none

/-- The ends of a many-to-many line, with its label if it has one. -/
def manyToMany? (cs : List Char) : Option Relationship := do
  let (left, right, rest) ← joined? manyToManySign cs
  if isEnd rest then some (.manyToMany left right none)
  else (label? rest).map fun label => .manyToMany left right (some label)

/-- The relationship that a line states. -/
def relationship? (line : List Char) : Option Relationship :=
  match ends? oneToManySign line with
  | some (parent, child) => some (.oneToMany parent child)
  | none =>
    match ends? oneToOneSign line with
    | some (parent, child) => some (.oneToOne parent child)
    | none => manyToMany? line

/-! ## Columns -/

/-- The length of `NOT NULL` at the beginning of a text, where a word ends after it. -/
def notNullLength? (cs : List Char) : Option Nat := do
  let rest ← afterKeyword? "not".toList cs
  let rest ← afterBlanks? rest
  let rest ← afterKeyword? "null".toList rest
  if rest.head?.any isWord then none else some (cs.length - rest.length)

/-- Whether `NOT NULL` stands in a text as words of their own; `inWord` tells whether a word
character stands before it. -/
def hasNotNull (inWord : Bool) : List Char → Bool
  | [] => false
  | c :: cs => (!inWord && (notNullLength? (c :: cs)).isSome) || hasNotNull (isWord c) cs

/-- A text without its phrases `NOT NULL`; the first `skip` characters belong to one. -/
def withoutNotNull (inWord : Bool) : Nat → List Char → List Char
  | _, [] => []
  | k + 1, c :: cs => withoutNotNull (isWord c) k cs
  | 0, c :: cs =>
    match if inWord then none else notNullLength? (c :: cs) with
    | some n => withoutNotNull (isWord c) (n - 1) cs
    | none => c :: withoutNotNull (isWord c) 0 cs

/-- The parts of a column line. -/
structure ColumnText where
  /-- Whether a star marks the column as primary key. -/
  starred : Bool
  name : String
  typeName : String
  /-- What stands in brackets after the type. -/
  parameters : List Char
  trailing : List Char
  deriving Repr, DecidableEq

/-- Whether a text has no line feed, except at its end. -/
def isOneLine (cs : List Char) : Bool :=
  !(dropFinalNewline cs).contains '\n'

/-- The bracketed parameters at the beginning of a text, if there are any, and what follows. -/
def parametersOf (cs : List Char) : List Char × List Char :=
  match cs with
  | '(' :: rest =>
    match rest.dropWhile (· != ')') with
    | _ :: trailing => (rest.takeWhile (· != ')'), trailing)
    | [] => ([], cs)
  | _ => ([], cs)

/-- What follows a star at the beginning of a text, and whether there is one. -/
def starOf : List Char → Bool × List Char
  | '*' :: rest => (true, rest)
  | cs => (false, cs)

/-- The parts of a column line. -/
def columnText? (line : List Char) : Option ColumnText := do
  let (starred, rest) := starOf line
  let (name, rest) ← word? (rest.dropWhile isBlank)
  let rest ← after? [':'] (rest.dropWhile isBlank)
  let (typeName, rest) ← word? (rest.dropWhile isBlank)
  let (parameters, trailing) := parametersOf rest
  if isOneLine trailing then
    some
      { starred, name := String.ofList name, typeName := String.ofList typeName, parameters,
        trailing }
  else none

/-- A parameter that is a number; one that is not is ignored. -/
def number? (cs : List Char) : Except ReadError (Option Int) :=
  let digits := trim cs
  if isDigits digits then (readInteger digits).map some else .ok none

/-- The quotes around a value taken off. -/
def unquoted (cs : List Char) : List Char :=
  strip isQuote cs

namespace ColumnText

/-- The type of the column. -/
def type (t : ColumnText) : ColumnType :=
  .normalize t.typeName

/-- Whether the type is `varchar` because its name is not known. -/
def hasUnknownType (t : ColumnText) : Bool :=
  t.type == .varchar && !(["varchar", "string"].contains (lowered t.typeName))

/-- The column without the meaning of its parameters. -/
def plainColumn (t : ColumnText) : Column :=
  let remaining := trim t.trailing
  let notNull := hasNotNull false remaining
  let comment := trim (unquoted (trim (withoutNotNull false 0 remaining)))
  { name := t.name
    type := t.type
    primary := t.starred
    nullable := !(t.starred || notNull)
    comment := if comment.isEmpty then none else some (String.ofList comment) }

/-- The values of an enumeration, between commas. -/
def enumValues (t : ColumnText) : List String :=
  ((pieces ',' t.parameters).filter fun v => !v.all isBlank).map fun v =>
    String.ofList (unquoted (trim v))

/-- The column a line describes. Parameters are the values of an enumeration, precision and scale
where there is a comma, the precision of a decimal, or else the size. -/
def column (t : ColumnText) : Except ReadError Column := do
  let plain := t.plainColumn
  if t.parameters.isEmpty then return plain
  else if t.type = .enum then return { plain with enumValues := t.enumValues }
  else if t.parameters.contains ',' then
    let precision ← number? (t.parameters.takeWhile (· != ','))
    let scaleText := (t.parameters.dropWhile (· != ',')).tail
    let scale ← if scaleText.all isBlank then pure (some 0) else number? scaleText
    return { plain with precision, scale }
  else if t.type = .decimal then return { plain with precision := ← number? t.parameters }
  else return { plain with size := ← number? t.parameters }

end ColumnText

/-- The column that a line describes, if it is a column line. -/
def column? (line : List Char) : Except ReadError (Option Column) :=
  match columnText? line with
  | some t => t.column.map some
  | none => .ok none

end Crowsfoot.Diagram
