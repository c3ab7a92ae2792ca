import Crowsfoot.Naming.Inflection

/-!
# Naming conventions

How entities, tables and foreign keys are called after one another: an entity `OrderItem` is stored
in the table `order_items`, and a column that refers to it is `order_item_id`.

`snake` writes a name in lower case with underscores between its words. It is the composition of
steps that each do one thing: blanks and hyphens become underscores, an underscore goes before a
capital after a small letter or digit (`splitHumps`) and before the last capital of an acronym
(`splitAcronyms`), and runs of underscores shrink to one.
-/

namespace Crowsfoot.Naming

open Crowsfoot.Text

/-- Writes one underscore for each run of characters in `p`. -/
def underscoreRuns (p : Char → Bool) : List Char → List Char
  | [] => []
  | c :: rest =>
    if p c then
      if rest.head?.any p then underscoreRuns p rest else '_' :: underscoreRuns p rest
    else c :: underscoreRuns p rest

/-- Puts an underscore between a small letter or digit and the capital after it. -/
def splitHumps : List Char → List Char
  | [] => []
  | c :: rest =>
    if isSmall c && rest.head?.any Char.isUpper then c :: '_' :: splitHumps rest
    else c :: splitHumps rest

/-- Whether a text begins with a capital and a small letter. -/
def beginsWord : List Char → Bool
  | c :: d :: _ => c.isUpper && d.isLower
  | _ => false

/-- Puts an underscore between the capitals of an acronym and the word after it. -/
def splitAcronyms : List Char → List Char
  | [] => []
  | c :: rest =>
    if c.isUpper && beginsWord rest then c :: '_' :: splitAcronyms rest
    else c :: splitAcronyms rest

/-- Blanks and hyphens. -/
def isGap (c : Char) : Bool :=
  isBlank c || c == '-'

/-- `OrderItem` becomes `order_item`; a name that is in snake case stays as it is. -/
def snake (name : String) : String :=
  onChars (fun cs =>
    lower (underscoreRuns (· == '_')
      (splitAcronyms (splitHumps (underscoreRuns isGap (trim cs)))))) name

/-- `order_items` becomes `OrderItems`. -/
def studly (name : String) : String :=
  onChars (fun cs => (runsOutside (fun c => isGap c || c == '_') cs).flatMap capitalized) name

/-- The entity stored in a table: `OrderItem` for `order_items`. -/
def entityName (table : String) : String :=
  singularize (studly table)

/-- The table an entity is stored in: `order_items` for `OrderItem`. -/
def tableName (entity : String) : String :=
  snake (pluralize entity)

/-- The name of one record of an entity in snake case: `order_item` for `OrderItems`. -/
def modelName (entity : String) : String :=
  snake (singularize entity)

/-- The ending of foreign key columns. -/
def keySuffix : String := "_id"

/-- Whether a column is named like a foreign key. -/
def isKeyName (column : String) : Bool :=
  endsWith keySuffix.toList column.toList

/-- The column that refers to an entity: `order_item_id` for `OrderItem`. -/
def foreignKeyName (entity : String) : String :=
  modelName entity ++ keySuffix

/-- The table a foreign key column refers to by its name: `users` for `user_id`. -/
def tableOfForeignKey (column : String) : String :=
  if isKeyName column then
    pluralize (String.ofList (column.toList.take (column.toList.length - keySuffix.length)))
  else column

/-- The first of two underscore-separated parts, when both are there. -/
def firstOfTwoParts? (table : String) : Option String :=
  match pieces '_' table.toList with
  | [first, second] =>
    if first.isEmpty || second.isEmpty then none else some (String.ofList first)
  | _ => none

/-- Whether a table is named like a join table: two parts, the first of them singular. -/
def isPivotName (table : String) : Bool :=
  match firstOfTwoParts? table with
  | some first => isSingular first
  | none => false

end Crowsfoot.Naming
