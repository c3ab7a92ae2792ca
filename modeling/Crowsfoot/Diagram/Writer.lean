import Crowsfoot.Diagnostic
import Crowsfoot.Diagram.Line
import Crowsfoot.Schema.Basic
import Crowsfoot.Timestamp

/-!
# Writing diagrams

A schema as a diagram: its domain tables as entities, then its relationships, grouped by kind and
without repetitions. Pivots are not drawn; the line of their relationship bears their name.
-/

namespace Crowsfoot.Diagram

/-- A type with its parameters, such as `varchar(100)` or `decimal(8,2)`. -/
def typeText (c : Column) : String :=
  let withParameters (parameters : String) := c.type.name ++ "(" ++ parameters ++ ")"
  if c.type == .enum && !c.enumValues.isEmpty then withParameters (",".intercalate c.enumValues)
  else
    match c.precision, c.scale, c.size with
    | some precision, some scale, _ =>
      withParameters (toString precision ++ "," ++ toString scale)
    | some precision, none, _ => withParameters (toString precision)
    | none, _, some size => withParameters (toString size)
    | none, _, none => c.type.name

/-- The line of a column. -/
def columnLine (c : Column) : String :=
  (if c.primary then "* " else "  ") ++ c.name ++ " : " ++ typeText c
    ++ (if !c.nullable && !c.primary then " NOT NULL" else "")
    ++ match c.comment.filter fun comment => !comment.isEmpty with
      | some comment => " \"" ++ comment ++ "\""
      | none => ""

/-- The lines of a domain table. -/
def entityLines (t : Table) : List String :=
  ["entity " ++ t.name ++ " \x7b"] ++ t.columns.map columnLine ++ ["\x7d"]

/-- The line of a relationship. -/
def relationshipLine : Relationship → String
  | .oneToOne parent child => parent ++ " " ++ oneToOneSign ++ " " ++ child
  | .oneToMany parent child => parent ++ " " ++ oneToManySign ++ " " ++ child
  | .manyToMany first second pivot =>
    first ++ " " ++ manyToManySign ++ " " ++ second
      ++ match pivot.filter fun name => !name.isEmpty with
        | some name => " : " ++ name
        | none => ""

/-- The relationships of a schema in the order of their lines. -/
def drawnRelationships (rs : List Relationship) : List Relationship :=
  Relationship.Kind.all.flatMap fun kind => Relationship.ofKind kind rs

/-- The lines of the relationships, if there are any. -/
def relationshipLines (rs : List Relationship) : List String :=
  if rs.isEmpty then [] else "' Relationships" :: (drawnRelationships rs).map relationshipLine

/-- The lines of a diagram. -/
def lines (s : Schema) (generatedAt : Timestamp) : List String :=
  ["@startuml", "' Generated on " ++ generatedAt.readable, ""]
    ++ (s.domainTables.flatMap fun t => entityLines t ++ [""])
    ++ relationshipLines s.relationships
    ++ ["", "@enduml"]

/-- The diagram of a schema. -/
def write (s : Schema) (generatedAt : Timestamp) : String :=
  "\n".intercalate (lines s generatedAt)

/-- What writing a diagram reports. -/
def diagnosticsOfWriting (s : Schema) : Diagnostics :=
  if s.relationships.isEmpty then []
  else
    [⟨.debug, .writingDiagrams,
      "Rendered " ++ toString (drawnRelationships s.relationships).length ++ " relationships"⟩]

end Crowsfoot.Diagram
