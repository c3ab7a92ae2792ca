import Crowsfoot.Diagnostic
import Crowsfoot.Diagram.Line
import Crowsfoot.Schema.Table

/-!
# Diagram documents

`Document.parse` reads the entities and the relationships of a diagram as they are drawn. Each
trimmed line is classified on its own (`LineKind.of`); only whether an entity is open decides
whether a line that has no other form is tried as a column (`Draft.add`). Lines of no form are
skipped, so that diagrams edited by hand can be read; `Document.diagnostics` reports them.
-/

namespace Crowsfoot.Diagram

open Crowsfoot.Text

/-- The entities and relationships of a diagram, as drawn. -/
structure Document where
  tables : List Table := []
  relationships : List Relationship := []
  deriving Repr, DecidableEq, Inhabited

/-- What a trimmed line is, regardless of its place. -/
inductive LineKind where
  /-- Blank, or a comment. -/
  | silent
  /-- Opens an entity, and closes the open one. -/
  | entity (name : String)
  | relationship (r : Relationship)
  /-- Closes the open entity. -/
  | close
  /-- Anything else; inside an entity it may be a column. -/
  | other (text : List Char)
  deriving Repr, DecidableEq

/-- The kind of a trimmed line. -/
def LineKind.of (line : List Char) : LineKind :=
  if line.isEmpty || line.head? == some '\'' then .silent
  else
    match entity? line with
    | some name => .entity name
    | none =>
      match relationship? line with
      | some r => .relationship r
      | none => if line == ['\x7d'] then .close else .other line

/-- A document being read: what is complete, and the entity that is open. -/
structure Draft where
  document : Document := {}
  current : Option Table := none
  deriving Repr, DecidableEq, Inhabited

namespace Draft

/-- The draft with the open entity closed. -/
def close (d : Draft) : Draft :=
  { document := { d.document with tables := d.document.tables ++ d.current.toList }
    current := none }

/-- A table with one more column, unless it has one of that name. -/
def withColumn (t : Table) (c : Column) : Table :=
  if (t.column? c.name).isSome then t else { t with columns := t.columns ++ [c] }

/-- The draft after a line. -/
def add (d : Draft) : LineKind → Except ReadError Draft
  | .silent => .ok d
  | .entity name => .ok { d.close with current := some { name } }
  | .relationship r =>
    .ok { d with document.relationships := d.document.relationships ++ [r] }
  | .close => .ok d.close
  | .other text =>
    match d.current with
    | none => .ok d
    | some t => do
      match ← column? text with
      | some c => return { d with current := some (withColumn t c) }
      | none => return d

end Draft

/-- The trimmed lines of a text by kind. -/
def lineKinds (text : List Char) : List LineKind :=
  (splitLines text).map fun line => .of (trim line)

namespace Document

/-- Reads a diagram. -/
def parse (text : String) : Except ReadError Document := do
  let draft ← (lineKinds text.toList).foldlM Draft.add {}
  return draft.close.document

/-! ## Diagnostics -/

/-- Whether an entity is open after a line. -/
def opens (isOpen : Bool) : LineKind → Bool
  | .entity _ => true
  | .close => false
  | _ => isOpen

/-- The report of a column line whose type is not known. -/
def reportUnknownType (t : ColumnText) : Diagnostics :=
  if t.hasUnknownType then
    [⟨.debug, .readingDiagrams,
      "Unknown column type '" ++ t.typeName ++ "' for '" ++ t.name ++ "', using varchar"⟩]
  else []

/-- What a line that may be a column reports. -/
def reportOther (isOpen : Bool) (number : Nat) (text : List Char) : Diagnostics :=
  match if isOpen then columnText? text else none with
  | some t => reportUnknownType t
  | none =>
    [⟨.debug, .readingDiagrams,
      "Skipping unrecognised diagram line " ++ toString number ++ ": " ++ String.ofList text⟩]

/-- What the lines from a number on report, up to the first that cannot be read. -/
def reportLines (isOpen : Bool) (number : Nat) : List LineKind → Diagnostics
  | [] => []
  | kind :: rest =>
    match kind with
    | .other text =>
      reportOther isOpen number text
        ++ if isOpen && !(column? text).toBool then []
          else reportLines isOpen (number + 1) rest
    | kind => reportLines (opens isOpen kind) (number + 1) rest

/-- What reading a diagram reports. -/
def diagnostics (text : String) : Diagnostics :=
  reportLines false 1 (lineKinds text.toList)
    ++ match parse text with
      | .ok d =>
        [⟨.info, .readingDiagrams,
          "Parsed diagram: " ++ toString d.tables.length ++ " entities, "
            ++ toString d.relationships.length ++ " relationships"⟩]
      | .error _ => []

end Document

/-- What reading a line as a column reports. -/
def diagnosticsOfColumn (line : List Char) : Diagnostics :=
  match columnText? line with
  | some t => Document.reportUnknownType t
  | none => []

end Crowsfoot.Diagram
