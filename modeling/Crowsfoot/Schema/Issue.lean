import Crowsfoot.Diagnostic
import Crowsfoot.Schema.Basic
import Crowsfoot.Text.Quoted

/-!
# Validating schemas

`Schema.issues` lists where a schema breaks its invariants: domain tables go before pivots, a table
has at most one primary column and no two columns of one name, foreign keys are on columns named for
them, a pivot has exactly two such columns and nothing else of its own, every many-to-many
relationship has its pivot, and every reference is resolved. A schema without issues is valid.
-/

namespace Crowsfoot

/-- A broken invariant of a schema. -/
inductive Issue where
  /-- A domain table stands after a pivot. -/
  | pivotOrder (table : String)
  /-- A table has several primary columns. -/
  | multiplePrimary (table : String) (columns : List String)
  /-- An earlier column of the table has the same name. -/
  | duplicateColumn (table column : String)
  /-- A column with a foreign key is not named for one. -/
  | keyNaming (table column references : String)
  /-- A pivot has other than two key columns, or further columns of its own. -/
  | pivotShape (table : String) (keys extra : List String)
  /-- A many-to-many relationship has no pivot. -/
  | pivotMissing (first second : String) (pivot : Option String)
  /-- A reference leads to no table. -/
  | unresolved (reference : Unresolved)
  deriving Repr, DecidableEq

namespace Issue

/-- The code of an issue. -/
def code : Issue → String
  | pivotOrder .. => "PIVOT_ORDER"
  | multiplePrimary .. => "MULTIPLE_PRIMARY"
  | duplicateColumn .. => "DUPLICATE_COLUMN"
  | keyNaming .. => "FK_NAMING"
  | pivotShape .. => "PIVOT_SHAPE"
  | pivotMissing .. => "PIVOT_MISSING"
  | unresolved .. => "FK_UNRESOLVED"

/-- Where an issue is: a table, a column of a table, or a relationship by its key. -/
def location : Issue → String
  | pivotOrder table => table
  | multiplePrimary table _ => table
  | duplicateColumn table column => table ++ "." ++ column
  | keyNaming table column _ => table ++ "." ++ column
  | pivotShape table _ _ => table
  | pivotMissing first second pivot => (Relationship.manyToMany first second pivot).key
  | unresolved r => r.table ++ "." ++ r.column

/-- The wording of an issue. -/
def message : Issue → String
  | pivotOrder table => table ++ ": domain table declared after a pivot table."
  | multiplePrimary table columns =>
    table ++ ": more than one primary column (" ++ Text.commaList columns ++ ")."
  | duplicateColumn table column => table ++ ": column '" ++ column ++ "' declared twice."
  | keyNaming table column _ =>
    table ++ "." ++ column ++ ": foreign key column does not end in '_id'."
  | pivotShape table keys extra =>
    table ++ ": pivot tables need exactly two '_id' columns and no other non-system columns (found "
      ++ toString keys.length ++ " keys, extra: " ++ Text.quotedList extra ++ ")."
  | pivotMissing first second pivot =>
    first ++ " <-> " ++ second ++ ": pivot table '" ++ pivot.getD "None"
      ++ "' is missing or not flagged as pivot."
  | unresolved r =>
    r.table ++ "." ++ r.column ++ ": references unknown table '" ++ r.references ++ "'."

/-- A further piece of information on an issue. -/
inductive Detail where
  | name (s : String)
  | names (ss : List String)
  deriving Repr, DecidableEq

/-- The further information on an issue, by name. -/
def details : Issue → List (String × Detail)
  | multiplePrimary _ columns => [("columns", .names columns)]
  | keyNaming _ _ references => [("references", .name references)]
  | pivotShape _ keys extra => [("foreign_keys", .names keys), ("extra", .names extra)]
  | unresolved r => [("references", .name r.references)]
  | _ => []

end Issue

/-- The issues of the columns of a table; `seen` are the names of the columns before them. -/
def columnIssues (table : String) (seen : List String) : List Column → List Issue
  | [] => []
  | c :: rest =>
    (if seen.contains c.name then [.duplicateColumn table c.name] else [])
      ++ (match c.foreignKey with
        | some key => if c.hasKeyName then [] else [.keyNaming table c.name key.table]
        | none => [])
      ++ columnIssues table (c.name :: seen) rest

/-- The issues of a table on its own. -/
def Table.issues (t : Table) : List Issue :=
  let name := t.storageName
  let primaries := (t.columns.filter Column.primary).map Column.name
  let keys := (t.columns.filter Column.hasKeyName).map Column.name
  let extra := (t.ownColumns.filter fun c => !c.hasKeyName).map Column.name
  (if 1 < primaries.length then [.multiplePrimary name primaries] else [])
    ++ columnIssues name [] t.columns
    ++ (if t.isPivot && (keys.length != 2 || !extra.isEmpty) then [.pivotShape name keys extra]
      else [])

/-- The issues of tables in order; `afterPivot` tells whether a pivot stands before them. -/
def tableIssues (afterPivot : Bool) : List Table → List Issue
  | [] => []
  | t :: rest =>
    (if afterPivot && !t.isPivot then [.pivotOrder t.storageName] else [])
      ++ t.issues ++ tableIssues (afterPivot || t.isPivot) rest

/-- The issues of a relationship. -/
def Schema.relationshipIssues (s : Schema) : Relationship → List Issue
  | .manyToMany first second pivot =>
    if (s.pivotOf? pivot).isNone then [.pivotMissing first second pivot] else []
  | _ => []

/-- The broken invariants of a schema. -/
def Schema.issues (s : Schema) : List Issue :=
  tableIssues false s.tables ++ s.relationships.flatMap s.relationshipIssues
    ++ s.unresolved.map Issue.unresolved

/-- What validating reports. -/
def diagnosticsOfIssues (issues : List Issue) : Diagnostics :=
  if issues.isEmpty then []
  else
    [⟨.debug, .validating,
      "Schema validation found " ++ toString issues.length ++ " issue(s)"⟩]

end Crowsfoot
