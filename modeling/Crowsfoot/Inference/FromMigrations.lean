import Crowsfoot.Inference.Pivot
import Crowsfoot.Migration.CreatedTable
import Crowsfoot.Options

/-!
# Schemas from migrations

Migrations declare foreign keys; `inferFromMigrations` finds the pivots among the tables and turns
the foreign keys into relationships. Each table contributes on its own, given the names of all
tables: its table, its relationships and its unresolved references are functions of it
(`tableOf`, `relationshipsOf`, `unresolvedOf`), and the schema collects them in order.
-/

namespace Crowsfoot.Inference

open Crowsfoot.Migration (CreatedTable)

/-- Whether a created table is a pivot. -/
def isPivot (o : Options) (t : CreatedTable) : Bool :=
  isPivotTable t.name t.columns o.systemColumns

/-- A column of a pivot, with the conventional foreign key if it has none and is named for one. -/
def conventionalKey (c : Column) : Column :=
  if c.hasKeyName then c.withKey { table := Naming.tableOfForeignKey c.name } else c

/-- The table of the schema that a created table becomes. -/
def tableOf (o : Options) (t : CreatedTable) : Table :=
  if isPivot o t then
    { name := t.name, columns := t.columns.map conventionalKey, isPivot := true }
  else { name := t.entityName, columns := t.columns }

/-- The columns with foreign keys, by name, and the tables they refer to. -/
def references (t : Table) : List (String × String) :=
  t.columns.filterMap fun c => c.foreignKey.map fun key => (c.name, key.table)

/-- The relationship that a foreign key column states: one-to-one if it is unique by itself. -/
def classify (parent child column : String) (uniqueSets : List (List String)) : Relationship :=
  if uniqueSets.contains [column] then .oneToOne parent child else .oneToMany parent child

/-- Whether a table takes part in relationships. -/
def isSkipped (o : Options) (t : CreatedTable) : Bool :=
  o.skipTables.contains t.name

/-- The many-to-many relationship of a pivot whose references are all known. -/
def pivotRelationship (known : List String) (t : CreatedTable) (refs : List (String × String)) :
    List Relationship :=
  if refs.all fun r => known.contains r.2 then
    match (refs.filter fun r => Naming.isKeyName r.1).map fun r => Naming.entityName r.2 with
    | first :: second :: _ => [.manyToMany first second (some t.name)]
    | _ => []
  else []

/-- The relationships that a table contributes. -/
def relationshipsOf (o : Options) (known : List String) (t : CreatedTable) : List Relationship :=
  if isSkipped o t then []
  else
    let refs := references (tableOf o t)
    if isPivot o t then pivotRelationship known t refs
    else
      (refs.filter fun r => Naming.isKeyName r.1 && known.contains r.2).map fun r =>
        classify (Naming.entityName r.2) t.entityName r.1 t.uniqueSets

/-- The references of a table that lead to no known table. -/
def unresolvedOf (o : Options) (known : List String) (t : CreatedTable) : List Unresolved :=
  if isSkipped o t then []
  else
    ((references (tableOf o t)).filter fun r => !known.contains r.2).map fun r =>
      { table := t.name, column := r.1, references := r.2 }

/-- The schema of the created tables. -/
def inferFromMigrations (o : Options) (created : List CreatedTable) : Schema :=
  let known := created.map CreatedTable.name
  { tables := Table.order (created.map (tableOf o))
    relationships := created.flatMap (relationshipsOf o known)
    unresolved := created.flatMap (unresolvedOf o known) }

/-- The report of an unresolved reference. -/
def unresolvedReport (u : Unresolved) : Diagnostic :=
  ⟨.warning, .inferring,
    u.table ++ "." ++ u.column ++ " references unknown table '" ++ u.references ++ "'"⟩

/-- What the inference reports. -/
def diagnosticsOfMigrations (o : Options) (created : List CreatedTable) : Diagnostics :=
  let known := created.map CreatedTable.name
  created.flatMap fun t =>
    (if isPivot o t then [⟨.info, .inferring, "Detected pivot table: " ++ t.name⟩] else [])
      ++ (unresolvedOf o known t).map unresolvedReport

end Crowsfoot.Inference
