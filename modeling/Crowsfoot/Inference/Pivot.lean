import Crowsfoot.Diagnostic
import Crowsfoot.Schema.Basic

/-!
# Pivots

A pivot joins two entities: it has one foreign key to each and nothing else of its own. Here is how
a pivot is recognised (`isPivotTable`), how it is called (`pivotName`), how it is made up from the
names of its entities (`synthesizePivot`) and how a drawn table becomes one (`Table.adopt`).

Foreign keys follow the naming conventions. `Table.ensureKey` adds the key to a parent, or completes
the column that has its name; the other columns stay as they are.
-/

namespace Crowsfoot

/-- Exactly two columns are named like foreign keys, and all others are system columns. -/
def hasPivotShape (columns : List Column) (system : List String) : Bool :=
  columns.countP Column.hasKeyName == 2
    && columns.all fun c => c.hasKeyName || system.contains c.name

/-- Whether a table has the name and the columns of a pivot. -/
def isPivotTable (name : String) (columns : List Column) (system : List String) : Bool :=
  Naming.isPivotName name && hasPivotShape columns system

/-- The names of the two joined models in order, once if they are the same. -/
def joinedModels (first second : String) : List String :=
  let a := Naming.modelName first
  let b := Naming.modelName second
  if a = b then [a] else Text.sorted [a, b]

/-- The name of the pivot of two entities: the custom one in snake case, or else the two model names
in order. -/
def pivotName (first second : String) (custom : Option String) : String :=
  match custom.filter fun name => !name.isEmpty with
  | some name => Naming.snake name
  | none => "_".intercalate (Text.sorted [Naming.modelName first, Naming.modelName second])

/-- The conventional reference to the table of a model. -/
def ForeignKey.toModel (model : String) : ForeignKey :=
  { table := Naming.pluralize model }

/-- The conventional foreign key column to a model. -/
def Column.keyTo (model : String) : Column :=
  { name := model ++ Naming.keySuffix
    type := .bigint
    nullable := false
    foreignKey := some (.toModel model) }

/-- The pivot of two entities: a primary key and a foreign key for each model. -/
def synthesizePivot (first second : String) (custom : Option String) : Table :=
  { name := pivotName first second custom
    columns :=
      { name := "id", type := .bigint, primary := true, nullable := false }
        :: (joinedModels first second).map Column.keyTo
    isPivot := true }

namespace Table

/-- The table with the foreign key to a parent: a column of the conventional name gets the reference
if it has none, and is added if it is missing. -/
def ensureKey (t : Table) (parent : String) : Table :=
  let key := Column.keyTo (Naming.modelName parent)
  if (t.column? key.name).isSome then
    { t with
      columns :=
        modifyColumn key.name (·.withKey (.toModel (Naming.modelName parent))) t.columns }
  else { t with columns := t.columns ++ [key] }

/-- A drawn table as the pivot of two entities. -/
def adopt (t : Table) (first second : String) : Table :=
  (joinedModels first second).foldl ensureKey { t with isPivot := true }

/-- What adopting a table reports. -/
def adoptReport (t : Table) : Diagnostics :=
  if t.isPivot then []
  else [⟨.info, .inferring, "Treating entity '" ++ t.name ++ "' as pivot table"⟩]

end Table

/-- The first table drawn under exactly the name of a pivot. -/
def findDrawnPivot? (tables : List Table) (name : String) : Option Table :=
  tables.find? fun t => t.name == name

end Crowsfoot
