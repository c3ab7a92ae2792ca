import Crowsfoot.Schema.Relationship
import Crowsfoot.Schema.Table

/-!
# Schemas

A schema is a list of tables, the relationships between them and the references whose target is not
part of it. `Schema.table?` looks a table up by its entity or storage name, regardless of case and
grammatical number; `Schema.pivot?` takes the exact storage name of a pivot.
-/

namespace Crowsfoot

/-- A reference whose target is not part of the schema. -/
structure Unresolved where
  table : String
  column : String
  references : String
  deriving Repr, DecidableEq, Inhabited

/-- Tables, their relationships and the references that lead nowhere. -/
structure Schema where
  tables : List Table := []
  relationships : List Relationship := []
  unresolved : List Unresolved := []
  deriving Repr, DecidableEq, Inhabited

/-- The spellings under which a table is looked up by a name. -/
def lookupNames (name : String) : List String :=
  [Text.lowered name, Naming.modelName name, Naming.tableName name]

/-- Whether a table has one of the spellings as its entity name in lower case or as its storage
name. -/
def Table.hasNameIn (names : List String) (t : Table) : Bool :=
  names.contains (Text.lowered t.name) || names.contains t.storageName

/-- The first table that a name refers to, regardless of case and number. -/
def findTable? (tables : List Table) (name : String) : Option Table :=
  tables.find? (Table.hasNameIn (lookupNames name))

/-- Changes the first table that satisfies `p`. -/
def modifyFirst (p : Table → Bool) (f : Table → Table) : List Table → List Table
  | [] => []
  | t :: rest => if p t then f t :: rest else t :: modifyFirst p f rest

namespace Schema

/-- The first table that a name refers to, regardless of case and number. -/
def table? (s : Schema) (name : String) : Option Table :=
  findTable? s.tables name

/-- The pivot stored under exactly this name. -/
def pivot? (s : Schema) (name : String) : Option Table :=
  s.tables.find? fun t => t.isPivot && t.storageName == name

/-- The tables that are not pivots. -/
def domainTables (s : Schema) : List Table :=
  s.tables.filter fun t => !t.isPivot

/-- The pivots. -/
def pivotTables (s : Schema) : List Table :=
  s.tables.filter fun t => t.isPivot

/-- The names the tables are stored under. -/
def storageNames (s : Schema) : List String :=
  s.tables.map Table.storageName

/-- The pivot of a many-to-many relationship, if its name is known and not empty. -/
def pivotOf? (s : Schema) (pivot : Option String) : Option Table :=
  match pivot with
  | some name => if name.isEmpty then none else s.pivot? name
  | none => none

end Schema

end Crowsfoot
