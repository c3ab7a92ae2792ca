import Crowsfoot.Schema.Column

/-!
# Tables

A table is a domain entity or a pivot (the join table of a many-to-many relationship). A domain
table bears its entity's name and is stored under the conventional one; a pivot bears the name it is
stored under.
-/

namespace Crowsfoot

/-- A domain entity or a pivot. -/
structure Table where
  /-- Entity name, or storage name of a pivot. -/
  name : String
  columns : List Column := []
  isPivot : Bool := false
  deriving Repr, DecidableEq, Inhabited

/-- The first column with the given name. -/
def findColumn? (columns : List Column) (name : String) : Option Column :=
  columns.find? fun c => c.name == name

/-- Changes the first column with the given name. -/
def modifyColumn (name : String) (f : Column → Column) : List Column → List Column
  | [] => []
  | c :: rest => if c.name = name then f c :: rest else c :: modifyColumn name f rest

namespace Table

/-- The name the table is stored under. -/
def storageName (t : Table) : String :=
  if t.isPivot then t.name else Naming.tableName t.name

/-- The first column with the given name. -/
def column? (t : Table) (name : String) : Option Column :=
  findColumn? t.columns name

/-- The columns with a foreign key. -/
def keyColumns (t : Table) : List Column :=
  t.columns.filter fun c => c.foreignKey.isSome

/-- The columns beside the system ones. -/
def ownColumns (t : Table) : List Column :=
  t.columns.filter fun c => !c.isSystem

/-- The first primary column. -/
def primary? (t : Table) : Option Column :=
  t.columns.find? fun c => c.primary

/-- Domain tables first and pivots after them, each in the given order. -/
def order (ts : List Table) : List Table :=
  (ts.filter fun t => !t.isPivot) ++ ts.filter fun t => t.isPivot

end Table

end Crowsfoot
