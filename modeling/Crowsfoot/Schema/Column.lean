import Crowsfoot.Naming.Convention
import Crowsfoot.Schema.ColumnType

/-!
# Columns

A column has a name, a type with its parameters, and the modifiers that migrations and diagrams can
give it. Everything but the name has a default: a nullable `varchar` without further properties.
-/

namespace Crowsfoot

/-- What a foreign key points at: a table by its storage name, and a column of it. -/
structure ForeignKey where
  table : String
  column : String := "id"
  deriving Repr, DecidableEq, Inhabited

/-- One column of a table. -/
structure Column where
  name : String
  type : ColumnType := .varchar
  /-- Length of a text type. -/
  size : Option Int := none
  /-- Number of digits of a decimal. -/
  precision : Option Int := none
  /-- Number of digits of a decimal after the point. -/
  scale : Option Int := none
  nullable : Bool := true
  primary : Bool := false
  comment : Option String := none
  /-- The values of an `enum`. -/
  enumValues : List String := []
  foreignKey : Option ForeignKey := none
  /-- The default value, as it is written in a migration. -/
  default : Option String := none
  unique : Bool := false
  index : Bool := false
  unsigned : Bool := false
  minimum : Option Int := none
  maximum : Option Int := none
  /-- Latest date, `now` or a date. -/
  before : Option String := none
  /-- Earliest date, `now` or a date. -/
  after : Option String := none
  /-- Regular expression the values match. -/
  pattern : Option String := none
  deriving Repr, DecidableEq, Inhabited

/-- Columns that every table may have and that say nothing about its subject. -/
def systemColumns : List String :=
  ["id", "created_at", "updated_at", "deleted_at"]

namespace Column

/-- Whether the column is one of `systemColumns`. -/
def isSystem (c : Column) : Bool :=
  systemColumns.contains c.name

/-- Whether the column is named like a foreign key. -/
def hasKeyName (c : Column) : Bool :=
  Naming.isKeyName c.name

/-- The column with this foreign key, unless it has one. -/
def withKey (c : Column) (key : ForeignKey) : Column :=
  if c.foreignKey.isNone then { c with foreignKey := some key } else c

end Column

end Crowsfoot
