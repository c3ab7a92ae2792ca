import Crowsfoot.Text.Basic
import Crowsfoot.Text.Case

/-!
# Column types

The types a column can have, their canonical names and the further spellings that are understood.
`ColumnType.ofName?` reads a canonical name back (`ofName?_name`), and `ColumnType.normalize` makes
a type of any spelling, `varchar` where nothing fits.
-/

namespace Crowsfoot

open Crowsfoot.Text

/-- The type of a column. -/
inductive ColumnType where
  | int
  | bigint
  | smallint
  | tinyint
  | mediumint
  | varchar
  | char
  | text
  | tinytext
  | mediumtext
  | longtext
  | boolean
  | date
  | datetime
  | timestamp
  | time
  | year
  | decimal
  | float
  | double
  | json
  | enum
  | uuid
  | ipaddress
  | macaddress
  | binary
  deriving Repr, DecidableEq, Inhabited

namespace ColumnType

/-- The canonical name of a type. -/
def name : ColumnType → String
  | int => "int"
  | bigint => "bigint"
  | smallint => "smallint"
  | tinyint => "tinyint"
  | mediumint => "mediumint"
  | varchar => "varchar"
  | char => "char"
  | text => "text"
  | tinytext => "tinytext"
  | mediumtext => "mediumtext"
  | longtext => "longtext"
  | boolean => "boolean"
  | date => "date"
  | datetime => "datetime"
  | timestamp => "timestamp"
  | time => "time"
  | year => "year"
  | decimal => "decimal"
  | float => "float"
  | double => "double"
  | json => "json"
  | enum => "enum"
  | uuid => "uuid"
  | ipaddress => "ipaddress"
  | macaddress => "macaddress"
  | binary => "binary"

/-- Every type once. -/
def all : List ColumnType :=
  [int, bigint, smallint, tinyint, mediumint, varchar, char, text, tinytext, mediumtext, longtext,
    boolean, date, datetime, timestamp, time, year, decimal, float, double, json, enum, uuid,
    ipaddress, macaddress, binary]

theorem mem_all (t : ColumnType) : t ∈ all := by
  cases t <;> decide

/-- The type with the given canonical name. -/
def ofName? (s : String) : Option ColumnType :=
  all.find? fun t => t.name == s

/-- Reading a canonical name gives the type that bears it. -/
theorem ofName?_name (t : ColumnType) : ofName? t.name = some t := by
  cases t <;> decide

/-- Spellings that are not canonical names. -/
def synonyms : List (String × ColumnType) :=
  [("integer", int), ("biginteger", bigint), ("smallinteger", smallint), ("tinyinteger", tinyint),
    ("mediuminteger", mediumint), ("string", varchar), ("bool", boolean), ("blob", binary),
    ("jsonb", json), ("real", double), ("numeric", decimal), ("timestamptz", timestamp),
    ("datetimetz", datetime), ("timetz", time), ("ip", ipaddress), ("mac", macaddress)]

/-- The type meant by a spelling, in any case and with blanks around it. -/
def normalize (raw : String) : ColumnType :=
  let key := lowered (trimmed raw)
  match ofName? key with
  | some t => t
  | none =>
    match synonyms.lookup key with
    | some t => t
    | none => varchar

end ColumnType

end Crowsfoot
