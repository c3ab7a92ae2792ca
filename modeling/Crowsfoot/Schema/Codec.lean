import Crowsfoot.Json.Decoding
import Crowsfoot.Json.Reader
import Crowsfoot.Json.Writer
import Crowsfoot.Options
import Crowsfoot.Schema.Basic

/-!
# Schemas as JSON

The JSON form of a schema and its parts: `toJson` gives every field, and the decoders fill in
defaults for the fields that are missing and ignore those they do not know. `Schema.parse` and
`Schema.write` read and write a schema file.

A relationship is tagged by its kind. In a file (`Origin.file`) and in a value given directly
(`Origin.value`) one that is no object is a different fault.
-/

namespace Crowsfoot

open Json

/-- Where a value to decode comes from. -/
inductive Origin where
  | file
  | value
  deriving Repr, DecidableEq

/-- The fault of a tagged value that is no object. -/
def Origin.notTagged : Origin → FaultKind
  | .file => .notObject
  | .value => .noAttributes

/-! ## Columns and tables -/

/-- The JSON form of a foreign key. -/
def ForeignKey.toJson (key : ForeignKey) : Json :=
  .obj [("table", .str key.table), ("column", .str key.column)]

/-- A foreign key from its JSON form. -/
def ForeignKey.ofJson : Json → Decoded ForeignKey
  | .obj m => ((required m "table" toStr).map ForeignKey.mk).ap (defaulted m "column" "id" toStr)
  | _ => .fault .notModel

/-- A column type from its canonical name. -/
def ColumnType.ofJson : Json → Decoded ColumnType
  | .str s =>
    match ColumnType.ofName? s with
    | some t => .ok t
    | none => .fault .notLiteral
  | _ => .fault .notLiteral

/-- The JSON form of a column. -/
def Column.toJson (c : Column) : Json :=
  .obj
    [("name", .str c.name),
      ("type", .str c.type.name),
      ("size", .int? c.size),
      ("precision", .int? c.precision),
      ("scale", .int? c.scale),
      ("nullable", .bool c.nullable),
      ("primary", .bool c.primary),
      ("comment", .str? c.comment),
      ("enum_values", .strs c.enumValues),
      ("foreign_key", (c.foreignKey.map ForeignKey.toJson).getD .null),
      ("default", .str? c.default),
      ("unique", .bool c.unique),
      ("index", .bool c.index),
      ("unsigned", .bool c.unsigned),
      ("minimum", .int? c.minimum),
      ("maximum", .int? c.maximum),
      ("before", .str? c.before),
      ("after", .str? c.after),
      ("pattern", .str? c.pattern)]

/-- A column from its JSON form. -/
def Column.ofJson : Json → Decoded Column
  | .obj m =>
    let integer (name : String) := defaulted m name none (toOption toInt)
    let string (name : String) := defaulted m name none (toOption toStr)
    let flag (name : String) (default : Bool) := defaulted m name default Json.toBool
    (required m "name" toStr).map Column.mk
      |>.ap (defaulted m "type" .varchar ColumnType.ofJson)
      |>.ap (integer "size")
      |>.ap (integer "precision")
      |>.ap (integer "scale")
      |>.ap (flag "nullable" true)
      |>.ap (flag "primary" false)
      |>.ap (string "comment")
      |>.ap (defaulted m "enum_values" [] (Json.toList toStr))
      |>.ap (defaulted m "foreign_key" none (toOption ForeignKey.ofJson))
      |>.ap (string "default")
      |>.ap (flag "unique" false)
      |>.ap (flag "index" false)
      |>.ap (flag "unsigned" false)
      |>.ap (integer "minimum")
      |>.ap (integer "maximum")
      |>.ap (string "before")
      |>.ap (string "after")
      |>.ap (string "pattern")
  | _ => .fault .notModel

/-- The JSON form of a table. -/
def Table.toJson (t : Table) : Json :=
  .obj
    [("name", .str t.name),
      ("columns", .arr (t.columns.map Column.toJson)),
      ("is_pivot", .bool t.isPivot)]

/-- A table from its JSON form. -/
def Table.ofJson : Json → Decoded Table
  | .obj m =>
    (required m "name" toStr).map Table.mk
      |>.ap (defaulted m "columns" [] (Json.toList Column.ofJson))
      |>.ap (defaulted m "is_pivot" false Json.toBool)
  | _ => .fault .notModel

/-! ## Relationships -/

/-- The JSON form of a relationship. -/
def Relationship.toJson (r : Relationship) : Json :=
  .obj (("kind", .str r.kind.name) ::
    match r with
    | .oneToOne parent child => [("parent", .str parent), ("child", .str child)]
    | .oneToMany parent child => [("parent", .str parent), ("child", .str child)]
    | .manyToMany first second pivot =>
      [("table1", .str first), ("table2", .str second), ("pivot_table", .str? pivot)])

/-- The kind with the given name. -/
def Relationship.Kind.ofName? (name : String) : Option Kind :=
  Kind.all.find? fun k => k.name == name

/-- The members of a relationship of a kind. -/
def Relationship.ofMembers (m : List (String × Json)) : Kind → Decoded Relationship
  | .oneToOne =>
    (required m "parent" toStr).map Relationship.oneToOne |>.ap (required m "child" toStr)
  | .oneToMany =>
    (required m "parent" toStr).map Relationship.oneToMany |>.ap (required m "child" toStr)
  | .manyToMany =>
    (required m "table1" toStr).map Relationship.manyToMany
      |>.ap (required m "table2" toStr)
      |>.ap (defaulted m "pivot_table" none (toOption toStr))

/-- A relationship from its JSON form. -/
def Relationship.ofJson (origin : Origin) : Json → Decoded Relationship
  | .obj m =>
    match member? m "kind" with
    | none => .fault .noTag
    | some (.str name) =>
      match Relationship.Kind.ofName? name with
      | some kind => (Relationship.ofMembers m kind).within (.key name)
      | none => .fault .badTag
    | some _ => .fault .badTag
  | _ => .fault origin.notTagged

/-! ## Schemas -/

/-- The JSON form of an unresolved reference. -/
def Unresolved.toJson (u : Unresolved) : Json :=
  .obj [("table", .str u.table), ("column", .str u.column), ("references", .str u.references)]

/-- An unresolved reference from its JSON form. -/
def Unresolved.ofJson : Json → Decoded Unresolved
  | .obj m =>
    (required m "table" toStr).map Unresolved.mk
      |>.ap (required m "column" toStr)
      |>.ap (required m "references" toStr)
  | _ => .fault .notModel

/-- The JSON form of a schema. -/
def Schema.toJson (s : Schema) : Json :=
  .obj
    [("tables", .arr (s.tables.map Table.toJson)),
      ("relationships", .arr (s.relationships.map Relationship.toJson)),
      ("unresolved", .arr (s.unresolved.map Unresolved.toJson))]

/-- A schema from its JSON form. -/
def Schema.ofJson (origin : Origin) : Json → Decoded Schema
  | .obj m =>
    (defaulted m "tables" [] (Json.toList Table.ofJson)).map Schema.mk
      |>.ap (defaulted m "relationships" [] (Json.toList (Relationship.ofJson origin)))
      |>.ap (defaulted m "unresolved" [] (Json.toList Unresolved.ofJson))
  | _ => .fault .notModel

/-- The options of a conversion from their JSON form. -/
def Options.ofJson : Json → Decoded Options
  | .obj m =>
    (defaulted m "soft_deletes" false Json.toBool).map Options.mk
      |>.ap (defaulted m "on_delete" "cascade" toStr)
      |>.ap (defaulted m "skip_tables" frameworkTables (Json.toList toStr))
      |>.ap (defaulted m "system_columns" Crowsfoot.systemColumns (toTuple toStr))
      |>.ap (defaulted m "indent" "            " toStr)
  | _ => .fault .notModel

/-! ## Schema files -/

/-- Why the content of a schema file gives no schema. -/
inductive SchemaFileError where
  /-- Nothing but blanks. -/
  | empty
  | faulty (faults : List Fault)
  deriving Repr, DecidableEq

/-- The schema in the content of a file. -/
def Schema.parse (content : String) : Except SchemaFileError Schema :=
  let text := Text.trimmed content
  if text.isEmpty then .error .empty
  else
    match Json.parse? text with
    | none => .error (.faulty [⟨.invalidJson, []⟩])
    | some v => (Schema.ofJson .file v).toExcept.mapError .faulty

/-- The content of the file of a schema. -/
def Schema.write (s : Schema) : String :=
  Json.pretty s.toJson

end Crowsfoot
