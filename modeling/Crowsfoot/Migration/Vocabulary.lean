import Crowsfoot.Builder.Call
import Crowsfoot.Schema.Column

/-!
# The vocabulary of schema builders

Which builder methods there are and what they mean, as data for the reader and the writer of
migrations.

* `Statement` is what the first call of a chain does, found by `Statement.ofMethod?`.
* `Modifier` is what a later call does to the column it is chained to, found by
  `Modifier.ofMethod?`; `applyModifiers` applies a chain of them.
* `ColumnType.builderMethod`, `ColumnType.unsignedMethod?` and `ColumnType.incrementMethod?` lead
  back from a type to the methods that declare it.
-/

namespace Crowsfoot

open Crowsfoot.Builder

/-! ## Methods that declare a column of a type -/

/-- The method that declares a column of a type. -/
def ColumnType.builderMethod : ColumnType → String
  | .int => "integer"
  | .bigint => "bigInteger"
  | .smallint => "smallInteger"
  | .tinyint => "tinyInteger"
  | .mediumint => "mediumInteger"
  | .varchar => "string"
  | .char => "char"
  | .text => "text"
  | .tinytext => "tinyText"
  | .mediumtext => "mediumText"
  | .longtext => "longText"
  | .boolean => "boolean"
  | .date => "date"
  | .datetime => "dateTime"
  | .timestamp => "timestamp"
  | .time => "time"
  | .year => "year"
  | .decimal => "decimal"
  | .float => "float"
  | .double => "double"
  | .json => "json"
  | .enum => "enum"
  | .uuid => "uuid"
  | .ipaddress => "ipAddress"
  | .macaddress => "macAddress"
  | .binary => "binary"

/-- The method that declares an unsigned column of a type, if it has one. -/
def ColumnType.unsignedMethod? : ColumnType → Option String
  | .int => some "unsignedInteger"
  | .bigint => some "unsignedBigInteger"
  | .smallint => some "unsignedSmallInteger"
  | .tinyint => some "unsignedTinyInteger"
  | .mediumint => some "unsignedMediumInteger"
  | .decimal => some "unsignedDecimal"
  | _ => none

/-- The method that declares an auto-incrementing primary key of a type. -/
def ColumnType.incrementMethod? : ColumnType → Option String
  | .bigint => some "id"
  | .int => some "increments"
  | .mediumint => some "mediumIncrements"
  | .smallint => some "smallIncrements"
  | .tinyint => some "tinyIncrements"
  | _ => none

/-- A method that declares a column. -/
structure TypedMethod where
  method : String
  type : ColumnType
  unsigned : Bool := false
  deriving Repr, DecidableEq

/-- The further methods that declare a column of a type. -/
def typedSynonyms : List TypedMethod :=
  [⟨"dateTimeTz", .datetime, false⟩, ⟨"timestampTz", .timestamp, false⟩, ⟨"timeTz", .time, false⟩,
    ⟨"jsonb", .json, false⟩]

/-- Every method that declares a column of a type. -/
def typedMethods : List TypedMethod :=
  (ColumnType.all.map fun t => ⟨t.builderMethod, t, false⟩)
    ++ (ColumnType.all.filterMap fun t => t.unsignedMethod?.map fun m => ⟨m, t, true⟩)
    ++ typedSynonyms

/-- The methods that declare an auto-incrementing primary key, with its type. -/
def incrementMethods : List (String × ColumnType) :=
  (ColumnType.all.filterMap fun t => t.incrementMethod?.map fun m => (m, t))
    ++ [("bigIncrements", .bigint)]

/-! ## Statements -/

/-- What a statement does, by the first call of its chain. -/
inductive Statement where
  /-- Declares a column of a type. -/
  | typed (type : ColumnType) (unsigned : Bool)
  /-- Declares an auto-incrementing primary key. -/
  | increments (type : ColumnType)
  | rememberToken
  /-- Declares the type and the key of a polymorphic reference. -/
  | morphs (keyType : ColumnType) (nullable : Bool)
  | foreignId
  /-- Declares the foreign key of a model class. -/
  | foreignIdFor
  | timestamps
  | softDeletes
  /-- Declares a foreign key constraint of the table. -/
  | foreign
  | unique
  | primary
  | index
  deriving Repr, DecidableEq

/-- The methods that are no typed column and no auto-incrementing key. -/
def otherStatements : List (String × Statement) :=
  [("rememberToken", .rememberToken),
    ("morphs", .morphs .bigint false),
    ("nullableMorphs", .morphs .bigint true),
    ("uuidMorphs", .morphs .bigint false),
    ("nullableUuidMorphs", .morphs .uuid true),
    ("foreignId", .foreignId),
    ("foreignIdFor", .foreignIdFor),
    ("timestamps", .timestamps),
    ("timestampsTz", .timestamps),
    ("nullableTimestamps", .timestamps),
    ("softDeletes", .softDeletes),
    ("softDeletesTz", .softDeletes),
    ("foreign", .foreign),
    ("unique", .unique),
    ("primary", .primary),
    ("index", .index)]

/-- Every statement method with its meaning. -/
def statementMethods : List (String × Statement) :=
  (typedMethods.map fun m => (m.method, .typed m.type m.unsigned))
    ++ (incrementMethods.map fun m => (m.1, .increments m.2))
    ++ otherStatements

/-- The statement that a method begins. -/
def Statement.ofMethod? (method : String) : Option Statement :=
  statementMethods.lookup method

/-! ## Modifiers -/

/-- What a chained call does to its column. -/
inductive Modifier where
  | nullable
  | default
  | unique
  | minimum
  | maximum
  | unsigned
  | index
  | comment
  | before
  | after
  | pattern
  | primary
  | useCurrent
  deriving Repr, DecidableEq

/-- Every modifier method with its meaning. -/
def modifierMethods : List (String × Modifier) :=
  [("nullable", .nullable), ("default", .default), ("unique", .unique), ("min", .minimum),
    ("max", .maximum), ("unsigned", .unsigned), ("index", .index), ("comment", .comment),
    ("before", .before), ("after", .after), ("regex", .pattern), ("primary", .primary),
    ("useCurrent", .useCurrent)]

/-- The modifier that a method stands for. -/
def Modifier.ofMethod? (method : String) : Option Modifier :=
  modifierMethods.lookup method

/-- The date bound an argument gives: a literal as it is, and `now` for the token `now()`. -/
def dateBound? : Argument → Option String
  | .text s => some s
  | .bare s => if s.toList.filter (· != ' ') = "now()".toList then some "now" else none
  | _ => none

/-- Applies a modifier with the arguments of its call. An argument of the wrong kind changes
nothing, except that a date bound is cleared. -/
def Modifier.apply (m : Modifier) (call : Call) (c : Column) : Column :=
  let value := call.argument 0
  match m with
  | .nullable => { c with nullable := Text.lowered value.shown != "false" }
  | .default => { c with default := some (Text.trimmed call.rawArguments) }
  | .unique => { c with unique := true }
  | .minimum => if value.int?.isSome then { c with minimum := value.int? } else c
  | .maximum => if value.int?.isSome then { c with maximum := value.int? } else c
  | .unsigned => { c with unsigned := true, minimum := c.minimum.or (some 0) }
  | .index => { c with index := true }
  | .comment => if value.text?.isSome then { c with comment := value.text? } else c
  | .before => { c with before := dateBound? value }
  | .after => { c with after := dateBound? value }
  | .pattern => if value.text?.isSome then { c with pattern := value.text? } else c
  | .primary => { c with primary := true, nullable := false }
  | .useCurrent => { c with nullable := false }

/-- Applies a chained call; a method that is no modifier changes nothing. -/
def applyCall (c : Column) (call : Call) : Column :=
  match Modifier.ofMethod? call.method with
  | some m => m.apply call c
  | none => c

/-- Applies the chained calls in order. -/
def applyModifiers (calls : List Call) (c : Column) : Column :=
  calls.foldl applyCall c

end Crowsfoot
