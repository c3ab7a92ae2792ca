import Crowsfoot.Migration.Vocabulary
import Crowsfoot.Options
import Crowsfoot.Schema.Basic
import Crowsfoot.Template
import Crowsfoot.Timestamp

/-!
# Writing migrations

A table as a migration file: the primary key, the other columns, the foreign key constraints whose
target is known, and a unique constraint where there are exactly two foreign keys. The timestamps
stand in the skeleton of the file.

`writeTable` refuses a pivot without exactly two foreign keys. `writeAll` writes the tables of a
schema; their file names advance by a second each, so that they sort in the order of the tables. It
refuses a many-to-many relationship whose pivot is not there.
-/

namespace Crowsfoot.Migration

open Crowsfoot.Builder (Argument)

/-- Why a schema cannot be written as migrations. -/
inductive WriteError where
  /-- A pivot has other than two foreign keys. -/
  | pivotShape (table : String) (keys : List String)
  /-- A many-to-many relationship has no pivot. -/
  | missingPivot (first second : String) (pivot : Option String)
  /-- The file names run past the last year. -/
  | endOfTime
  deriving Repr, DecidableEq

/-- The wording of a write error. -/
def WriteError.message : WriteError → String
  | .pivotShape table keys =>
    "Pivot table '" ++ table ++ "' must have exactly two foreign key columns, found "
      ++ toString keys.length ++ ": "
      ++ (let listed := Text.commaList keys
        if listed.isEmpty then "none" else listed)
  | .missingPivot first second pivot =>
    "Many-to-many relationship " ++ first ++ " <-> " ++ second ++ " has no pivot table '"
      ++ (pivot.filter fun name => !name.isEmpty).getD "?" ++ "' in the schema"
  | .endOfTime => "date value out of range"

/-! ## Columns -/

/-- The method that declares a column. Keys of the type of `id()` are unsigned. -/
def declaringMethod (c : Column) : String :=
  if c.unsigned || (c.foreignKey.isSome && c.type == .bigint) then
    c.type.unsignedMethod?.getD c.type.builderMethod
  else c.type.builderMethod

/-- The arguments after the name in the declaration of a column. -/
def parameterText (c : Column) : String :=
  match c.type with
  | .decimal =>
    match c.precision, c.scale with
    | some precision, some scale => ", " ++ toString precision ++ ", " ++ toString scale
    | some precision, none => ", " ++ toString precision
    | none, _ => ""
  | .varchar | .char =>
    match c.size with
    | some size => ", " ++ toString size
    | none => ""
  | .enum => ", [" ++ Text.commaList (c.enumValues.map Argument.literal) ++ "]"
  | _ => ""

/-- The declaration of a column without its semicolon. -/
def declaration (c : Column) : String :=
  "$table->" ++ declaringMethod c ++ "(" ++ Argument.literal c.name ++ parameterText c ++ ")"
    ++ (if c.nullable && !c.primary then "->nullable()" else "")
    ++ match c.comment.filter fun comment => !comment.isEmpty with
      | some comment => "->comment(" ++ Argument.literal comment ++ ")"
      | none => ""

/-- The statement that declares a column. -/
def columnStatement (c : Column) : String :=
  declaration c ++ ";"

/-- The statement that declares the primary key: by `id` or an incrementing method for integers,
or else as a column. A table without primary column gets the conventional `id`. -/
def primaryStatement (t : Table) : String :=
  match t.primary? with
  | none => "$table->id();"
  | some c =>
    if c.name == "id" && c.type == .bigint then "$table->id();"
    else
      match c.type.incrementMethod? with
      | some method => "$table->" ++ method ++ "(" ++ Argument.literal c.name ++ ");"
      | none => declaration c ++ "->primary();"

/-- The report of a primary key that is declared as a column. -/
def primaryReport (t : Table) : Diagnostics :=
  match t.primary? with
  | none => []
  | some c =>
    if c.type.incrementMethod?.isSome then []
    else
      [⟨.info, .writingMigrations,
        t.storageName ++ ": primary key '" ++ c.name ++ "' is " ++ c.type.name
          ++ ", declared with primary()"⟩]

/-- The column that marks deleted records. -/
def softDeleteColumn : String := "deleted_at"

/-- Columns that the skeleton of a migration or its soft deletes provide. -/
def providedColumns : List String :=
  ["created_at", "updated_at", softDeleteColumn]

/-- The columns that get a statement of their own: without the primary key, and without those that
are provided in other ways. -/
def statedColumns (t : Table) : List Column :=
  let others := (t.columns.eraseP Column.primary).filter fun c => !providedColumns.contains c.name
  if t.primary?.isNone then others.filter fun c => c.name != "id" else others

/-! ## Constraints -/

/-- The foreign keys of a table: each column that has one, with the key. -/
def keysOf (t : Table) : List (Column × ForeignKey) :=
  t.columns.filterMap fun c => c.foreignKey.map fun key => (c, key)

/-- Whether the target of a foreign key may be mentioned. -/
def isKnown (known : Option (List String)) (key : ForeignKey) : Bool :=
  match known with
  | some names => names.contains key.table
  | none => true

/-- The statement of a foreign key constraint. -/
def keyStatement (o : Options) (c : Column) (key : ForeignKey) : String :=
  "$table->foreign(" ++ Argument.literal c.name ++ ")->references(" ++ Argument.literal key.column
    ++ ")->on(" ++ Argument.literal key.table ++ ")->onDelete(" ++ Argument.literal o.onDelete
    ++ ");"

/-- The statements of the constraints whose target is known. -/
def keyStatements (o : Options) (known : Option (List String)) (t : Table) : List String :=
  ((keysOf t).filter fun k => isKnown known k.2).map fun k => keyStatement o k.1 k.2

/-- The columns with a foreign key that are named for one. -/
def keyNames (t : Table) : List String :=
  (t.keyColumns.filter Column.hasKeyName).map Column.name

/-- The unique constraint over two foreign keys. -/
def uniqueStatements (t : Table) : List String :=
  let names := keyNames t
  if names.length = 2 then
    ["$table->unique([" ++ Text.commaList (names.map Argument.literal) ++ "]);"]
  else []

/-- The statements between the primary key and the timestamps; an empty line parts columns from
constraints. -/
def statements (o : Options) (known : Option (List String)) (t : Table) :
    Except WriteError (List String) :=
  let keys := keyStatements o known t
  if t.isPivot && (keyNames t).length != 2 then .error (.pivotShape t.storageName (keyNames t))
  else
    .ok ((statedColumns t).map columnStatement ++ (if keys.isEmpty then [] else "" :: keys)
      ++ uniqueStatements t)

/-- The reports of constraints that are left out. -/
def omittedReports (known : Option (List String)) (t : Table) : Diagnostics :=
  ((keysOf t).filter fun k => !isKnown known k.2).map fun k =>
    ⟨.warning, .writingMigrations,
      t.storageName ++ "." ++ k.1.name ++ ": referenced table '" ++ k.2.table
        ++ "' is not part of the schema, omitting constraint"⟩

/-- What the statements report. -/
def statementReports (known : Option (List String)) (t : Table) : Diagnostics :=
  if t.isPivot && (keyNames t).length != 2 then [] else omittedReports known t

/-! ## Files -/

/-- A generated migration. -/
structure GeneratedFile where
  /-- The table it creates. -/
  table : String
  filename : String
  content : String
  deriving Repr, DecidableEq, Inhabited

/-- The name of the skeleton among the templates. -/
def skeletonName : String := "migration.stub"

/-- The skeleton of a migration. -/
def skeleton : List Template.Piece :=
  Template.text "<?php

use Illuminate\\Database\\Migrations\\Migration;
use Illuminate\\Database\\Schema\\Blueprint;
use Illuminate\\Support\\Facades\\Schema;

return new class extends Migration
\x7b
    /**
     * Run the migrations.
     */
    public function up(): void
    \x7b
        Schema::create('"
    ++ [.slot "table"]
    ++ Template.text "', function (Blueprint $table) \x7b\n"
    ++ [.slot "primary", .slot "columns"]
    ++ Template.text "            $table->timestamps();\n"
    ++ [.slot "soft_deletes"]
    ++ Template.text "        \x7d);
    \x7d

    /**
     * Reverse the migrations.
     */
    public function down(): void
    \x7b
        Schema::dropIfExists('"
    ++ [.slot "table"]
    ++ Template.text "');
    \x7d
\x7d;\n"

/-- The name of the migration that creates a table. -/
def filename (table : String) (at_ : Timestamp) : String :=
  at_.stamp ++ "_create_" ++ table ++ "_table.php"

/-- A statement as a line. -/
def indented (o : Options) (statement : String) : String :=
  (if statement.isEmpty then "" else o.indent ++ statement) ++ "\n"

/-- Whether a table gets soft deletes. -/
def hasSoftDeletes (o : Options) (t : Table) : Bool :=
  (t.column? softDeleteColumn).isSome || (o.softDeletes && !t.isPivot)

/-- The sections of the skeleton for a table with the given statements. -/
def sections (o : Options) (t : Table) (statements : List String) : Template.Sections :=
  [("table", t.storageName),
    ("primary", indented o (primaryStatement t)),
    ("columns", String.join (statements.map (indented o))),
    ("soft_deletes", if hasSoftDeletes o t then o.indent ++ "$table->softDeletes();\n" else "")]

/-- The skeleton with its slots filled. -/
def fillSkeleton (sections : Template.Sections) : String :=
  String.join (skeleton.map fun piece =>
    match piece with
    | .char c => String.singleton c
    | .slot name => (sections.lookup name).getD "")

/-- The content of the migration that creates a table. -/
def tableContent (o : Options) (known : Option (List String)) (t : Table) :
    Except WriteError String := do
  return fillSkeleton (sections o t (← statements o known t))

/-- The migration that creates a table; foreign keys to tables that are not known are left out. -/
def writeTable (o : Options) (known : Option (List String)) (at_ : Timestamp) (t : Table) :
    Except WriteError GeneratedFile := do
  let content ← tableContent o known t
  return { table := t.storageName, filename := filename t.storageName at_, content }

/-- What writing the migration of a table reports. -/
def tableReports (o : Options) (known : Option (List String)) (t : Table) : Diagnostics :=
  statementReports known t
    ++ match statements o known t with
      | .ok lines =>
        [⟨.debug, .loadingTemplates, "Loaded template from " ++ skeletonName⟩]
          ++ primaryReport t
          ++ [⟨.debug, .writingMigrations,
            "Rendered migration for " ++ t.storageName ++ " (" ++ toString lines.length
              ++ " lines)"⟩]
      | .error _ => []

/-! ## Schemas -/

/-- The first many-to-many relationship without its pivot. -/
def unpivoted? (s : Schema) : Option WriteError :=
  s.relationships.findSome? fun r =>
    match r with
    | .manyToMany first second pivot =>
      if (s.pivotOf? pivot).isNone then some (.missingPivot first second pivot) else none
    | _ => none

/-- The migrations of tables, a second apart from the given time on. -/
def writeTables (o : Options) (known : List String) :
    Option Timestamp → List Table → Except WriteError (List GeneratedFile)
  | _, [] => .ok []
  | none, _ :: _ => .error .endOfTime
  | some at_, t :: ts => do
    let file ← writeTable o (some known) at_ t
    return file :: (← writeTables o known at_.next? ts)

/-- The migrations of a schema, in the order of its tables. -/
def writeAll (o : Options) (startedAt : Timestamp) (s : Schema) :
    Except WriteError (List GeneratedFile) :=
  match unpivoted? s with
  | some e => .error e
  | none => writeTables o s.storageNames (some startedAt) s.tables

/-- What writing tables reports, up to the first error. -/
def reportsOfTables (o : Options) (known : List String) :
    Option Timestamp → List Table → Diagnostics
  | some at_, t :: ts =>
    tableReports o (some known) t
      ++ if (writeTable o (some known) at_ t).toBool then reportsOfTables o known at_.next? ts
        else []
  | _, _ => []

/-- What writing the migrations of a schema reports. -/
def diagnosticsOfWriting (o : Options) (startedAt : Timestamp) (s : Schema) : Diagnostics :=
  if (unpivoted? s).isSome then []
  else reportsOfTables o s.storageNames (some startedAt) s.tables

end Crowsfoot.Migration
