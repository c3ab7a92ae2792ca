import Crowsfoot.Migration.Vocabulary

/-!
# Clauses

What a statement says, one fact at a time. `clauses` depends on the statement alone: whether a
column is there already, or not yet, is decided where the clauses are put together
(`Crowsfoot.Migration.CreatedTable`).
-/

namespace Crowsfoot.Migration

open Crowsfoot.Builder

/-- A declared foreign key: a column of the table refers to a column of another. -/
structure KeyFact where
  column : String
  on : String
  references : String := "id"
  deriving Repr, DecidableEq, Inhabited

/-- One fact a statement states. -/
inductive Clause where
  /-- The table has this column. -/
  | declare (column : Column)
  | refer (fact : KeyFact)
  /-- The values of these columns are unique together. -/
  | uniqueSet (columns : List String)
  /-- A declared column is the primary key. -/
  | primary (column : String)
  /-- A declared column has an index. -/
  | indexed (column : String)
  /-- A statement of unknown meaning. -/
  | unsupported (method : String)
  deriving Repr, DecidableEq

/-- The string unless it is empty. -/
def nonEmpty? (s : Option String) : Option String :=
  s.filter fun s => !s.isEmpty

/-- The last call of a method in a chain. -/
def lastCall? (method : String) (calls : List Call) : Option Call :=
  calls.reverse.find? fun call => call.method == method

/-- The literal at a position of the last call of a method, unless it is empty. -/
def lastLiteral? (method : String) (calls : List Call) (k : Nat) : Option String :=
  (lastCall? method calls).bind fun call => nonEmpty? (call.argument k).text?

/-- The key that `references(…)->on(…)` in a chain declares on a column. -/
def referencedKey? (column : String) (calls : List Call) : Option KeyFact :=
  (lastLiteral? "on" calls 0).map fun target =>
    { column, on := target, references := (lastLiteral? "references" calls 0).getD "id" }

/-- The key that a chain on a column declares: by `constrained`, whose target follows from the
column's name unless it is given, or else by `references` and `on`. -/
def chainedKey? (column : String) (calls : List Call) : Option KeyFact :=
  if (lastCall? "constrained" calls).isSome then
    some
      { column
        on := (lastLiteral? "constrained" calls 0).getD (Naming.tableOfForeignKey column)
        references := (lastLiteral? "constrained" calls 1).getD "id" }
  else referencedKey? column calls

/-- The clauses of a column whose modifiers have been applied. -/
def columnClauses (column : Column) (key : Option KeyFact) : List Clause :=
  (if column.unique then [.uniqueSet [column.name]] else [])
    ++ (key.map Clause.refer).toList ++ [.declare column]

/-- The clauses of a column with its modifiers and the keys chained to it. -/
def chainedColumn (calls : List Call) (column : Column) : List Clause :=
  columnClauses (applyModifiers calls column) (chainedKey? column.name calls)

/-- A column of a type with the parameters that its declaring call gives. -/
def typedColumn (type : ColumnType) (unsigned : Bool) (call : Call) (name : String) : Column :=
  let base : Column := { name, type, nullable := false }
  let sized :=
    match type with
    | .varchar | .char => { base with size := (call.argument 1).int? }
    | .decimal =>
      { base with precision := (call.argument 1).int?, scale := (call.argument 2).int? }
    | .enum =>
      match call.argument 1 with
      | .list values => { base with enumValues := values.map Argument.shown }
      | _ => base
    | _ => base
  if unsigned then { sized with unsigned := true, minimum := some 0 } else sized

/-- The class name in `App\Models\User::class`. -/
def modelOfClass (value : Argument) : String :=
  if value.isVoid then ""
  else
    let name := Text.without "::class".toList value.shown.toList
    String.ofList (Text.trim ((Text.pieces '\\' name).getLastD []))

/-- The clauses that the first call of a chain states together with the calls after it. -/
def Clause.ofStatement (s : Statement) (call : Call) (calls : List Call) : List Clause :=
  let name? := (call.argument 0).text?
  match s with
  | .typed type unsigned =>
    match name? with
    | some name => chainedColumn calls (typedColumn type unsigned call name)
    | none => []
  | .increments type =>
    let name := (nonEmpty? name?).getD "id"
    chainedColumn calls { name, type, nullable := false, primary := true }
  | .rememberToken => [.declare { name := "remember_token", size := some 100 }]
  | .morphs keyType nullable =>
    match name? with
    | some name =>
      [.declare { name := name ++ "_type", size := some 255, nullable },
        .declare { name := name ++ "_id", type := keyType, nullable }]
    | none => []
  | .foreignId =>
    match name? with
    | some name => chainedColumn calls { name, type := .bigint, nullable := false }
    | none => []
  | .foreignIdFor =>
    let model := modelOfClass (call.argument 0)
    if model.isEmpty then []
    else
      let name := (nonEmpty? (call.argument 1).text?).getD (Naming.foreignKeyName model)
      let key : KeyFact := { column := name, on := Naming.tableName model }
      columnClauses (applyModifiers calls { name, type := .bigint, nullable := false })
        (if (lastCall? "constrained" calls).isSome then some key else none)
  | .timestamps =>
    [.declare { name := "created_at", type := .timestamp },
      .declare { name := "updated_at", type := .timestamp }]
  | .softDeletes =>
    [.declare { name := (nonEmpty? name?).getD "deleted_at", type := .timestamp }]
  | .foreign =>
    match (call.argument 0).names with
    | [column] => ((referencedKey? column calls).map Clause.refer).toList
    | _ => []
  | .unique =>
    let columns := (call.argument 0).names
    if columns.isEmpty then [] else [.uniqueSet columns]
  | .primary =>
    match (call.argument 0).names with
    | [column] => [.primary column]
    | _ => []
  | .index => (call.argument 0).names.map Clause.indexed

/-- The clauses of a chain. -/
def Clause.ofChain : List Call → List Clause
  | [] => []
  | call :: calls =>
    match Statement.ofMethod? call.method with
    | some s => Clause.ofStatement s call calls
    | none => [.unsupported call.method]

end Crowsfoot.Migration
