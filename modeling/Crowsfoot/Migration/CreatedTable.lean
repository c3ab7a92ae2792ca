import Crowsfoot.Builder.Comment
import Crowsfoot.Diagnostic
import Crowsfoot.Migration.Clause
import Crowsfoot.Schema.Table

/-!
# Tables created by migrations

`CreatedTable.ofBody` reads the body of a table's creation: it states its clauses one after another
(`CreatedTable.state`) and then hands the declared foreign keys to their columns
(`CreatedTable.attachKeys`). The first declaration of a column wins and later ones change nothing.
Foreign keys may be declared before their columns, the primary key and indexes may not.

`CreatedTable.diagnosticsOfBody` reports on the same body.
-/

namespace Crowsfoot.Migration

open Crowsfoot.Builder Crowsfoot.Text

/-- What a migration says about a table it creates. -/
structure CreatedTable where
  /-- The name the table is stored under. -/
  name : String
  columns : List Column := []
  keys : List KeyFact := []
  uniqueSets : List (List String) := []
  /-- The file the table comes from. -/
  source : Option String := none
  deriving Repr, DecidableEq, Inhabited

namespace CreatedTable

/-- The entity stored in the table. -/
def entityName (t : CreatedTable) : String :=
  Naming.entityName t.name

/-- The first column with the given name. -/
def column? (t : CreatedTable) (name : String) : Option Column :=
  findColumn? t.columns name

/-- Whether a column of this name is declared. -/
def declares (t : CreatedTable) (name : String) : Bool :=
  (t.column? name).isSome

/-- The table after one more clause. -/
def state (t : CreatedTable) : Clause → CreatedTable
  | .declare c => if t.declares c.name then t else { t with columns := t.columns ++ [c] }
  | .refer fact => { t with keys := t.keys ++ [fact] }
  | .uniqueSet names => { t with uniqueSets := t.uniqueSets ++ [names] }
  | .primary name =>
    { t with
      columns := modifyColumn name (fun c => { c with primary := true, nullable := false })
        t.columns }
  | .indexed name =>
    { t with columns := modifyColumn name (fun c => { c with index := true }) t.columns }
  | .unsupported _ => t

/-- The columns with a foreign key handed to its column, unless that has one. -/
def attachKey (columns : List Column) (fact : KeyFact) : List Column :=
  modifyColumn fact.column (·.withKey { table := fact.on, column := fact.references }) columns

/-- The table with every declared foreign key on its column; the first for a column wins. -/
def attachKeys (t : CreatedTable) : CreatedTable :=
  { t with columns := t.keys.foldl attachKey t.columns }

/-! ## Reading -/

/-- The chains in a body, one for each statement; other statements give empty ones. -/
def chains (body : List Char) : List (Except ReadError (List Call)) :=
  (splitAt ';' (withoutComments body)).map chain

/-- The clauses of all chains, or the first read error. -/
def clausesOf (chains : List (Except ReadError (List Call))) : Except ReadError (List Clause) := do
  let calls ← chains.mapM id
  return calls.flatMap Clause.ofChain

/-- The table after a list of clauses. -/
def stateAll (t : CreatedTable) (clauses : List Clause) : CreatedTable :=
  clauses.foldl state t

/-- Reads the body of a table's creation. -/
def ofBody (name body : String) (source : Option String) : Except ReadError CreatedTable := do
  let clauses ← clausesOf (chains body.toList)
  return (stateAll { name, source } clauses).attachKeys

/-! ## Diagnostics -/

/-- What stating a clause reports: a column that is declared already, or an unknown method. -/
def report (t : CreatedTable) : Clause → Diagnostics
  | .declare c =>
    if t.declares c.name then
      [⟨.debug, .readingMigrations,
        t.name ++ ": column '" ++ c.name ++ "' already declared, skipping"⟩]
    else []
  | .unsupported method =>
    [⟨.debug, .readingMigrations,
      t.name ++ ": ignoring unsupported builder call '" ++ method ++ "'"⟩]
  | _ => []

/-- What stating clauses reports. -/
def reportAll (t : CreatedTable) : List Clause → Diagnostics
  | [] => []
  | clause :: rest => t.report clause ++ (t.state clause).reportAll rest

/-- Foreign keys on columns that were not declared. -/
def reportKeys (t : CreatedTable) : Diagnostics :=
  (t.keys.filter fun fact => !t.declares fact.column).map fun fact =>
    ⟨.debug, .readingMigrations,
      t.name ++ ": foreign key on undeclared column '" ++ fact.column ++ "'"⟩

/-- The chains before the first that cannot be read. -/
def readable (chains : List (Except ReadError (List Call))) : List (List Call) :=
  (chains.map Except.toOption).takeWhile Option.isSome |>.filterMap id

/-- What reading a body reports, up to the first error. -/
def diagnosticsOfBody (name body : String) : Diagnostics :=
  let chains := chains body.toList
  let clauses := (readable chains).flatMap Clause.ofChain
  let start : CreatedTable := { name }
  start.reportAll clauses
    ++ if (clausesOf chains).toBool then (start.stateAll clauses).reportKeys else []

end CreatedTable

end Crowsfoot.Migration
