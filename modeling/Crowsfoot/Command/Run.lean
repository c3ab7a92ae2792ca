import Crowsfoot.Command.Request
import Crowsfoot.Host.Project

/-!
# Running commands

What each command does on a host, step by step: the order of what is shown, logged and written is
part of what a command is. A command that refuses has said why; a `Failure` is what it did not
expect.
-/

namespace Crowsfoot.Command

open Crowsfoot.Files Crowsfoot.Host

/-- How a command ends. -/
inductive Outcome where
  | done
  /-- It said why it did nothing more. -/
  | refused
  | failed (f : Failure)
  /-- The arguments made no request. -/
  | misused
  deriving Repr, DecidableEq

/-- The exit code of an outcome. -/
def Outcome.exitCode : Outcome → Nat
  | .done => 0
  | .refused => 1
  | .failed _ => 1
  | .misused => 2

variable {m : Type → Type} [Monad m] [Host m]

/-- Says why a command does nothing more. -/
def refuse (reason : String) : Action m Outcome := do
  printError ("Error: " ++ reason ++ "\n")
  return .refused

/-- Shows a list of names. -/
def printNames (names : List String) : Action m Unit :=
  names.forM fun name => printLine (" - " ++ name)

/-- The schema of the migrations in a directory. -/
def readMigrations (log : OpenLog) (o : Options) (dir : Path) : Action m Schema := do
  let files ← migrationFiles dir
  let contents ← files.mapM readText
  let names := files.map Path.name
  report log (diagnosticsOfMigrations o contents names)
  orFail .read (schemaOfMigrations o contents names)

/-- The schema of a diagram. -/
def readDiagram (log : OpenLog) (o : Options) (path : Path) : Action m Schema := do
  let text ← readText path
  report log (diagnosticsOfDiagram o text)
  orFail .read (schemaOfDiagram text)

/-! ## Drawing a diagram -/

/-- What the list of tables says of a table. -/
def tableSummary (t : Table) : String :=
  t.name ++ " (" ++ t.storageName ++ ", " ++ (if t.isPivot then "pivot" else "table") ++ ")"

/-- Draws the diagram of the migrations. -/
def drawDiagram (settings : Settings) (log : OpenLog) (d : Directories) : Action m Outcome := do
  let migrations := d.migrations.getD settings.migrationsDirectory
  let target := (d.diagrams.getD settings.diagramsDirectory).child "generated"
  printLine ("Reading migrations from " ++ migrations.toString)
  let schema ← readMigrations log settings.options migrations
  if schema.tables.isEmpty then refuse "No tables found in migration files"
  else
    printLine ("Found " ++ toString schema.tables.length ++ " tables:")
    printNames (schema.tables.map tableSummary)
    let now ← now
    makeDirectory target
    let path := target.child (now.stamp ++ "_schema.puml")
    report log (Diagram.diagnosticsOfWriting schema)
    writeText path (Diagram.write schema now)
    printLine ("✓ PlantUML diagram generated: " ++ path.toString)
    return .done

/-! ## Writing migrations -/

/-- What is asked before files are replaced. -/
def replaceQuestion : String :=
  "Do you want to drop and recreate these migration files? [y/N]: "

/-- What a line means as the answer to a question; an empty one means no. -/
def answerOf? (line : String) : Option Bool :=
  let word := Text.trim (Text.lower line.toList)
  if word = "y".toList || word = "yes".toList then some true
  else if word = "n".toList || word = "no".toList || word.isEmpty then some false
  else none

/-- The tables whose migrations are there already, each with their files. -/
def existingMigrations (dir : Path) (files : List Migration.GeneratedFile) :
    Action m (List (String × List Path)) := do
  let found ← (files.map (·.table)).eraseDups.mapM fun table =>
    return (table, ← migrationsCreating dir table)
  return found.filter fun f => !f.2.isEmpty

/-- Whether existing migrations may be replaced. -/
def mayReplace (force : Bool) : Action m (Option Bool) :=
  if force then return some true
  else ask replaceQuestion answerOf? "Error: invalid input\n"

/-- Removes migrations. -/
def removeMigrations (paths : List Path) : Action m Unit :=
  paths.forM fun p => do
    orFail .file (← remove p)
    printLine ("Deleted migration: " ++ p.name)

/-- Writes generated migrations to a directory. -/
def placeMigrations (dir : Path) (files : List Migration.GeneratedFile) : Action m Outcome := do
  files.forM fun f => do
    writeText (dir.join (Path.ofString f.filename)) f.content
    printLine ("Created migration: " ++ f.filename)
  printLine ("✓ Generated " ++ toString files.length ++ " migration files")
  return .done

/-- Puts generated migrations in place of those that are there. -/
def replaceMigrations (dir : Path) (force : Bool) (files : List Migration.GeneratedFile) :
    Action m Outcome := do
  makeDirectory dir
  let existing ← existingMigrations dir files
  if existing.isEmpty then placeMigrations dir files
  else
    printLine "The following migration files already exist:"
    printNames (existing.map Prod.fst)
    match ← mayReplace force with
    | some true =>
      removeMigrations (existing.flatMap Prod.snd)
      placeMigrations dir files
    | some false =>
      printLine "Operation cancelled."
      return .refused
    | none =>
      printError "Aborted.\n"
      return .refused

/-- Whether a write error lies in the schema, so that the command refuses it. -/
def isSchemaFault : Migration.WriteError → Bool
  | .pivotShape .. | .missingPivot .. => true
  | .endOfTime => false

/-- Writes the migrations of a diagram. -/
def writeMigrations (settings : Settings) (log : OpenLog) (diagram : Option String) (force : Bool)
    (d : Directories) : Action m Outcome := do
  let o := settings.options
  match ← observing (findDiagram diagram (d.diagrams.getD settings.diagramsDirectory)) with
  | .error (.unnamedDiagram p) => throw (.unnamedDiagram p)
  | .error e => refuse e.message
  | .ok path =>
    printLine ("Using diagram " ++ path.toString)
    let schema ← readDiagram log o path
    if schema.tables.isEmpty then refuse "No tables found in PlantUML file"
    else
      printLine "Regular tables:"
      printNames (schema.domainTables.map Table.storageName)
      if !schema.pivotTables.isEmpty then
        printLine "Pivot tables:"
        printNames (schema.pivotTables.map Table.storageName)
      let now ← now
      report log (Migration.diagnosticsOfWriting o now schema)
      match Migration.writeAll o now schema with
      | .ok files =>
        replaceMigrations (d.migrations.getD settings.migrationsDirectory) force files
      | .error e => if isSchemaFault e then refuse e.message else throw (.write e)

/-! ## Exporting a schema -/

/-- Writes the schema of a directory of migrations or of a diagram to a file. -/
def exportSchema (settings : Settings) (log : OpenLog) (source target : Path) :
    Action m Outcome := do
  let o := settings.options
  let write (schema : Schema) : Action m Outcome := do
    saveSchema target schema
    printLine ("✓ Schema written to " ++ target.toString ++ " (" ++ toString schema.tables.length
      ++ " tables)")
    return .done
  match ← kind? source with
  | some .directory => write (← readMigrations log o source)
  | some .file => write (← readDiagram log o source)
  | none => refuse (source.toString ++ " does not exist")

/-! ## All commands -/

/-- Does what a request asks for. -/
def perform (request : Request) : Action m Outcome := do
  let settings ← loadSettings
  let log ← openLog settings
  match request with
  | .drawDiagram d => drawDiagram settings log d
  | .writeMigrations diagram force d => writeMigrations settings log diagram force d
  | .exportSchema source target => exportSchema settings log source target

/-- Runs a command line. -/
def run (args : List String) : m Outcome := do
  match Request.parse args with
  | none => return .misused
  | some request =>
    match ← (perform request).run with
    | .ok outcome => return outcome
    | .error f => return .failed f

end Crowsfoot.Command
