import Crowsfoot.Environment.Basic
import Crowsfoot.Files.Path
import Crowsfoot.Json.Reader
import Crowsfoot.Schema.Codec

/-!
# Settings

What the environment says about a project: its directories, the options of its conversions, and its
log. Every setting has a variable, found in any case, and a default. The tables to skip are written
as a JSON array; all other settings are plain text.
-/

namespace Crowsfoot

open Crowsfoot.Files Crowsfoot.Json

/-- The settings of a project. -/
structure Settings where
  /-- Where migrations are read and written. -/
  migrationsDirectory : Path := Path.ofString "database/migrations"
  /-- Where diagrams are read and written. -/
  diagramsDirectory : Path := Path.ofString "storage/app/db/diagrams"
  options : Options := {}
  /-- The name of the level of the log. -/
  logLevel : String := "INFO"
  /-- A file that gets the lines of the log, too. -/
  logFile : Option Path := none
  deriving Repr, DecidableEq, Inhabited

/-- Why the environment gives no settings. -/
inductive SettingsError where
  /-- A setting that has to be JSON is not. -/
  | notJson (field : String)
  | faulty (faults : List Fault)
  deriving Repr, DecidableEq

/-- The wording of a setting that is not JSON. -/
def SettingsError.message : SettingsError → String
  | .notJson field =>
    "error parsing value for field \"" ++ field ++ "\" from source \"EnvSettingsSource\""
  | .faulty _ => "invalid settings"

namespace Settings

/-- What the names of the variables begin with, in lower case. -/
def variablePrefix : String := "schemabridge_"

/-- The text of a setting, if its variable is set. -/
def text? (env : Environment) (field : String) : Option String :=
  env.find? (variablePrefix ++ field)

/-- The setting of a field, or its default. -/
def field (env : Environment) (name : String) (default : α) (decode : Json → Decoded α) :
    Decoded α :=
  match text? env name with
  | some s => (decode (.str s)).within (.key name)
  | none => .ok default

/-- A path. -/
def toPath (v : Json) : Decoded Path :=
  (toStr v).map Path.ofString

/-- The JSON value of the tables to skip; null counts as not set. -/
def skipTables? (env : Environment) : Except SettingsError (Option Json) :=
  match text? env "skip_tables" with
  | none => .ok none
  | some s =>
    match Json.parse? s with
    | none => .error (.notJson "skip_tables")
    | some .null => .ok none
    | some v => .ok (some v)

/-- The settings that an environment gives. -/
def ofEnvironment (env : Environment) : Except SettingsError Settings := do
  let skipped ← skipTables? env
  let d : Settings := {}
  let make (migrations diagrams : Path) (softDeletes : Bool) (onDelete : String)
      (skipTables : List String) (logLevel : String) (logFile : Option Path) : Settings :=
    ⟨migrations, diagrams, { softDeletes, onDelete, skipTables }, logLevel, logFile⟩
  let decoded :=
    (field env "migrations_dir" d.migrationsDirectory toPath).map make
      |>.ap (field env "diagrams_dir" d.diagramsDirectory toPath)
      |>.ap (field env "soft_deletes" d.options.softDeletes toBool)
      |>.ap (field env "on_delete" d.options.onDelete toStr)
      |>.ap (match skipped with
        | some v => (Json.toList toStr v).within (.key "skip_tables")
        | none => .ok d.options.skipTables)
      |>.ap (field env "log_level" d.logLevel toStr)
      |>.ap (field env "log_file" d.logFile fun v => (toPath v).map some)
  decoded.toExcept.mapError .faulty

end Settings

end Crowsfoot
