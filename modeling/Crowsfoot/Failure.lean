import Crowsfoot.Files.Glob
import Crowsfoot.Files.Workspace
import Crowsfoot.Log
import Crowsfoot.Settings
import Crowsfoot.Conversion

/-!
# Failures

Everything that can go wrong between the start of a command and its end, and how it is worded.
-/

namespace Crowsfoot

open Crowsfoot.Files

/-- Why an operation on a project fails. -/
inductive Failure where
  | file (e : FileError)
  | encoding (e : DecodeError)
  | settings (e : SettingsError)
  | level (e : Log.LevelError)
  | glob (e : GlobError)
  | read (e : Text.ReadError)
  | write (e : Migration.WriteError)
  /-- No diagram was named, and the directory has none of the usual ones. -/
  | noDiagram (usual : List String) (directory : Path)
  | missingDiagram (path : Path)
  /-- A path without a last name cannot get an extension. -/
  | unnamedDiagram (path : Path)
  | missingSchema (path : Path)
  | badSchema (path : Path) (e : SchemaFileError)
  deriving Repr, DecidableEq

/-- The wording of a failure. -/
def Failure.message : Failure → String
  | .file e => e.message
  | .encoding e => e.message
  | .settings e => e.message
  | .level e => e.message
  | .glob e => e.message
  | .read e => e.message
  | .write e => e.message
  | .noDiagram usual directory =>
    "No PlantUML file specified and none of " ++ Text.commaList usual ++ " found in "
      ++ directory.toString
  | .missingDiagram path => "File not found: " ++ path.toString
  | .unnamedDiagram path => "PosixPath(" ++ Text.quotedText path.toString ++ ") has an empty name"
  | .missingSchema path => "Schema file not found: " ++ path.toString
  | .badSchema path .empty =>
    "Schema file is empty: " ++ path.toString ++ ". Re-export the schema or delete the file."
  | .badSchema path (.faulty _) => "Failed to load schema from " ++ path.toString

end Crowsfoot
