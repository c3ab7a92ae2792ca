import Crowsfoot.Diagram.Writer
import Crowsfoot.Inference.FromDiagram
import Crowsfoot.Inference.FromMigrations
import Crowsfoot.Migration.File
import Crowsfoot.Migration.Writer
import Crowsfoot.Schema.Issue

/-!
# Conversions

The four conversions between migrations, schemas and diagrams, end to end. Reading fails only with
a `ReadError`, writing migrations only with a `WriteError`; writing a diagram never fails. Each
conversion has a companion that lists what it reports, up to its first error.
-/

namespace Crowsfoot

open Crowsfoot.Text (ReadError)

/-- Why a conversion fails. -/
inductive ConversionError where
  | read (e : ReadError)
  | write (e : Migration.WriteError)
  deriving Repr, DecidableEq

/-- The wording of a conversion error. -/
def ConversionError.message : ConversionError → String
  | .read e => e.message
  | .write e => e.message

/-! ## To schemas -/

/-- The schema of migrations. The sources are labels for the contents, as far as there are any. -/
def schemaOfMigrations (o : Options) (contents sources : List String) :
    Except ReadError Schema := do
  return Inference.inferFromMigrations o (← Migration.readMigrations contents sources)

/-- The schema of a diagram. -/
def schemaOfDiagram (text : String) : Except ReadError Schema := do
  return Inference.inferFromDiagram (← Diagram.Document.parse text)

/-- The report of a schema that was inferred, and of its issues. -/
def diagnosticsOfSchema (origin : String) (s : Schema) : Diagnostics :=
  ⟨.info, .converting,
    "Schema from " ++ origin ++ ": " ++ toString s.domainTables.length ++ " tables, "
      ++ toString s.pivotTables.length ++ " pivot tables, " ++ toString s.relationships.length
      ++ " relationships"⟩
    :: diagnosticsOfIssues s.issues
    ++ s.issues.map fun issue =>
      ⟨.warning, .converting, "[" ++ issue.code ++ "] " ++ issue.message⟩

/-- What `schemaOfMigrations` reports. -/
def diagnosticsOfMigrations (o : Options) (contents sources : List String) : Diagnostics :=
  o.diagnostics ++ Migration.diagnosticsOfMigrations contents sources
    ++ match Migration.readMigrations contents sources with
      | .ok created =>
        Inference.diagnosticsOfMigrations o created
          ++ diagnosticsOfSchema "migrations" (Inference.inferFromMigrations o created)
      | .error _ => []

/-- What `schemaOfDiagram` reports. -/
def diagnosticsOfDiagram (o : Options) (text : String) : Diagnostics :=
  o.diagnostics ++ Diagram.Document.diagnostics text
    ++ match Diagram.Document.parse text with
      | .ok document =>
        Inference.diagnosticsOfDiagram document
          ++ diagnosticsOfSchema "diagram" (Inference.inferFromDiagram document)
      | .error _ => []

/-! ## Between texts -/

/-- The diagram of migrations. -/
def diagramOfMigrations (o : Options) (generatedAt : Timestamp) (contents : List String) :
    Except ReadError String := do
  return Diagram.write (← schemaOfMigrations o contents []) generatedAt

/-- The migrations of a diagram. -/
def migrationsOfDiagram (o : Options) (startedAt : Timestamp) (text : String) :
    Except ConversionError (List Migration.GeneratedFile) := do
  let s ← (schemaOfDiagram text).mapError .read
  (Migration.writeAll o startedAt s).mapError .write

/-- What `diagramOfMigrations` reports. -/
def diagnosticsOfMigrationsToDiagram (o : Options) (contents : List String) : Diagnostics :=
  diagnosticsOfMigrations o contents []
    ++ match schemaOfMigrations o contents [] with
      | .ok s => Diagram.diagnosticsOfWriting s
      | .error _ => []

/-- What `migrationsOfDiagram` reports. -/
def diagnosticsOfDiagramToMigrations (o : Options) (startedAt : Timestamp) (text : String) :
    Diagnostics :=
  diagnosticsOfDiagram o text
    ++ match schemaOfDiagram text with
      | .ok s => Migration.diagnosticsOfWriting o startedAt s
      | .error _ => []

end Crowsfoot
