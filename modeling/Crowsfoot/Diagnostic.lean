/-!
# Diagnostics

What an operation reports beside its result. A diagnostic has a severity, the activity it comes
from, and a message. Results never depend on diagnostics: they are computed by functions of their
own, or collected in a field that nothing else reads.
-/

namespace Crowsfoot

/-- How serious a diagnostic is. -/
inductive Severity where
  | debug
  | info
  | warning
  | error
  | critical
  deriving Repr, DecidableEq, Inhabited

/-- The rank of a severity; a threshold shows the severities of at least its own rank. -/
def Severity.rank : Severity → Int
  | .debug => 10
  | .info => 20
  | .warning => 30
  | .error => 40
  | .critical => 50

/-- The name of a severity. -/
def Severity.name : Severity → String
  | .debug => "DEBUG"
  | .info => "INFO"
  | .warning => "WARNING"
  | .error => "ERROR"
  | .critical => "CRITICAL"

/-- The activity that reports. -/
inductive Activity where
  | readingMigrations
  | readingDiagrams
  | inferring
  | converting
  | validating
  | writingDiagrams
  | writingMigrations
  | loadingTemplates
  deriving Repr, DecidableEq, Inhabited

/-- The name of the log channel of an activity. -/
def Activity.channel : Activity → String
  | .readingMigrations => "schemabridge.parsing.migration"
  | .readingDiagrams => "schemabridge.parsing.diagram"
  | .inferring => "schemabridge.inference"
  | .converting => "schemabridge.pipeline"
  | .validating => "schemabridge.schema.validators"
  | .writingDiagrams => "schemabridge.emitters.diagram"
  | .writingMigrations => "schemabridge.emitters.migration"
  | .loadingTemplates => "schemabridge.templates.loader"

/-- A report of an activity. -/
structure Diagnostic where
  severity : Severity
  activity : Activity
  message : String
  deriving Repr, DecidableEq, Inhabited

/-- The diagnostics of an operation, in the order of their reports. -/
abbrev Diagnostics := List Diagnostic

end Crowsfoot
