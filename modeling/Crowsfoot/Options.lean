import Crowsfoot.Diagnostic
import Crowsfoot.Schema.Column

/-!
# Options of a conversion

What a conversion can be told beside its input: which tables take no part in relationships, which
columns say nothing about a table's subject, and how generated migrations look.
-/

namespace Crowsfoot

/-- Tables of the framework itself. -/
def frameworkTables : List String :=
  ["migrations", "password_resets", "password_reset_tokens", "personal_access_tokens",
    "failed_jobs", "jobs", "cache", "sessions", "job_batches"]

/-- Options of a conversion. -/
structure Options where
  /-- Whether every generated domain table gets soft deletes. -/
  softDeletes : Bool := false
  /-- What generated constraints do when the parent is deleted. -/
  onDelete : String := "cascade"
  /-- Tables without relationships. -/
  skipTables : List String := frameworkTables
  /-- Columns that do not keep a table from being a pivot. -/
  systemColumns : List String := Crowsfoot.systemColumns
  /-- What generated statements are indented by. -/
  indent : String := "            "
  deriving Repr, DecidableEq, Inhabited

/-- The name of a truth value in messages. -/
def truthName (b : Bool) : String :=
  if b then "True" else "False"

/-- The report of the options in effect. -/
def Options.diagnostics (o : Options) : Diagnostics :=
  let skipped := Text.commaList (Text.sorted o.skipTables)
  [⟨.debug, .converting,
    "Translation config: soft_deletes=" ++ truthName o.softDeletes ++ ", on_delete=" ++ o.onDelete
      ++ ", skipping " ++ toString o.skipTables.length ++ " tables ("
      ++ (if skipped.isEmpty then "none" else skipped) ++ ")"⟩]

end Crowsfoot
