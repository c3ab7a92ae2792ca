import Crowsfoot.Diagnostic
import Crowsfoot.Text.Basic
import Crowsfoot.Text.Case

/-!
# Logs

Which diagnostics are shown, and how. A level is the rank from which on diagnostics are shown; it has
a name that is read without regard to case and to blanks around it. Channels are named below the
channel of the program.
-/

namespace Crowsfoot.Log

open Crowsfoot.Text

/-- The channel of the program. -/
def rootChannel : String := "schemabridge"

/-- The name of a channel, which is the root channel or below it. -/
def channelName (name : String) : String :=
  if name = rootChannel || startsWith (rootChannel ++ ".").toList name.toList then name
  else rootChannel ++ "." ++ name

/-- The level at which nothing is said about what to show. -/
def unset : Int := 0

/-- The levels by name. -/
def levels : List (String × Int) :=
  [Severity.debug, .info, .warning, .error, .critical].map (fun s => (s.name, s.rank))
    ++ [("WARN", Severity.warning.rank), ("FATAL", Severity.critical.rank), ("NOTSET", unset)]

/-- No level has this name. -/
structure LevelError where
  name : String
  deriving Repr, DecidableEq

/-- The wording of a level error. -/
def LevelError.message (e : LevelError) : String :=
  "Unknown log level '" ++ e.name ++ "'"

/-- The level of a name. -/
def level (name : String) : Except LevelError Int :=
  match levels.lookup (onChars (fun cs => upper (trim cs)) name) with
  | some rank => .ok rank
  | none => .error ⟨name⟩

/-- The rank from which on a level shows diagnostics. Where it is unset, that is the rank of
warnings. -/
def threshold (level : Int) : Int :=
  if level = unset then Severity.warning.rank else level

/-- Whether a level shows a diagnostic. -/
def shows (level : Int) (d : Diagnostic) : Bool :=
  decide (threshold level ≤ d.severity.rank)

/-- The line of a diagnostic. -/
def line (d : Diagnostic) : String :=
  d.activity.channel ++ " - " ++ d.severity.name ++ " - " ++ d.message ++ "\n"

/-- The lines of the diagnostics that a level shows. -/
def lines (level : Int) (ds : Diagnostics) : List String :=
  (ds.filter (shows level)).map line

end Crowsfoot.Log
