import Crowsfoot.Files.Pattern

/-!
# Patterns of paths

A path in which names may have wildcards. A name that is two stars stands for any number of
directories; two stars next to anything else are refused.
-/

namespace Crowsfoot.Files

open Crowsfoot.Text

/-- A name in a pattern of paths. -/
inductive Segment where
  /-- Exactly this name. -/
  | exactly (name : String)
  /-- A name that fits a pattern. -/
  | fitting (pattern : Pattern)
  /-- Any number of directories. -/
  | anyDirectories
  deriving Repr, DecidableEq

/-- A pattern of paths, name by name. -/
abbrev Glob := List Segment

/-- Two stars are part of a longer name. -/
inductive GlobError where
  | mixedStars
  deriving Repr, DecidableEq

/-- The wording of an error in a pattern of paths. -/
def GlobError.message : GlobError → String
  | .mixedStars => "Invalid pattern: '**' can only be an entire path component"

/-- Whether two stars stand next to each other. -/
def hasDoubleStar : List Char → Bool
  | '*' :: '*' :: _ => true
  | _ :: cs => hasDoubleStar cs
  | [] => false

/-- Reads a name of a pattern of paths. -/
def Segment.ofString (name : String) : Except GlobError Segment :=
  if name = "**" then .ok .anyDirectories
  else if hasDoubleStar name.toList then .error .mixedStars
  else if Pattern.isWild name then .ok (.fitting (Pattern.ofString name))
  else .ok (.exactly name)

/-- Reads a pattern of paths. -/
def Glob.ofString (s : String) : Except GlobError Glob :=
  (Path.ofString s).parts.mapM Segment.ofString

end Crowsfoot.Files
