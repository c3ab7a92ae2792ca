import Crowsfoot.Environment.Basic
import Crowsfoot.Files.Workspace
import Crowsfoot.Timestamp

/-!
# Hosts

What a command needs from the computer it runs on: files, variables, a clock and a terminal. The
commands are written over any `Host`, so that they run on files and on values alike.
-/

namespace Crowsfoot

open Crowsfoot.Files

/-- A monad with files, variables, a clock and a terminal. -/
class Host (m : Type → Type) where
  /-- What there is at a path. -/
  kind? : Path → m (Option Kind)
  /-- The names in a directory, in any order; there are none where no directory is. -/
  names : Path → m (List String)
  /-- A directory with all directories below it; there are none where no directory is. -/
  directories : Path → m (List Path)
  /-- The content of a file. -/
  read : Path → m (Except FileError Content)
  /-- Writes a file, which may be there already. -/
  write : Path → String → m (Except FileError Unit)
  /-- Writes at the end of a file, which need not be there. -/
  append : Path → String → m (Except FileError Unit)
  /-- Removes a file. -/
  remove : Path → m (Except FileError Unit)
  /-- Makes a directory with all directories above it. -/
  makeDirectories : Path → m (Except FileError Unit)
  /-- The variables that are set. -/
  environment : m Environment
  /-- Changes the variables. -/
  setEnvironment : Environment → m Unit
  /-- The time. -/
  now : m Timestamp
  /-- Shows a text. -/
  print : String → m Unit
  /-- Shows a text apart from the regular output. -/
  printError : String → m Unit
  /-- Shows a question and reads lines until one is understood, with a complaint after every other;
  none at the end of the input. -/
  ask : (question : String) → (understand : String → Option Bool) → (complaint : String) →
    m (Option Bool)

end Crowsfoot
