import Crowsfoot.Environment.File
import Crowsfoot.Failure
import Crowsfoot.Host

/-!
# Projects

What the commands do with the files of a project: finding and reading them, loading the settings, and
keeping the log. An `Action` runs on a host and ends in a `Failure` where it cannot go on; what it
did up to there stays done.
-/

namespace Crowsfoot

open Crowsfoot.Files

/-- Something done on a host that may fail. -/
abbrev Action (m : Type → Type) := ExceptT Failure m

variable {m : Type → Type} [Monad m] [Host m]

/-- An action reaches the host that it runs on. -/
instance : Host (Action m) where
  kind? p := ExceptT.lift (Host.kind? p)
  names p := ExceptT.lift (Host.names p)
  directories p := ExceptT.lift (Host.directories p)
  read p := ExceptT.lift (Host.read p)
  write p text := ExceptT.lift (Host.write p text)
  append p text := ExceptT.lift (Host.append p text)
  remove p := ExceptT.lift (Host.remove p)
  makeDirectories p := ExceptT.lift (Host.makeDirectories p)
  environment := ExceptT.lift Host.environment
  setEnvironment env := ExceptT.lift (Host.setEnvironment env)
  now := ExceptT.lift Host.now
  print text := ExceptT.lift (Host.print text)
  printError text := ExceptT.lift (Host.printError text)
  ask question understand complaint := ExceptT.lift (Host.ask question understand complaint)

/-- Goes on with a result, or fails. -/
def orFail (failure : ε → Failure) : Except ε α → Action m α
  | .ok a => pure a
  | .error e => throw (failure e)

namespace Host

/-- Shows a line. -/
def printLine (line : String) : m Unit :=
  print (line ++ "\n")

/-- Whether a directory is at a path. -/
def isDirectory (p : Path) : m Bool :=
  return (← kind? p) == some .directory

/-- Whether something is at a path. -/
def isThere (p : Path) : m Bool :=
  return (← kind? p).isSome

/-- The text of a file. -/
def readText (p : Path) : Action m String := do
  let content ← orFail .file (← read p)
  orFail .encoding content.readText

/-- Writes a text to a file. -/
def writeText (p : Path) (text : String) : Action m Unit := do
  orFail .file (← write p text)

/-- Makes a directory with all directories above it. -/
def makeDirectory (p : Path) : Action m Unit := do
  orFail .file (← makeDirectories p)

/-! ## Finding files -/

/-- Where a segment may lead to from a directory. -/
def candidates (segment : Segment) (dir : Path) : m (List Path) :=
  match segment with
  | .exactly name => return [dir.child name]
  | .fitting pattern =>
    return ((← names dir).filter fun name => pattern.accepts name.toList).map dir.child
  | .anyDirectories => directories dir

/-- The paths that a pattern leads to from several directories. -/
def findFrom (dirs : List Path) : Glob → m (List Path)
  | [] => return dirs
  | segment :: rest => do
    let next := (← dirs.mapM (candidates segment)).flatten.eraseDups
    let kept ← next.filterM fun p => if rest.isEmpty then isThere p else isDirectory p
    findFrom kept rest

/-- The paths in a directory that fit a pattern, in order. -/
def find (dir : Path) (glob : Glob) : m (List Path) := do
  if ← isDirectory dir then return (← findFrom [dir] glob).mergeSort Path.le
  else return []

/-- The migration files in a directory, in order. -/
def migrationFiles (dir : Path) : m (List Path) :=
  find dir [.fitting (Pattern.ofString "*.php")]

/-- The files in a directory whose names say that they create a table. The name of the table may have
wildcards. -/
def migrationsCreating (dir : Path) (table : String) : Action m (List Path) := do
  let glob ← orFail .glob (Glob.ofString ("*_create_" ++ table ++ "_table.php"))
  find dir glob

/-- The diagrams that are tried when none is named. -/
def usualDiagrams : List String := ["schema.puml", "er.puml", "diagram.puml"]

/-- The extension of diagrams. -/
def diagramExtension : String := ".puml"

/-- The first path at which something is. -/
def firstThere : List Path → m (Option Path)
  | [] => return none
  | p :: rest => do if ← isThere p then return some p else firstThere rest

/-- The diagram that a name refers to. A single name lies in the directory of diagrams; the extension
may be missing. Without a name it is the first of the usual ones. -/
def findDiagram (name : Option String) (directory : Path) : Action m Path := do
  match name.filter fun n => !n.isEmpty with
  | none =>
    match ← firstThere (usualDiagrams.map directory.child) with
    | some p => return p
    | none => throw (.noDiagram usualDiagrams directory)
  | some name =>
    let named := Path.ofString name
    let path := if named.isSingle then directory.join named else named
    let path ←
      if path.suffix = diagramExtension then pure path
      else
        match path.withName? (path.name ++ diagramExtension) with
        | some p => pure p
        | none => throw (.unnamedDiagram path)
    if ← isThere path then return path else throw (.missingDiagram path)

/-! ## Settings -/

/-- Where the environment file may be: in the working directory or up to three levels above. -/
def environmentFiles : List Path :=
  (List.range 4).map fun k => { parts := List.replicate k ".." ++ [".env"] }

/-- Sets the variables of the first environment file that is there. -/
def loadEnvironmentFile : Action m Unit := do
  if let some p ← firstThere environmentFiles then
    if !(← isDirectory p) then
      let text ← readText p
      setEnvironment ((← environment).withFile text)

/-- The settings of the project; the directory of the log is made. -/
def loadSettings : Action m Settings := do
  loadEnvironmentFile
  let settings ← orFail .settings (Settings.ofEnvironment (← environment))
  if let some p := settings.logFile then makeDirectory p.parent
  return settings

/-! ## The log -/

/-- An open log: its level, and the file that gets its lines, too. -/
structure OpenLog where
  level : Int
  file : Option Path
  deriving Repr, DecidableEq

/-- Opens the log of the settings. Its file is there from then on. -/
def openLog (settings : Settings) : Action m OpenLog := do
  let level ← orFail .level (Log.level settings.logLevel)
  if let some p := settings.logFile then orFail .file (← append p "")
  return ⟨level, settings.logFile⟩

/-- Shows diagnostics in the log. -/
def report (log : OpenLog) (ds : Diagnostics) : Action m Unit :=
  (Log.lines log.level ds).forM fun line => do
    print line
    if let some p := log.file then orFail .file (← append p line)

/-! ## Schemas -/

/-- The schema in a file. -/
def loadSchema (p : Path) : Action m Schema := do
  if !(← isThere p) then throw (.missingSchema p)
  orFail (.badSchema p) (Schema.parse (← readText p))

/-- Writes a schema to a file; the directories above it are made. -/
def saveSchema (p : Path) (s : Schema) : Action m Unit := do
  makeDirectory p.parent
  writeText p s.write

end Host

end Crowsfoot
