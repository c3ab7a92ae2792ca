import Crowsfoot.Files.Path

/-!
# Requests

A command line as a value. An option that takes a value has it after an equals sign or as the next
argument, and its last occurrence counts; options may stand anywhere, and two hyphens end them.
`Request.parse` gives nothing where the arguments make no request.
-/

namespace Crowsfoot.Command

open Crowsfoot.Files

/-- The directories that the settings name, unless a request does. -/
structure Directories where
  migrations : Option Path := none
  diagrams : Option Path := none
  deriving Repr, DecidableEq, Inhabited

/-- What is asked for. -/
inductive Request where
  /-- A diagram from the migrations. -/
  | drawDiagram (directories : Directories)
  /-- Migrations from a diagram; `force` replaces files without asking. -/
  | writeMigrations (diagram : Option String) (force : Bool) (directories : Directories)
  /-- The schema of a directory of migrations or of a diagram, as a file. -/
  | exportSchema (source target : Path)
  deriving Repr, DecidableEq

/-- What an option sets. -/
inductive Setting where
  | flag (name : String)
  | value (name text : String)
  deriving Repr, DecidableEq

/-- The options that a command takes: those without and those with a value. -/
structure Accepted where
  flags : List String := []
  valued : List String := []

/-- Arguments by role, as they stand. -/
structure Arguments where
  settings : List Setting := []
  positional : List String := []
  deriving Repr, DecidableEq

/-- Whether an argument is an option. -/
def isOption (arg : String) : Bool :=
  match arg.toList with
  | '-' :: _ :: _ => true
  | _ => false

/-- What an argument says of an option, and whether the next argument is its value. -/
inductive Reading where
  | set (s : Setting)
  | needsValue (name : String)
  deriving Repr, DecidableEq

/-- Reads an argument that is an option. -/
def readOption? (accepted : Accepted) (arg : String) : Option Reading :=
  let cs := arg.toList
  let name := String.ofList (cs.takeWhile (· != '='))
  match cs.dropWhile (· != '=') with
  | [] =>
    if accepted.flags.contains name then some (.set (.flag name))
    else if accepted.valued.contains name then some (.needsValue name)
    else none
  | _ :: text =>
    if accepted.valued.contains name then some (.set (.value name (String.ofList text))) else none

/-- Sorts arguments by their role. -/
def Arguments.ofList? (accepted : Accepted) : List String → Option Arguments
  | [] => some {}
  | arg :: rest =>
    if arg = "--" then some { positional := rest }
    else if isOption arg then
      match readOption? accepted arg, rest with
      | some (.set s), rest =>
        (ofList? accepted rest).map fun a => { a with settings := s :: a.settings }
      | some (.needsValue name), text :: rest =>
        (ofList? accepted rest).map fun a => { a with settings := .value name text :: a.settings }
      | _, _ => none
    else (ofList? accepted rest).map fun a => { a with positional := arg :: a.positional }

namespace Arguments

/-- Whether a flag is set. -/
def hasFlag (a : Arguments) (name : String) : Bool :=
  a.settings.contains (.flag name)

/-- The last value of an option. -/
def value? (a : Arguments) (name : String) : Option String :=
  a.settings.reverse.findSome? fun s =>
    match s with
    | .value n text => if n = name then some text else none
    | .flag _ => none

end Arguments

/-- The option that names the directory of migrations. -/
def migrationsOption : String := "--migrations-dir"

/-- The option that names the directory of diagrams. -/
def diagramsOption : String := "--diagrams-dir"

/-- The flag that replaces files without asking. -/
def forceFlag : String := "--force"

/-- The directories that arguments name. -/
def Arguments.directories (a : Arguments) : Directories :=
  { migrations := (a.value? migrationsOption).map Path.ofString
    diagrams := (a.value? diagramsOption).map Path.ofString }

/-- The request of a command with its arguments. -/
def Request.ofCommand? (command : String) (args : List String) : Option Request :=
  let directoryOptions := [migrationsOption, diagramsOption]
  match command with
  | "gen-diagram" => do
    let a ← Arguments.ofList? { valued := directoryOptions } args
    if a.positional.isEmpty then some (.drawDiagram a.directories) else none
  | "gen-migration" => do
    let a ← Arguments.ofList? { flags := [forceFlag], valued := directoryOptions } args
    match a.positional with
    | [] => some (.writeMigrations none (a.hasFlag forceFlag) a.directories)
    | [diagram] => some (.writeMigrations (some diagram) (a.hasFlag forceFlag) a.directories)
    | _ => none
  | "export-schema" => do
    let a ← Arguments.ofList? {} args
    match a.positional with
    | [source, target] => some (.exportSchema (Path.ofString source) (Path.ofString target))
    | _ => none
  | _ => none

/-- The request of a command line. -/
def Request.parse : List String → Option Request
  | "--" :: command :: args => ofCommand? command args
  | command :: args => ofCommand? command args
  | [] => none

/-- How the program is called. -/
def usage : String :=
  "Usage:
  gen-diagram [--migrations-dir DIR] [--diagrams-dir DIR]
  gen-migration [FILE] [--force] [--migrations-dir DIR] [--diagrams-dir DIR]
  export-schema SOURCE OUT
"

end Crowsfoot.Command
