import Crowsfoot.Host

/-!
# Sessions

A host made of values: a workspace, variables, a clock that stands still, the lines that will be
typed, and what has been shown. What is typed shows up in the output, as on a terminal.
-/

namespace Crowsfoot

open Crowsfoot.Files

/-- The state of a host made of values. -/
structure Session where
  workspace : Workspace := {}
  environment : Environment := {}
  clock : Timestamp
  /-- The lines that will be typed. -/
  input : List String := []
  output : String := ""
  errors : String := ""
  deriving Repr, Inhabited

namespace Session

/-- Runs an operation on the workspace that only looks. -/
def inspect (f : Workspace → α) : StateM Session α :=
  fun s => (f s.workspace, s)

/-- Runs an operation that changes the workspace, if it succeeds. -/
def change (f : Workspace → Except FileError Workspace) : StateM Session (Except FileError Unit) :=
  fun s =>
    match f s.workspace with
    | .ok w => (.ok (), { s with workspace := w })
    | .error e => (.error e, s)

/-- Asks until a line is understood. -/
def ask (question : String) (understand : String → Option Bool) (complaint : String) :
    List String → String → Option Bool × List String × String
  | [], output => (none, [], output ++ question)
  | line :: rest, output =>
    let output := output ++ question ++ line ++ "\n"
    match understand line with
    | some answer => (some answer, rest, output)
    | none => ask question understand complaint rest (output ++ complaint)

instance : Host (StateM Session) where
  kind? p := inspect (·.kind? p)
  names p := inspect (·.entries p)
  directories p := inspect (·.directoriesBelow p)
  read p := inspect (·.read p)
  write p text := change (·.write p text)
  append p text := change (·.append p text)
  remove p := change (·.remove p)
  makeDirectories p := change (·.makeDirectories p)
  environment := return (← get).environment
  setEnvironment env := modify fun s => { s with environment := env }
  now := return (← get).clock
  print text := modify fun s => { s with output := s.output ++ text }
  printError text := modify fun s => { s with errors := s.errors ++ text }
  ask question understand complaint := fun s =>
    let (answer, input, output) := ask question understand complaint s.input s.output
    (answer, { s with input, output })

end Session

end Crowsfoot
