import Crowsfoot.Command.Run
import Std.Time.Format

/-!
# The program

Runs a command line on the files, the variables and the clock of the computer. Everything else is
decided by `Command.run`.
-/

namespace Crowsfoot

open Crowsfoot.Files

/-- A running program, with the variables it has got up to now. -/
abbrev Program := StateT Environment IO

namespace Program

/-- A path as the file system takes it. -/
def native (p : Path) :=
  System.mkFilePath [p.toString]

/-- What there is at a path. -/
def kindOf (p : Path) : IO (Option Kind) := do
  try
    let data ← (native p).metadata
    return some (if data.type == .dir then .directory else .file)
  catch _ => return none

/-- The result of a file operation, with the errors that a command goes on from. -/
def attempt (p : Path) (operation : IO α) : IO (Except FileError α) := do
  try return .ok (← operation)
  catch e =>
    match e with
    | .noFileOrDirectory .. => return .error (.notFound p)
    | .alreadyExists .. => return .error (.exists_ p)
    | _ =>
      if (← kindOf p) == some .directory then return .error (.isDirectory p)
      else throw e

/-- The names in a directory. -/
def namesIn (p : Path) : IO (List String) := do
  if (← kindOf p) == some .directory then
    return ((← (native p).readDir).map fun e => e.fileName).toList
  else return []

/-- A directory with all directories below it. -/
partial def directoriesBelow (p : Path) : IO (List Path) := do
  if (← kindOf p) == some .directory then
    let inside ← ((← namesIn p).map p.child).mapM directoriesBelow
    return p :: inside.flatten
  else return []

/-- Writes at the end of a file. -/
def appendTo (p : Path) (text : String) : IO Unit := do
  let file ← IO.FS.Handle.mk (native p) .append
  file.putStr text

/-- The local time. -/
def localTime : IO Timestamp := do
  let t ← Std.Time.PlainDateTime.now
  return ⟨t.date.year.toInt.toNat, t.date.month.val.toNat, t.date.day.val.toNat,
    t.time.hour.val.toNat, t.time.minute.val.toNat, t.time.second.val.toNat⟩

/-- Shows a question until a line is understood. -/
partial def askFor (question : String) (understand : String → Option Bool) (complaint : String) :
    IO (Option Bool) := do
  IO.print question
  (← IO.getStdout).flush
  let line ← (← IO.getStdin).getLine
  if line.isEmpty then return none
  else
    match understand line with
    | some answer => return some answer
    | none =>
      IO.print complaint
      askFor question understand complaint

instance : Host Program where
  kind? p := liftM (kindOf p)
  names p := liftM (namesIn p)
  directories p := liftM (directoriesBelow p)
  read p := liftM (attempt p do return .bytes (← IO.FS.readBinFile (native p)).toList)
  write p text := liftM (attempt p (IO.FS.writeFile (native p) text))
  append p text := liftM (attempt p (appendTo p text))
  remove p := liftM (attempt p (IO.FS.removeFile (native p)))
  makeDirectories p := liftM (attempt p (IO.FS.createDirAll (native p)))
  environment := get
  setEnvironment := set
  now := liftM localTime
  print text := liftM (IO.print text)
  printError text := liftM (IO.eprint text)
  ask question understand complaint := liftM (askFor question understand complaint)

/-- The environment of the process. -/
def processEnvironment : IO Environment := do
  let bytes ← try IO.FS.readBinFile "/proc/self/environ" catch _ => return {}
  let text := (Content.bytes bytes.toList).decode.toOption.getD ""
  let bindings := (Text.pieces (Char.ofNat 0) text.toList).filterMap fun v =>
    match v.dropWhile (· != '=') with
    | _ :: value => some (String.ofList (v.takeWhile (· != '=')), String.ofList value)
    | [] => none
  return ⟨bindings⟩

end Program

end Crowsfoot

open Crowsfoot in
def main (args : List String) : IO UInt32 := do
  let environment ← Program.processEnvironment
  let (outcome, _) ← (Command.run args : Program Command.Outcome).run environment
  match outcome with
  | .failed f => IO.eprintln f.message
  | .misused => IO.eprint Command.usage
  | _ => pure ()
  return outcome.exitCode.toUInt32
