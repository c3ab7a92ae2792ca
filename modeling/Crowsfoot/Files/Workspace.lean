import Crowsfoot.Files.Content
import Crowsfoot.Files.Path

/-!
# Workspaces

A working directory with the files and directories in it, as a value. Places are lists of names from
the working directory on; what lies outside does not exist. Two dots lead to the directory above a
directory that is there (`Workspace.place?`).

Every change fails with the `FileError` that a file system gives.
-/

namespace Crowsfoot.Files

open Crowsfoot.Text

/-- Why a file operation fails. -/
inductive FileError where
  | notFound (path : Path)
  | exists_ (path : Path)
  | notDirectory (path : Path)
  | isDirectory (path : Path)
  deriving Repr, DecidableEq

/-- The wording of a file error. -/
def FileError.message : FileError → String
  | .notFound p => "[Errno 2] No such file or directory: " ++ quotedText p.toString
  | .exists_ p => "[Errno 17] File exists: " ++ quotedText p.toString
  | .notDirectory p => "[Errno 20] Not a directory: " ++ quotedText p.toString
  | .isDirectory p => "[Errno 21] Is a directory: " ++ quotedText p.toString

/-- What there is at a path. -/
inductive Kind where
  | file
  | directory
  deriving Repr, DecidableEq

/-- A place inside the working directory. -/
abbrev Place := List String

/-- The files and directories inside the working directory. -/
structure Workspace where
  files : List (Place × Content) := []
  directories : List Place := []
  deriving Repr, Inhabited

namespace Workspace

/-- The content of the file at a place. -/
def file? (w : Workspace) (place : Place) : Option Content :=
  w.files.lookup place

/-- What there is at a place. -/
def kindAt (w : Workspace) (place : Place) : Option Kind :=
  if (w.file? place).isSome then some .file
  else if place.isEmpty || w.directories.contains place then some .directory
  else none

/-- The place that names lead to, from a place on. Every name but the last has to be a directory. -/
def follow (w : Workspace) (place : Place) : List String → Option Place
  | [] => some place
  | name :: rest =>
    if w.kindAt place = some .directory then
      if name = ".." then
        if place.isEmpty then none else w.follow place.dropLast rest
      else w.follow (place ++ [name]) rest
    else none

/-- The place of a path. -/
def place? (w : Workspace) (p : Path) : Option Place :=
  if p.isAbsolute then none else w.follow [] p.parts

/-- What there is at a path. -/
def kind? (w : Workspace) (p : Path) : Option Kind :=
  (w.place? p).bind w.kindAt

/-- Whether a place is directly inside another, and by which name. -/
def nameInside? (dir place : Place) : Option String :=
  match place.getLast? with
  | some name => if place.dropLast = dir then some name else none
  | none => none

/-- The names in the directory at a path; there are none where no directory is. -/
def entries (w : Workspace) (p : Path) : List String :=
  match w.place? p with
  | some dir =>
    if w.kindAt dir = some .directory then
      (w.files.map Prod.fst ++ w.directories).filterMap (nameInside? dir)
    else []
  | none => []

/-- A directory at a path with all directories below it. -/
def directoriesBelow (w : Workspace) (p : Path) : List Path :=
  match w.place? p with
  | some dir =>
    if w.kindAt dir = some .directory then
      p :: w.directories.filterMap fun d =>
        if d.length > dir.length && dir.isPrefixOf d then
          some { p with parts := p.parts ++ d.drop dir.length }
        else none
    else []
  | none => []

/-- Why nothing can be at a path: a name on the way is a file, or missing. -/
def missing (w : Workspace) (p : Path) : FileError :=
  if p.above.any fun q => w.kind? q == some .file then .notDirectory p
  else .notFound p

/-- The content of the file at a path. -/
def read (w : Workspace) (p : Path) : Except FileError Content :=
  match w.place? p with
  | some place =>
    match w.file? place, w.kindAt place with
    | some content, _ => .ok content
    | none, some _ => .error (.isDirectory p)
    | none, none => .error (w.missing p)
  | none => .error (w.missing p)

/-- The workspace with a content at a place. -/
def put (w : Workspace) (place : Place) (content : Content) : Workspace :=
  { w with
    files :=
      if (w.file? place).isSome then
        w.files.map fun f => if f.1 = place then (place, content) else f
      else w.files ++ [(place, content)] }

/-- The place where a file can be written, with what it holds up to now. -/
def target (w : Workspace) (p : Path) : Except FileError (Place × Option Content) :=
  match w.place? p with
  | some place =>
    match w.kindAt place with
    | some .directory => .error (.isDirectory p)
    | some .file => .ok (place, w.file? place)
    | none =>
      if w.kindAt place.dropLast = some .directory then .ok (place, none)
      else .error (w.missing p)
  | none => .error (w.missing p)

/-- Writes a file. -/
def write (w : Workspace) (p : Path) (text : String) : Except FileError Workspace := do
  let (place, _) ← w.target p
  return w.put place (.text text)

/-- Writes at the end of a file. -/
def append (w : Workspace) (p : Path) (text : String) : Except FileError Workspace := do
  let (place, content) ← w.target p
  return w.put place ((content.getD (.text "")).append text)

/-- Removes a file. -/
def remove (w : Workspace) (p : Path) : Except FileError Workspace :=
  match w.place? p with
  | some place =>
    match w.kindAt place with
    | some .file => .ok { w with files := w.files.filter fun f => f.1 != place }
    | some .directory => .error (.isDirectory p)
    | none => .error (w.missing p)
  | none => .error (w.missing p)

/-- Makes one directory, unless it is there. -/
def makeDirectory (w : Workspace) (p : Path) : Except FileError Workspace :=
  match w.kind? p, w.place? p with
  | some .directory, _ => .ok w
  | some .file, _ => .error (.exists_ p)
  | none, some place =>
    if w.kindAt place.dropLast = some .directory then
      .ok { w with directories := w.directories ++ [place] }
    else .error (w.missing p)
  | none, none => .error (w.missing p)

/-- Makes a directory with all directories above it. -/
def makeDirectories (w : Workspace) (p : Path) : Except FileError Workspace :=
  go w p.parts.length
where
  /-- Makes the directory that a number of leading names lead to. -/
  go (w : Workspace) : Nat → Except FileError Workspace
    | 0 => .ok w
    | k + 1 =>
      let here : Path := { p with parts := p.parts.take (k + 1) }
      match w.makeDirectory here with
      | .error (.notFound _) => do (← go w k).makeDirectory here
      | result => result

/-- A workspace with the given files, the directories they are in, and further directories. -/
def ofFiles (files : List (Path × Content)) (directories : List Path) : Workspace :=
  let made := files.flatMap (fun f => f.1.above) ++ directories.flatMap fun p => p.above ++ [p]
  { files := files.map fun f => (f.1.parts, f.2)
    directories := ((made.map Path.parts).filter fun d => !d.isEmpty).eraseDups }

/-- The files whose content differs from that in an earlier workspace: their new content, or none
where they were removed. -/
def changesSince (before after : Workspace) : List (Place × Option Content) :=
  (after.files.filterMap fun f =>
    if (before.file? f.1).map Content.toBytes = some f.2.toBytes then none
    else some (f.1, some f.2))
    ++ before.files.filterMap fun f =>
      if (after.file? f.1).isNone then some (f.1, none) else none

end Workspace

end Crowsfoot.Files
