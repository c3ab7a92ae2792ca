import Crowsfoot.Migration.CreatedTable

/-!
# Migration files

A migration file creates the tables of its `Schema::create('name', …)` calls. `creations` finds the
name and the body of each; `readMigration` reads the tables of one file and `readMigrations` those
of several, in order.
-/

namespace Crowsfoot.Migration

open Crowsfoot.Builder Crowsfoot.Text

/-- A call that creates a table: its name, and the body of the closure that describes it. -/
structure Creation where
  name : String
  body : String
  deriving Repr, DecidableEq

/-- The word that begins a creation. -/
def creationWord : String := "Schema::create("

/-- The table name of a creation that begins here, and what follows its comma. The quotes around
the name need not be the same. -/
def creationHead? (cs : List Char) : Option (List Char × List Char) := do
  let inside ← after? creationWord.toList cs
  match inside.dropWhile isBlank with
  | quote :: named =>
    let name := named.takeWhile isWord
    if !isQuote quote || name.isEmpty then none
    else
      match named.dropWhile isWord with
      | unquote :: rest =>
        if !isQuote unquote then none
        else
          match rest.dropWhile isBlank with
          | ',' :: rest => some (name, rest)
          | _ => none
      | [] => none
  | [] => none

/-- The inside of the first braces of a text; braces that are never closed run to its end. -/
def firstBraces? (cs : List Char) : Option (List Char) :=
  match cs.dropWhile (· != '\x7b') with
  | _ :: rest =>
    some (match group '\x7d' rest with
      | some (inside, _) => inside
      | none => rest)
  | [] => none

/-- The creation that begins here. -/
def creation? (cs : List Char) : Option Creation := do
  let (name, rest) ← creationHead? cs
  let body ← firstBraces? rest
  return ⟨String.ofList name, String.ofList body⟩

/-- The creations in a text. -/
def creationsIn : List Char → List Creation
  | [] => []
  | c :: rest => (creation? (c :: rest)).toList ++ creationsIn rest

/-- The creations in a source without comments. -/
def creations (source : String) : List Creation :=
  creationsIn source.toList

/-- The tables that one migration creates. -/
def readMigration (content : String) (source : Option String) :
    Except ReadError (List CreatedTable) :=
  (creationsIn (withoutComments content.toList)).mapM fun c =>
    CreatedTable.ofBody c.name c.body source

/-- Each content with the label at its position, if there is one. -/
def labelled (contents sources : List String) : List (String × Option String) :=
  contents.zip ((sources.map some) ++ List.replicate contents.length none)

/-- The tables that several migrations create, in order. -/
def readMigrations (contents sources : List String) : Except ReadError (List CreatedTable) := do
  let tables ← (labelled contents sources).mapM fun (content, source) =>
    readMigration content source
  return tables.flatten

/-! ## Diagnostics -/

/-- The diagnostics of steps that are taken until one fails. -/
def untilError (steps : List (α × Bool)) (report : α → Diagnostics) : Diagnostics :=
  match steps with
  | [] => []
  | (a, true) :: rest => report a ++ untilError rest report
  | (a, false) :: _ => report a

/-- What reading one migration reports. -/
def diagnosticsOfMigration (content : String) (source : Option String) : Diagnostics :=
  let found := creationsIn (withoutComments content.toList)
  if found.isEmpty then
    [⟨.debug, .readingMigrations,
      "No Schema::create block in "
        ++ ((nonEmpty? source).getD "migration")⟩]
  else
    untilError
      (found.map fun c => (c, (CreatedTable.ofBody c.name c.body source).toBool))
      fun c => CreatedTable.diagnosticsOfBody c.name c.body

/-- The report of a table that was read. -/
def CreatedTable.readReport (t : CreatedTable) : Diagnostic :=
  ⟨.info, .readingMigrations,
    "Parsed table '" ++ t.name ++ "' (" ++ toString t.columns.length ++ " columns)"⟩

/-- What reading several migrations reports. -/
def diagnosticsOfMigrations (contents sources : List String) : Diagnostics :=
  let files := (labelled contents sources).map fun (content, source) =>
    let read := readMigration content source
    ((content, source, read), read.toBool)
  untilError files fun (content, source, read) =>
    diagnosticsOfMigration content source
      ++ match read with
        | .ok tables => tables.map CreatedTable.readReport
        | .error _ => []

end Crowsfoot.Migration
