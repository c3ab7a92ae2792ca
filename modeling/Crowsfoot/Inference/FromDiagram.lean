import Crowsfoot.Diagram.Document
import Crowsfoot.Inference.Pivot

/-!
# Schemas from diagrams

Diagrams draw relationships; `inferFromDiagram` gives the tables what the lines ask for. A line from
a parent to its children puts the foreign key on the child. A many-to-many line needs a pivot: a
table drawn under its name is adopted, otherwise one is made up, once, and goes after all domain
tables. A line whose ends are not both declared leaves unresolved references.

The lines act one after another on an `Augmentation`; `Augmentation.log` is only written.
-/

namespace Crowsfoot.Inference

open Crowsfoot.Diagram (Document)

/-- The drawn tables with what the relationships up to now have given them. -/
structure Augmentation where
  /-- The drawn tables. -/
  tables : List Table
  /-- The pivots that were made up. -/
  pivots : List Table := []
  relationships : List Relationship := []
  unresolved : List Unresolved := []
  log : Diagnostics := []
  deriving Repr, DecidableEq, Inhabited

namespace Augmentation

/-- Whether a name refers to a drawn table. -/
def declares (a : Augmentation) (name : String) : Bool :=
  (findTable? a.tables name).isSome

/-- The unresolved reference to an undeclared entity. -/
def undeclared (name : String) : Unresolved :=
  { table := Naming.tableName name, column := "", references := name }

/-- The report of an undeclared entity. -/
def undeclaredReport (name : String) : Diagnostic :=
  ⟨.warning, .inferring, "Relationship references undeclared entity '" ++ name ++ "'"⟩

/-- Records which of two names is not declared. -/
def recordMissing (a : Augmentation) (first second : String) : Augmentation :=
  let missing := [first, second].filter fun name => !a.declares name
  { a with
    unresolved := a.unresolved ++ missing.map undeclared
    log := a.log ++ missing.map undeclaredReport }

/-- Puts the foreign key to a parent on the child. -/
def link (a : Augmentation) (parent child : String) : Augmentation :=
  { a with
    tables :=
      modifyFirst (Table.hasNameIn (lookupNames child)) (·.ensureKey parent) a.tables }

/-- Provides the pivot of two entities. -/
def join (a : Augmentation) (first second : String) (custom : Option String) : Augmentation :=
  let pivot := synthesizePivot first second custom
  match findDrawnPivot? a.tables pivot.name with
  | some drawn =>
    { a with
      tables := modifyFirst (·.name == pivot.name) (·.adopt first second) a.tables
      log := a.log ++ drawn.adoptReport }
  | none =>
    if a.pivots.any fun p => p.name == pivot.name then
      { a with
        log := a.log ++ [⟨.debug, .inferring,
          "Pivot table '" ++ pivot.name ++ "' already present, skipping"⟩] }
    else { a with pivots := a.pivots ++ [pivot] }

/-- Keeps a relationship. -/
def keep (a : Augmentation) (r : Relationship) : Augmentation :=
  { a with relationships := a.relationships ++ [r] }

/-- Acts on a relationship line. -/
def add (a : Augmentation) (r : Relationship) : Augmentation :=
  match r with
  | .manyToMany first second custom =>
    if a.declares first && a.declares second then
      (a.join first second custom).keep
        (.manyToMany first second (some (pivotName first second custom)))
    else a.recordMissing first second
  | .oneToOne parent child | .oneToMany parent child =>
    if a.declares child && a.declares parent then (a.link parent child).keep r
    else a.recordMissing parent child

/-- The schema of the tables and relationships. -/
def schema (a : Augmentation) : Schema :=
  { tables := Table.order (a.tables ++ a.pivots)
    relationships := a.relationships
    unresolved := a.unresolved }

end Augmentation

/-- What all relationship lines of a document ask for. -/
def augment (d : Document) : Augmentation :=
  d.relationships.foldl Augmentation.add { tables := d.tables }

/-- The schema of a diagram. -/
def inferFromDiagram (d : Document) : Schema :=
  (augment d).schema

/-- What the inference reports. -/
def diagnosticsOfDiagram (d : Document) : Diagnostics :=
  (augment d).log

end Crowsfoot.Inference
