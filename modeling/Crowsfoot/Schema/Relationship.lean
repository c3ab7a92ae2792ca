import Crowsfoot.Text.Basic

/-!
# Relationships

How the entities of a schema relate. `Relationship.key` identifies a relationship among those of its
kind; a many-to-many relationship has the same key in either direction.
-/

namespace Crowsfoot

/-- A relationship between entities, by their names. -/
inductive Relationship where
  /-- The child holds a unique foreign key to its parent. -/
  | oneToOne (parent child : String)
  /-- Each child holds a foreign key to its parent. -/
  | oneToMany (parent child : String)
  /-- Two entities are joined by a pivot table, once its name is known. -/
  | manyToMany (first second : String) (pivot : Option String)
  deriving Repr, DecidableEq, Inhabited

/-- The kind of a relationship. -/
inductive Relationship.Kind where
  | oneToOne
  | oneToMany
  | manyToMany
  deriving Repr, DecidableEq, Inhabited

namespace Relationship

/-- Every kind once, in the order diagrams list them. -/
def Kind.all : List Kind :=
  [.oneToOne, .oneToMany, .manyToMany]

/-- The name of a kind in schema files. -/
def Kind.name : Kind → String
  | .oneToOne => "one_to_one"
  | .oneToMany => "one_to_many"
  | .manyToMany => "many_to_many"

/-- The kind of a relationship. -/
def kind : Relationship → Kind
  | .oneToOne .. => .oneToOne
  | .oneToMany .. => .oneToMany
  | .manyToMany .. => .manyToMany

/-- What identifies a relationship within its kind. -/
def key : Relationship → String
  | .oneToOne parent child => parent ++ "-" ++ child
  | .oneToMany parent child => parent ++ "-" ++ child
  | .manyToMany first second _ => "-".intercalate (Text.sorted [first, second])

/-- The relationships without those whose kind and key an earlier one has. -/
def firstOfEachKey (rs : List Relationship) : List Relationship :=
  (rs.foldl (fun kept r =>
    if kept.any fun k => k.kind == r.kind && k.key == r.key then kept else r :: kept) []).reverse

/-- The relationships of one kind, the first for each key. -/
def ofKind (kind : Kind) (rs : List Relationship) : List Relationship :=
  (firstOfEachKey rs).filter fun r => r.kind == kind

end Relationship

end Crowsfoot
