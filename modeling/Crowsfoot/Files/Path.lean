import Crowsfoot.Text.Basic
import Crowsfoot.Text.Quoted

/-!
# Paths

A path is the list of names it goes through, from the root or from the working directory. Reading a
path drops empty names and single dots; two dots stay, since what they mean depends on the
directories that are there.
-/

namespace Crowsfoot.Files

open Crowsfoot.Text

/-- The names a path goes through. -/
structure Path where
  isAbsolute : Bool := false
  parts : List String := []
  deriving Repr, DecidableEq, Inhabited

namespace Path

/-- Reads a path. -/
def ofString (s : String) : Path :=
  { isAbsolute := s.toList.head? == some '/'
    parts := ((pieces '/' s.toList).map String.ofList).filter fun p => p != "" && p != "." }

/-- Writes a path; the working directory is a dot. -/
def toString (p : Path) : String :=
  let names := "/".intercalate p.parts
  if p.isAbsolute then "/" ++ names else if names.isEmpty then "." else names

/-- A path as seen from a directory. -/
def join (dir p : Path) : Path :=
  if p.isAbsolute then p else { dir with parts := dir.parts ++ p.parts }

/-- An entry of a directory. -/
def child (dir : Path) (name : String) : Path :=
  { dir with parts := dir.parts ++ [name] }

/-- The directory that a path is in. -/
def parent (p : Path) : Path :=
  { p with parts := p.parts.dropLast }

/-- The paths that lead to a path, from the shortest on. -/
def above (p : Path) : List Path :=
  (List.range p.parts.length).map fun k => { p with parts := p.parts.take k }

/-- The last name of a path; the root and the working directory have none. -/
def name (p : Path) : String :=
  p.parts.getLastD ""

/-- Whether a path is a single name. -/
def isSingle (p : Path) : Bool :=
  if p.isAbsolute then p.parts.isEmpty else p.parts.length == 1

/-- The part of a name from its last dot on, where something stands before and after the dot. -/
def suffix (p : Path) : String :=
  let backwards := p.name.toList.reverse
  let tail := (backwards.takeWhile (· != '.')).reverse
  let before := (backwards.dropWhile (· != '.')).tail
  if tail.isEmpty || before.isEmpty then "" else String.ofList ('.' :: tail)

/-- The path with another last name, if it has one. -/
def withName? (p : Path) (name : String) : Option Path :=
  if p.parts.isEmpty then none else some (p.parent.child name)

/-- Whether names go before others, name by name in code point order. -/
def namesLe : List String → List String → Bool
  | [], _ => true
  | _ :: _, [] => false
  | a :: as, b :: bs => if a = b then namesLe as bs else Text.le a b

/-- Whether a path goes before another. -/
def le (a b : Path) : Bool :=
  namesLe a.parts b.parts

end Path

end Crowsfoot.Files
