import Crowsfoot.Json.Value
import Crowsfoot.Text.Quoted

/-!
# Writing JSON

`compact` writes a value on one line, `pretty` over several: two blanks for each level, an empty
container on the line where it begins. Characters beyond ASCII stay as they are.
-/

namespace Crowsfoot.Json

open Crowsfoot.Text

/-- A character of a string. -/
def writeChar (c : Char) : List Char :=
  if c = '"' || c = '\\' then ['\\', c]
  else if c = '\n' then ['\\', 'n']
  else if c = '\r' then ['\\', 'r']
  else if c = '\t' then ['\\', 't']
  else if c.toNat = 8 then ['\\', 'b']
  else if c.toNat = 12 then ['\\', 'f']
  else if c.toNat < 0x20 then '\\' :: 'u' :: hexDigits 4 c.toNat
  else [c]

/-- A string in quotes. -/
def writeString (s : String) : String :=
  String.ofList ('"' :: s.toList.flatMap writeChar ++ ['"'])

/-- A value that holds no others. -/
def writeScalar : Json → String
  | null => "null"
  | bool b => if b then "true" else "false"
  | int n => toString n
  | decimal mantissa exponent => toString mantissa ++ "e" ++ toString exponent
  | notFinite => "NaN"
  | str s => writeString s
  | arr _ => "[]"
  | obj _ => "\x7b\x7d"

mutual
/-- A value on one line. -/
def compact : Json → String
  | arr items => "[" ++ ",".intercalate (compactItems items) ++ "]"
  | obj members => "\x7b" ++ ",".intercalate (compactMembers members) ++ "\x7d"
  | v => writeScalar v

/-- The items of an array on one line. -/
def compactItems : List Json → List String
  | [] => []
  | v :: rest => compact v :: compactItems rest

/-- The members of an object on one line. -/
def compactMembers : List (String × Json) → List String
  | [] => []
  | (name, v) :: rest => (writeString name ++ ":" ++ compact v) :: compactMembers rest
end

/-- The blanks before a line of a level. -/
def indentation (level : Nat) : String :=
  String.ofList (List.replicate (2 * level) ' ')

/-- A container over several lines; `level` is that of the line it begins on. -/
def writeBlock (level : Nat) (opening closing : String) (lines : List String) : String :=
  if lines.isEmpty then opening ++ closing
  else
    opening ++ "\n"
      ++ ",\n".intercalate (lines.map fun line => indentation (level + 1) ++ line)
      ++ "\n" ++ indentation level ++ closing

mutual
/-- A value over several lines; `level` is that of the line it begins on. -/
def prettyAt (level : Nat) : Json → String
  | arr items => writeBlock level "[" "]" (prettyItems (level + 1) items)
  | obj members => writeBlock level "\x7b" "\x7d" (prettyMembers (level + 1) members)
  | v => writeScalar v

/-- The items of an array on a level. -/
def prettyItems (level : Nat) : List Json → List String
  | [] => []
  | v :: rest => prettyAt level v :: prettyItems level rest

/-- The members of an object on a level. -/
def prettyMembers (level : Nat) : List (String × Json) → List String
  | [] => []
  | (name, v) :: rest =>
    (writeString name ++ ": " ++ prettyAt level v) :: prettyMembers level rest
end

/-- A value over several lines. -/
def pretty (v : Json) : String :=
  prettyAt 0 v

end Crowsfoot.Json
