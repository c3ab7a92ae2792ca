/-!
# JSON values

The data model of JSON. Integers are kept apart from other numbers, which keep their decimal form.
Members of an object keep their order; where a name occurs twice, the last member counts
(`Json.member?`).
-/

namespace Crowsfoot

/-- A JSON value. -/
inductive Json where
  | null
  | bool (b : Bool)
  | int (n : Int)
  /-- The number `mantissa · 10 ^ exponent`, written with a point or an exponent. -/
  | decimal (mantissa exponent : Int)
  /-- A number past all others, or no number at all. -/
  | notFinite
  | str (s : String)
  | arr (items : List Json)
  | obj (members : List (String × Json))
  deriving Repr, Inhabited

namespace Json

/-- The value of a member of an object; the last one of its name counts. -/
def member? (members : List (String × Json)) (name : String) : Option Json :=
  members.reverse.lookup name

/-- The value of a member, if the value is an object that has it. -/
def get? : Json → String → Option Json
  | obj members, name => member? members name
  | _, _ => none

/-- A list of strings. -/
def strs (ss : List String) : Json :=
  arr (ss.map str)

/-- A string or null. -/
def str? : Option String → Json
  | some s => str s
  | none => null

/-- An integer or null. -/
def int? : Option Int → Json
  | some n => int n
  | none => null

end Json

end Crowsfoot
