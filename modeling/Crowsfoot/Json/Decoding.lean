import Crowsfoot.Json.Double
import Crowsfoot.Json.Value
import Crowsfoot.Text.Basic
import Crowsfoot.Text.Integer

/-!
# Decoding JSON

Turning JSON values into typed ones. Decoding is lenient towards spellings: integers may be written
as integral decimals, truth values or numerals, and truth values as one of a few words. It is strict
in all else, and it lists every fault at once: a `Fault` is its kind and the path to the place.
`Decoded` combines independent parts, keeping the faults of both.
-/

namespace Crowsfoot.Json

open Crowsfoot.Text

/-- One step of the way into a value. -/
inductive Step where
  | key (name : String)
  | index (k : Nat)
  deriving Repr, DecidableEq

/-- What is wrong with a value. -/
inductive FaultKind where
  | missing
  | notString
  | notInteger
  | badInteger
  | fractional
  /-- A decimal that is no number a machine word can hold. -/
  | tooLarge
  /-- No finite number. -/
  | notFinite
  | notBool
  | badBool
  | notList
  | notTuple
  | notLiteral
  | notModel
  | noTag
  | badTag
  /-- A tagged value in a file is no object. -/
  | notObject
  /-- A tagged value given directly is no object. -/
  | noAttributes
  | invalidJson
  deriving Repr, DecidableEq

/-- The name of a kind of fault. -/
def FaultKind.name : FaultKind → String
  | .missing => "missing"
  | .notString => "string_type"
  | .notInteger => "int_type"
  | .badInteger => "int_parsing"
  | .fractional => "int_from_float"
  | .tooLarge => "int_parsing_size"
  | .notFinite => "finite_number"
  | .notBool => "bool_type"
  | .badBool => "bool_parsing"
  | .notList => "list_type"
  | .notTuple => "tuple_type"
  | .notLiteral => "literal_error"
  | .notModel => "model_type"
  | .noTag => "union_tag_not_found"
  | .badTag => "union_tag_invalid"
  | .notObject => "dict_type"
  | .noAttributes => "model_attributes_type"
  | .invalidJson => "json_invalid"

/-- A fault of a value and the path to it. -/
structure Fault where
  kind : FaultKind
  path : List Step := []
  deriving Repr, DecidableEq

/-- A decoded value, or all faults. -/
inductive Decoded (α : Type) where
  | ok (a : α)
  | faulty (faults : List Fault)
  deriving Repr

namespace Decoded

/-- A single fault. -/
def fault (kind : FaultKind) : Decoded α :=
  faulty [⟨kind, []⟩]

/-- Applies a function to the decoded value. -/
def map (f : α → β) : Decoded α → Decoded β
  | ok a => ok (f a)
  | faulty faults => faulty faults

/-- Applies a decoded function to a decoded value, with the faults of both. -/
def ap : Decoded (α → β) → Decoded α → Decoded β
  | ok f, ok a => ok (f a)
  | ok _, faulty faults => faulty faults
  | faulty faults, ok _ => faulty faults
  | faulty faults, faulty more => faulty (faults ++ more)

/-- The faults lie one step further in. -/
def within (step : Step) : Decoded α → Decoded α
  | ok a => ok a
  | faulty faults => faulty (faults.map fun f => { f with path := step :: f.path })

/-- The result, with the faults as error. -/
def toExcept : Decoded α → Except (List Fault) α
  | ok a => .ok a
  | faulty faults => .error faults

end Decoded

/-! ## Scalars -/

/-- A string. -/
def toStr : Json → Decoded String
  | .str s => .ok s
  | _ => .fault .notString

/-- White space around numerals. -/
def isNumeralBlank (c : Char) : Bool :=
  isBlank c && !(decide (28 ≤ c.toNat) && decide (c.toNat ≤ 31))

/-- The digits of a numeral without the underscores that part them. -/
def groupedDigits? : List Char → Option (List Char)
  | [] => none
  | [c] => if c.isDigit then some [c] else none
  | c :: '_' :: rest => if c.isDigit then (groupedDigits? rest).map (c :: ·) else none
  | c :: rest => if c.isDigit then (groupedDigits? rest).map (c :: ·) else none

/-- The integer that a numeral stands for: a sign, digits that may be parted by underscores, and
zeros after a point. -/
def numeral? (s : String) : Option Int := do
  let cs := strip isNumeralBlank s.toList
  let (negative, cs) :=
    match cs with
    | '-' :: rest => (true, rest)
    | '+' :: rest => (false, rest)
    | rest => (false, rest)
  let fraction := cs.dropWhile (· != '.')
  if fraction.tail.all (· == '0') then
    let ds ← groupedDigits? (cs.takeWhile (· != '.'))
    let n ← readNatural? ds
    return if negative then -(n : Int) else n
  else none

/-- Whether an integer fits a machine word. -/
def isSmall (n : Int) : Bool :=
  decide (-9223372036854775808 ≤ n ∧ n ≤ 9223372036854775807)

/-- The integer that a decimal is: an integral one that fits a machine word. -/
def integral (mantissa exponent : Int) : Decoded Int :=
  match Double.nearest mantissa.natAbs exponent with
  | .infinite => .fault .notFinite
  | d =>
    match d.integer? with
    | none => .fault .fractional
    | some magnitude =>
      let n : Int := if mantissa < 0 then -(magnitude : Int) else magnitude
      if isSmall n then .ok n else .fault .tooLarge

/-- An integer. -/
def toInt : Json → Decoded Int
  | .int n => .ok n
  | .bool b => .ok (if b then 1 else 0)
  | .decimal mantissa exponent => integral mantissa exponent
  | .notFinite => .fault .notFinite
  | .str s =>
    match numeral? s with
    | some n => .ok n
    | none => .fault .badInteger
  | _ => .fault .notInteger

/-- The truth value that a word stands for, in any case. -/
def truthWord? (s : String) : Option Bool :=
  let word := s.map Char.toLower
  if ["1", "t", "true", "y", "yes", "on"].contains word then some true
  else if ["0", "f", "false", "n", "no", "off"].contains word then some false
  else none

/-- The truth value of an integer: one and zero have one, and numbers out of range are none at
all. -/
def truthOfInt (n : Int) : Decoded Bool :=
  if n = 0 then .ok false
  else if n = 1 then .ok true
  else if isSmall n then .fault .badBool
  else .fault .notBool

/-- A truth value. -/
def toBool : Json → Decoded Bool
  | .bool b => .ok b
  | .str s =>
    match truthWord? s with
    | some b => .ok b
    | none => .fault .badBool
  | .int n => truthOfInt n
  | .decimal mantissa exponent =>
    match integral mantissa exponent with
    | .ok n => truthOfInt n
    | .faulty _ => .fault .notBool
  | _ => .fault .notBool

/-! ## Lists and members -/

/-- The decoded items, each with its faults at its index. -/
def toItems (decode : Json → Decoded α) (k : Nat) : List Json → Decoded (List α)
  | [] => .ok []
  | v :: rest =>
    (((decode v).within (.index k)).map List.cons).ap (toItems decode (k + 1) rest)

/-- A list. -/
def toList (decode : Json → Decoded α) : Json → Decoded (List α)
  | .arr items => toItems decode 0 items
  | _ => .fault .notList

/-- A list of fixed items. -/
def toTuple (decode : Json → Decoded α) : Json → Decoded (List α)
  | .arr items => toItems decode 0 items
  | _ => .fault .notTuple

/-- A value or null. -/
def toOption (decode : Json → Decoded α) : Json → Decoded (Option α)
  | .null => .ok none
  | v => (decode v).map some

/-- A member that has to be there. -/
def required (members : List (String × Json)) (name : String) (decode : Json → Decoded α) :
    Decoded α :=
  match member? members name with
  | some v => (decode v).within (.key name)
  | none => (Decoded.fault .missing).within (.key name)

/-- A member with a default. -/
def defaulted (members : List (String × Json)) (name : String) (default : α)
    (decode : Json → Decoded α) : Decoded α :=
  match member? members name with
  | some v => (decode v).within (.key name)
  | none => .ok default

end Crowsfoot.Json
