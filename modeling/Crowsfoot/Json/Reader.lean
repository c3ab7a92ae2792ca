import Crowsfoot.Json.Token

/-!
# Reading JSON

`Json.parse?` reads a text that is one value. The tokens drive a machine whose states say what may
come next; the containers that are still open wait on a stack of frames.
-/

namespace Crowsfoot.Json

/-- An open container: what it holds up to here, backwards. -/
inductive Frame where
  | items (before : List Json)
  /-- An object with the name of the member that is being read. -/
  | fields (before : List (String × Json)) (name : String)
  deriving Repr, Inhabited

/-- What may come next. -/
inductive Parsing where
  /-- A value. -/
  | value (open_ : List Frame)
  /-- The first item of an array, or its end. -/
  | firstItem (open_ : List Frame)
  /-- The first name of an object, or its end. -/
  | firstName (open_ : List Frame)
  /-- A further name of an object. -/
  | nextName (before : List (String × Json)) (open_ : List Frame)
  | colon (before : List (String × Json)) (name : String) (open_ : List Frame)
  /-- After a value: the continuation of the container it stands in, or the end. -/
  | after (v : Json) (open_ : List Frame)
  deriving Repr, Inhabited

/-- The state after the first token of a value. -/
def Parsing.begin (open_ : List Frame) : Token → Option Parsing
  | .beginArray => some (.firstItem open_)
  | .beginObject => some (.firstName open_)
  | .str s => some (.after (.str s) open_)
  | .scalar v => some (.after v open_)
  | _ => none

/-- The state after a token. -/
def Parsing.step : Parsing → Token → Option Parsing
  | .value open_, t => Parsing.begin open_ t
  | .firstItem open_, .endArray => some (.after (.arr []) open_)
  | .firstItem open_, t => Parsing.begin (.items [] :: open_) t
  | .firstName open_, .endObject => some (.after (.obj []) open_)
  | .firstName open_, .str name => some (.colon [] name open_)
  | .nextName before open_, .str name => some (.colon before name open_)
  | .colon before name open_, .colon => some (.value (.fields before name :: open_))
  | .after v (.items before :: open_), .comma => some (.value (.items (v :: before) :: open_))
  | .after v (.items before :: open_), .endArray =>
    some (.after (.arr (v :: before).reverse) open_)
  | .after v (.fields before name :: open_), .comma =>
    some (.nextName ((name, v) :: before) open_)
  | .after v (.fields before name :: open_), .endObject =>
    some (.after (.obj ((name, v) :: before).reverse) open_)
  | _, _ => none

/-- The value, where a value is complete and no container is open. -/
def Parsing.result? : Parsing → Option Json
  | .after v [] => some v
  | _ => none

/-- The value that tokens make up. -/
def ofTokens? (tokens : List Token) : Option Json := do
  (← tokens.foldlM Parsing.step (.value [])).result?

/-- Reads a text that is one value. -/
def parse? (text : String) : Option Json := do
  ofTokens? (← tokens? text.toList)

end Crowsfoot.Json
