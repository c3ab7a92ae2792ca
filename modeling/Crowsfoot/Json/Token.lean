import Crowsfoot.Json.Value
import Crowsfoot.Text.Integer

/-!
# JSON tokens

`tokens?` cuts a text into tokens, one character at a time: a position is between tokens, in a word
(a number or one of the three literals) or in a string (`Lexing`). Reading is strict: there are no
leading zeros, strings hold no control characters, and a surrogate escape is one of a pair.
-/

namespace Crowsfoot.Json

open Crowsfoot.Text

/-- A token of a JSON text. -/
inductive Token where
  | beginArray
  | endArray
  | beginObject
  | endObject
  | colon
  | comma
  | str (s : String)
  /-- A number or a literal. -/
  | scalar (v : Json)
  deriving Repr, Inhabited

/-! ## Numbers and literals -/

/-- The leading ASCII digits of a text and what follows them. -/
def digits (cs : List Char) : List Char × List Char :=
  (cs.takeWhile Char.isDigit, cs.dropWhile Char.isDigit)

/-- The value of ASCII digits. -/
def digitsValue (cs : List Char) : Nat :=
  cs.foldl (fun n c => n * 10 + (c.toNat - '0'.toNat)) 0

/-- The digits after a point, if there is one. -/
def fraction? : List Char → Option (List Char × List Char)
  | '.' :: rest =>
    let (ds, rest) := digits rest
    if ds.isEmpty then none else some (ds, rest)
  | rest => some ([], rest)

/-- The exponent at the end of a number, if there is one. -/
def exponent? : List Char → Option Int
  | [] => some 0
  | c :: rest =>
    if c != 'e' && c != 'E' then none
    else
      let (negative, rest) :=
        match rest with
        | '-' :: rest => (true, rest)
        | '+' :: rest => (false, rest)
        | rest => (false, rest)
      let (ds, rest) := digits rest
      if ds.isEmpty || !rest.isEmpty then none
      else some (if negative then -(digitsValue ds : Int) else digitsValue ds)

/-- A number without its sign, given whether there was one. -/
def unsignedNumber? (negative : Bool) (cs : List Char) : Option Json := do
  let sign (n : Nat) : Int := if negative then -(n : Int) else n
  let (whole, rest) := digits cs
  if whole.isEmpty || (whole.head? == some '0' && whole.length != 1) then none
  else if rest.isEmpty then some (.int (sign (digitsValue whole)))
  else
    let (fraction, rest) ← fraction? rest
    let exponent ← exponent? rest
    some (.decimal (sign (digitsValue (whole ++ fraction))) (exponent - fraction.length))

/-- The value that a word stands for. -/
def word? (cs : List Char) : Option Json :=
  match String.ofList cs with
  | "null" => some .null
  | "true" => some (.bool true)
  | "false" => some (.bool false)
  | "NaN" | "Infinity" | "-Infinity" => some .notFinite
  | _ =>
    match cs with
    | '-' :: rest => unsignedNumber? true rest
    | cs => unsignedNumber? false cs

/-! ## Strings -/

/-- The character that a short escape stands for. -/
def shortEscape? : Char → Option Char
  | '"' => some '"'
  | '\\' => some '\\'
  | '/' => some '/'
  | 'b' => some (Char.ofNat 8)
  | 'f' => some (Char.ofNat 12)
  | 'n' => some '\n'
  | 'r' => some '\r'
  | 't' => some '\t'
  | _ => none

/-- The value of a hexadecimal digit. -/
def hexValue? (c : Char) : Option Nat :=
  if c.isDigit then some (c.toNat - '0'.toNat)
  else if 'a' ≤ c ∧ c ≤ 'f' then some (c.toNat - 'a'.toNat + 10)
  else if 'A' ≤ c ∧ c ≤ 'F' then some (c.toNat - 'A'.toNat + 10)
  else none

/-- Whether a code unit is the first of a surrogate pair. -/
def isHighSurrogate (n : Nat) : Bool :=
  decide (0xD800 ≤ n ∧ n < 0xDC00)

/-- Whether a code unit is the second of a surrogate pair. -/
def isLowSurrogate (n : Nat) : Bool :=
  decide (0xDC00 ≤ n ∧ n < 0xE000)

/-- The character of a surrogate pair. -/
def ofSurrogates (high low : Nat) : Char :=
  Char.ofNat (0x10000 + (high - 0xD800) * 0x400 + (low - 0xDC00))

/-! ## The scanner -/

/-- Where a position of a text is. Texts read so far are kept backwards. -/
inductive Lexing where
  | between
  | word (read : List Char)
  | string (read : List Char)
  /-- After a backslash. -/
  | escape (read : List Char)
  /-- Among the four digits of a code unit, after the first unit of a pair if there was one. -/
  | unit (read : List Char) (high : Option Nat) (digits value : Nat)
  /-- After the first unit of a pair; the next character is a backslash. -/
  | pair (read : List Char) (high : Nat)
  /-- After the first unit of a pair and a backslash; the next character is `u`. -/
  | pairEscape (read : List Char) (high : Nat)
  deriving Repr, DecidableEq

/-- The token of a punctuation character. -/
def punctuation? : Char → Option Token
  | '[' => some .beginArray
  | ']' => some .endArray
  | '\x7b' => some .beginObject
  | '\x7d' => some .endObject
  | ':' => some .colon
  | ',' => some .comma
  | _ => none

/-- The blanks of JSON. -/
def isJsonBlank (c : Char) : Bool :=
  c == ' ' || c == '\t' || c == '\n' || c == '\r'

/-- The state after a complete code unit of an escape. -/
def afterUnit (read : List Char) (high : Option Nat) (unit : Nat) : Option Lexing :=
  match high with
  | some h => if isLowSurrogate unit then some (.string (ofSurrogates h unit :: read)) else none
  | none =>
    if isHighSurrogate unit then some (.pair read unit)
    else if isLowSurrogate unit then none
    else some (.string (Char.ofNat unit :: read))

/-- What a character between tokens does: the token it is, if it is one by itself, and the state
after it. -/
def Lexing.start (c : Char) : List Token × Lexing :=
  if isJsonBlank c then ([], .between)
  else if c = '"' then ([], .string [])
  else
    match punctuation? c with
    | some t => ([t], .between)
    | none => ([], .word [c])

/-- The tokens that a character completes and the state after it. -/
def Lexing.step (state : Lexing) (c : Char) : Option (List Token × Lexing) :=
  match state with
  | .between => some (Lexing.start c)
  | .word read =>
    if isJsonBlank c || c = '"' || (punctuation? c).isSome then do
      let value ← word? read.reverse
      let (tokens, state) := Lexing.start c
      return (.scalar value :: tokens, state)
    else some ([], .word (c :: read))
  | .string read =>
    if c = '"' then some ([.str (String.ofList read.reverse)], .between)
    else if c = '\\' then some ([], .escape read)
    else if c.toNat < 0x20 then none
    else some ([], .string (c :: read))
  | .escape read =>
    if c = 'u' then some ([], .unit read none 0 0)
    else (shortEscape? c).map fun e => ([], .string (e :: read))
  | .unit read high count value => do
    let digit ← hexValue? c
    let value := value * 16 + digit
    if count < 3 then return ([], .unit read high (count + 1) value)
    else return ([], ← afterUnit read high value)
  | .pair read high => if c = '\\' then some ([], .pairEscape read high) else none
  | .pairEscape read high => if c = 'u' then some ([], .unit read (some high) 0 0) else none

/-- The tokens of a text from a state on. -/
def tokensFrom? (state : Lexing) : List Char → Option (List Token)
  | [] =>
    match state with
    | .between => some []
    | .word read => (word? read.reverse).map fun value => [.scalar value]
    | _ => none
  | c :: cs => do
    let (tokens, state) ← state.step c
    return tokens ++ (← tokensFrom? state cs)

/-- The tokens of a text. -/
def tokens? (cs : List Char) : Option (List Token) :=
  tokensFrom? .between cs

end Crowsfoot.Json
