import Crowsfoot.Text.Quoted

/-!
# Integers in text

`readInteger` reads an optional minus sign and positional decimal digits, of any script and of any
length. `looksNumeric` is the weaker test by which a token is taken for a number at all: after any
number of minus signs there are only digits, of whatever style. A token that looks numeric without
being a number (`--1`, `²`) is the one thing a reader of this library cannot go on from: it is a
`ReadError`.
-/

namespace Crowsfoot.Text

/-- Why a text cannot be read. -/
inductive ReadError where
  /-- The token looks like a number and is none. -/
  | badInteger (token : String)
  deriving Repr, DecidableEq

/-- The wording of a read error. -/
def ReadError.message : ReadError → String
  | .badInteger token => "invalid literal for int() with base 10: " ++ quotedText token

/-- A non-empty run of digits of any style. -/
def isDigits (cs : List Char) : Bool :=
  !cs.isEmpty && cs.all isDigit

/-- Any number of minus signs and then digits of any style. -/
def looksNumeric (cs : List Char) : Bool :=
  isDigits (cs.dropWhile (· == '-'))

/-- The value of a run of positional decimal digits after `acc`. -/
def readDigits (acc : Nat) : List Char → Option Nat
  | [] => some acc
  | c :: cs =>
    match decimalValue? c with
    | some d => readDigits (acc * 10 + d) cs
    | none => none

/-- The value of a non-empty run of positional decimal digits. -/
def readNatural? : List Char → Option Nat
  | [] => none
  | cs => readDigits 0 cs

/-- The value of an optional minus sign and decimal digits. -/
def readInteger? : List Char → Option Int
  | '-' :: cs => (readNatural? cs).map fun n => -(n : Int)
  | cs => (readNatural? cs).map fun n => (n : Int)

/-- The value of a token that looks numeric. -/
def readInteger (cs : List Char) : Except ReadError Int :=
  match readInteger? cs with
  | some n => .ok n
  | none => .error (.badInteger (String.ofList cs))

end Crowsfoot.Text
