import Crowsfoot.Text.CharClass

/-!
# Quoted text in messages

How a text is shown between quotes: single quotes, unless the text holds a single quote and no
double quote. The quote in use and the backslash get a backslash; line feed, carriage return and
tab have short escapes; what is not printable is written by its code point in two, four or eight
hexadecimal digits.
-/

namespace Crowsfoot.Text

/-- A hexadecimal digit in lower case. -/
def hexDigit (n : Nat) : Char :=
  if n < 10 then Char.ofNat (n + '0'.toNat) else Char.ofNat (n - 10 + 'a'.toNat)

/-- The last `width` hexadecimal digits of a number. -/
def hexDigits : (width n : Nat) → List Char
  | 0, _ => []
  | width + 1, n => hexDigits width (n / 16) ++ [hexDigit (n % 16)]

/-- One character between quotes. -/
def quotedChar (quote c : Char) : List Char :=
  if c = quote || c = '\\' then ['\\', c]
  else if c = '\n' then ['\\', 'n']
  else if c = '\r' then ['\\', 'r']
  else if c = '\t' then ['\\', 't']
  else if isPrintable c then [c]
  else if c.toNat < 0x100 then '\\' :: 'x' :: hexDigits 2 c.toNat
  else if c.toNat < 0x10000 then '\\' :: 'u' :: hexDigits 4 c.toNat
  else '\\' :: 'U' :: hexDigits 8 c.toNat

/-- The text between quotes. -/
def quoted (cs : List Char) : List Char :=
  let quote := if cs.contains '\'' && !cs.contains '"' then '"' else '\''
  quote :: cs.flatMap (quotedChar quote) ++ [quote]

/-- The string between quotes. -/
def quotedText (s : String) : String :=
  String.ofList (quoted s.toList)

/-- A list of strings in brackets, each between quotes. -/
def quotedList (ss : List String) : String :=
  "[" ++ ", ".intercalate (ss.map quotedText) ++ "]"

end Crowsfoot.Text
