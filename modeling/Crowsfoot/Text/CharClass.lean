import Crowsfoot.Text.Table.Alphanumeric
import Crowsfoot.Text.Table.Digit
import Crowsfoot.Text.Table.Printable

/-!
# Character classes

Migration sources and diagrams are read by the Unicode classes of their characters: a name is a run
of `isWord` characters, and the space between tokens is made of `isBlank` characters. Below U+0080
each class is a plain ASCII rule; from there on it is a table of ranges.

* `isBlank` and `isWord` are disjoint (`not_isBlank_of_isWord` below U+0080 follows from the rules),
  which is what makes the grammars of `Crowsfoot.Diagram.Line` unambiguous.
* `decimalValue?` is the value of a positional decimal digit of any script.
-/

namespace Crowsfoot.Text

/-- Whether the code point of `c` lies in one of the inclusive ranges. -/
def inRanges (ranges : List (Nat × Nat)) (c : Char) : Bool :=
  ranges.any fun r => decide (r.1 ≤ c.toNat) && decide (c.toNat ≤ r.2)

/-- Whether `c` belongs to ASCII. -/
def isAscii (c : Char) : Bool :=
  decide (c.toNat < 128)

/-- Letters and numerals of any script. -/
def isAlphanumeric (c : Char) : Bool :=
  if isAscii c then c.isAlphanum else inRanges alphanumericRanges c

/-- Characters of a name: letters, numerals and the underscore. -/
def isWord (c : Char) : Bool :=
  isAlphanumeric c || c == '_'

/-- White space: the ASCII blanks and line ends, the four information separators, and the spaces
and line separators of Unicode. -/
def isBlank (c : Char) : Bool :=
  let n := c.toNat
  decide (9 ≤ n ∧ n ≤ 13) || decide (28 ≤ n ∧ n ≤ 32) || n == 0x85 || n == 0xA0 || n == 0x1680
    || decide (0x2000 ≤ n ∧ n ≤ 0x200A) || n == 0x2028 || n == 0x2029 || n == 0x202F
    || n == 0x205F || n == 0x3000

/-- Digits of any style, those without positional value (`²`, `①`) included. -/
def isDigit (c : Char) : Bool :=
  if isAscii c then c.isDigit else inRanges digitRanges c

/-- The value of a positional decimal digit. -/
def decimalValue? (c : Char) : Option Nat :=
  if isAscii c then
    if c.isDigit then some (c.toNat - '0'.toNat) else none
  else
    (decimalRanges.find? fun r => decide (r.1 ≤ c.toNat) && decide (c.toNat ≤ r.2)).map
      fun r => (c.toNat - r.1) % 10

/-- Characters that a quoted text shows as they are. -/
def isPrintable (c : Char) : Bool :=
  if isAscii c then decide (32 ≤ c.toNat ∧ c.toNat ≤ 126) else inRanges printableRanges c

/-- The quotes that open and close a string literal. -/
def isQuote (c : Char) : Bool :=
  c == '\'' || c == '"'

end Crowsfoot.Text
