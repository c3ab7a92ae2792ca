import Crowsfoot.Text.CharClass
import Crowsfoot.Text.Table.Case
import Crowsfoot.Text.Table.Context

/-!
# Letter case

The full case mappings: `lower` and `upper` map a text to its lower and upper case form, in which
one character may become several. The only mapping that looks at its surroundings is that of the
capital sigma, which ends a word in its final form.

`isUpperText` holds of a text with some upper case character and none in lower or title case.
-/

namespace Crowsfoot.Text

/-- The shift of the first entry that has the code point. -/
def shifted (shifts : List Shift) (c : Char) : Char :=
  match shifts.find? fun s => s.span.has c.toNat with
  | some s => Char.ofNat (c.toNat + s.offset).toNat
  | none => c

/-- The lower case form of a character that stands alone. -/
def lowerChar (c : Char) : List Char :=
  if isAscii c then [c.toLower]
  else if c.toNat = 0x130 then ['i', Char.ofNat 0x307]
  else [shifted lowerShifts c]

/-- The upper case form of a character. -/
def upperChar (c : Char) : List Char :=
  if isAscii c then [c.toUpper]
  else
    match upperExpansions.find? fun e => e.1 == c.toNat with
    | some e => e.2.map Char.ofNat
    | none => [shifted upperShifts c]

/-- Characters that do not hide a cased character from a capital sigma. -/
def isCaseIgnorable (c : Char) : Bool :=
  if isAscii c then c == '\'' || c == '.' || c == ':' || c == '^' || c.toNat == 0x60
  else inRanges caseIgnorableRanges c

/-- Characters with case, as seen from a capital sigma. -/
def isCased (c : Char) : Bool :=
  if isAscii c then c.isAlpha else inRanges casedRanges c

/-- Whether the next character that counts has case. -/
def meetsCased (cs : List Char) : Bool :=
  match cs.dropWhile isCaseIgnorable with
  | [] => false
  | c :: _ => isCased c

/-- The lower case form of a text; `follows` tells whether a cased character stands before it. -/
def lowerAfter (follows : Bool) : List Char → List Char
  | [] => []
  | c :: rest =>
    let mapped :=
      if c.toNat = 0x3A3 then
        [if follows && !meetsCased rest then Char.ofNat 0x3C2 else Char.ofNat 0x3C3]
      else lowerChar c
    mapped ++ lowerAfter (if isCaseIgnorable c then follows else isCased c) rest

/-- The lower case form of a text. -/
def lower (cs : List Char) : List Char :=
  lowerAfter false cs

/-- The upper case form of a text. -/
def upper (cs : List Char) : List Char :=
  cs.flatMap upperChar

/-- Upper case characters. -/
def isUpperChar (c : Char) : Bool :=
  if isAscii c then c.isUpper else upperSpans.any fun s => s.has c.toNat

/-- Lower case characters. -/
def isLowerChar (c : Char) : Bool :=
  if isAscii c then c.isLower else lowerSpans.any fun s => s.has c.toNat

/-- Some character is in upper case, and none in lower or title case. -/
def isUpperText (cs : List Char) : Bool :=
  cs.any isUpperChar && cs.all fun c => !isLowerChar c && !inRanges titleRanges c

/-- The text with its first character in upper case. -/
def capitalized : List Char → List Char
  | [] => []
  | c :: rest => upperChar c ++ rest

/-- The lower case form of a string. -/
def lowered (s : String) : String :=
  String.ofList (lower s.toList)

end Crowsfoot.Text
