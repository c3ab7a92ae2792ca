import Crowsfoot.Text.Basic
import Crowsfoot.Text.Case

/-!
# Singular and plural

English inflection of identifiers. Only the last word of a compound name is inflected: the longest
tail of ASCII lower case letters and digits, with the capital before it, or else the longest tail of
ASCII capitals (`splitLastWord`). A word is first looked up among the uncountable and the irregular
ones; then the first suffix rule that recognises it applies (`inflect`). The result takes over the
capitals of the word (`matchCase`).

The two rule lists `pluralRules` and `singularRules` are data: a `SuffixRule` says which stems it
accepts, which ending it takes off and which it puts on. Endings are looked for before one final
line feed, which stays where it is.
-/

namespace Crowsfoot.Naming

open Crowsfoot.Text

/-- Words that are their own plural. -/
def uncountable : List String :=
  ["audio", "cattle", "data", "deer", "equipment", "feedback", "fish", "information", "media",
    "metadata", "money", "news", "rice", "series", "sheep", "software", "species", "staff"]

/-- Pairs of a singular and its plural that no rule gives. -/
def irregular : List (String × String) :=
  [("person", "people"), ("man", "men"), ("woman", "women"), ("child", "children"),
    ("mouse", "mice"), ("goose", "geese"), ("tooth", "teeth"), ("foot", "feet"), ("ox", "oxen"),
    ("criterion", "criteria"), ("phenomenon", "phenomena")]

/-- What a rule asks of the part before the ending. -/
inductive Stem where
  /-- Anything. -/
  | any
  /-- It ends in one of the given texts. -/
  | endsIn (tails : List String)
  /-- It ends in a character that is none of `a e i o u y`, or in `qu`. -/
  | consonant
  deriving Repr, DecidableEq

/-- Whether a rule with this requirement applies to the stem. -/
def Stem.accepts : Stem → List Char → Bool
  | .any, _ => true
  | .endsIn tails, stem => tails.any fun tail => endsWith tail.toList stem
  | .consonant, stem =>
    (match stem.getLast? with
      | some c => !(['a', 'e', 'i', 'o', 'u', 'y'].contains c)
      | none => false)
      || endsWith ['q', 'u'] stem

/-- A stem keeps its form while `ending` becomes `replacement`. -/
structure SuffixRule where
  stem : Stem
  ending : String
  replacement : String
  deriving Repr, DecidableEq

/-- The word a rule makes, if it applies. -/
def SuffixRule.apply? (rule : SuffixRule) (word : List Char) : Option (List Char) :=
  if endsWith rule.ending.toList word then
    let stem := word.take (word.length - rule.ending.toList.length)
    if rule.stem.accepts stem then some (stem ++ rule.replacement.toList) else none
  else none

/-- From singular to plural, in order of precedence. -/
def pluralRules : List SuffixRule :=
  [⟨.endsIn ["quiz"], "", "zes"⟩,
    ⟨.endsIn ["matr"], "ix", "ices"⟩,
    ⟨.endsIn ["vert", "ind"], "ex", "ices"⟩,
    ⟨.endsIn ["alias", "status", "bus", "campus", "virus"], "", "es"⟩,
    ⟨.endsIn ["x", "ch", "ss", "sh", "z"], "", "es"⟩,
    ⟨.consonant, "y", "ies"⟩,
    ⟨.endsIn ["kni", "wi", "li"], "fe", "ves"⟩,
    ⟨.endsIn ["wol", "hal", "shel", "cal", "sel", "el", "lea", "loa", "thie"], "f", "ves"⟩,
    ⟨.endsIn ["tomat", "potat", "her", "ech"], "o", "oes"⟩,
    ⟨.endsIn ["analy", "diagno", "parenthe", "progno", "synop"], "sis", "ses"⟩,
    ⟨.any, "s", "s"⟩,
    ⟨.any, "", "s"⟩]

/-- From plural to singular, in order of precedence. -/
def singularRules : List SuffixRule :=
  [⟨.endsIn ["quiz"], "zes", ""⟩,
    ⟨.endsIn ["matr"], "ices", "ix"⟩,
    ⟨.endsIn ["vert", "ind"], "ices", "ex"⟩,
    ⟨.endsIn ["alias", "status", "bus", "campus", "virus"], "es", ""⟩,
    ⟨.endsIn ["analy", "diagno", "parenthe", "progno", "synop"], "ses", "sis"⟩,
    ⟨.endsIn ["x", "ch", "ss", "sh", "z"], "es", ""⟩,
    ⟨.endsIn ["movie", "cookie", "tie", "pie"], "s", ""⟩,
    ⟨.consonant, "ies", "y"⟩,
    ⟨.endsIn ["wol", "hal", "shel", "cal", "sel", "el", "lea", "loa", "thie"], "ves", "f"⟩,
    ⟨.endsIn ["kni", "wi", "li"], "ves", "fe"⟩,
    ⟨.endsIn ["tomat", "potat", "her", "ech"], "oes", "o"⟩,
    ⟨.endsIn ["ss", "us", "is"], "", ""⟩,
    ⟨.any, "s", ""⟩]

/-- A grammatical number. -/
inductive Number where
  | singular
  | plural
  deriving Repr, DecidableEq

/-- The rules that lead to a number. -/
def Number.rules : Number → List SuffixRule
  | .singular => singularRules
  | .plural => pluralRules

/-- An irregular pair, read as source and target of the inflection to a number. -/
def Number.orient : Number → String × String → String × String
  | .plural, (one, many) => (one, many)
  | .singular, (one, many) => (many, one)

/-- The first rule that applies. -/
def applyRules (rules : List SuffixRule) (word : List Char) : Option (List Char) :=
  rules.findSome? fun rule => rule.apply? word

/-- Gives an inflected word the capitals of the word it comes from. -/
def matchCase (word inflected : List Char) : List Char :=
  if isUpperText word && decide (1 < word.length) then upper inflected
  else if isUpperText (word.take 1) then capitalized inflected
  else inflected

/-- What the list of irregular words says: the new form, or that the word has it already. -/
def irregular? (number : Number) (word : List Char) : Option (List Char) :=
  let low := String.ofList (lower word)
  irregular.findSome? fun pair =>
    let (source, target) := number.orient pair
    if low = source then some (matchCase word target.toList)
    else if low = target then some word
    else none

/-- One word in the given number. -/
def inflect (number : Number) (word : List Char) : List Char :=
  let low := lower word
  if uncountable.contains (String.ofList low) then word
  else
    match irregular? number word with
    | some form => form
    | none =>
      let body := dropFinalNewline low
      match applyRules number.rules body with
      | some form => matchCase word (form ++ low.drop body.length)
      | none => word

/-- ASCII lower case letters and digits. -/
def isSmall (c : Char) : Bool :=
  c.isLower || c.isDigit

/-- Parts an identifier into what stands before its last word and the last word. An identifier
without an ASCII word at its end is one word. -/
def splitLastWord (cs : List Char) : List Char × List Char :=
  let backwards := (dropFinalNewline cs).reverse
  let small := backwards.takeWhile isSmall
  let before := backwards.dropWhile isSmall
  if small.isEmpty then
    let capitals := backwards.takeWhile Char.isUpper
    if capitals.isEmpty then ([], cs)
    else ((backwards.dropWhile Char.isUpper).reverse, capitals.reverse)
  else
    match before with
    | c :: rest =>
      if c.isUpper then (rest.reverse, c :: small.reverse)
      else (before.reverse, small.reverse)
    | [] => ([], small.reverse)

/-- An identifier whose last word has the given number. -/
def toNumber (number : Number) (name : String) : String :=
  if name.isEmpty then name
  else
    let (lead, word) := splitLastWord name.toList
    String.ofList (lead ++ inflect number word)

/-- The plural form of an identifier: `category` becomes `categories`. -/
def pluralize (name : String) : String :=
  toNumber .plural name

/-- The singular form of an identifier: `OrderItems` becomes `OrderItem`. -/
def singularize (name : String) : String :=
  toNumber .singular name

/-- Whether an identifier is its own singular form. -/
def isSingular (name : String) : Bool :=
  singularize name == name

end Crowsfoot.Naming
