import Crowsfoot.Text.Quoted

/-!
# Templates

A template is text with named slots. In its written form a slot is a name in braces and a brace of
the text is doubled: `Template.write` gives this form and `Template.render` reads and fills it. A
missing section is noticed before a syntax error that stands after its slot.
-/

namespace Crowsfoot.Template

/-- A piece of a template. -/
inductive Piece where
  | char (c : Char)
  | slot (name : String)
  deriving Repr, DecidableEq

/-- A text as pieces. -/
def text (s : String) : List Piece :=
  s.toList.map .char

/-- Why a template cannot be filled. -/
inductive TemplateError where
  /-- A closing brace stands alone. -/
  | strayClosing
  /-- An opening brace stands at the very end. -/
  | strayOpening
  /-- A slot is never closed. -/
  | unclosed
  /-- A slot holds an opening brace. -/
  | nestedOpening
  /-- There is no section for a slot. -/
  | missingSection (name : String)
  deriving Repr, DecidableEq

/-- The wording of a template error. -/
def TemplateError.message : TemplateError → String
  | .strayClosing => "Single '\x7d' encountered in format string"
  | .strayOpening => "Single '\x7b' encountered in format string"
  | .unclosed => "expected '\x7d' before end of string"
  | .nestedOpening => "unexpected '\x7b' in field name"
  | .missingSection name => Text.quotedText name

/-- The written form of a piece. -/
def Piece.write : Piece → List Char
  | .char c => if c = '\x7b' || c = '\x7d' then [c, c] else [c]
  | .slot name => '\x7b' :: name.toList ++ ['\x7d']

/-- The written form of a template. -/
def write (pieces : List Piece) : String :=
  String.ofList (pieces.flatMap Piece.write)

/-- The pieces of a written template up to the first syntax error; `slot` is the name read so far,
backwards, when a slot is open. -/
def read (slot : Option (List Char)) : List Char → List Piece × Option TemplateError
  | [] => ([], slot.map fun _ => .unclosed)
  | c :: rest =>
    let keep (piece : Piece) (tail : List Piece × Option TemplateError) :=
      (piece :: tail.1, tail.2)
    match slot with
    | some name =>
      if c = '\x7d' then keep (.slot (String.ofList name.reverse)) (read none rest)
      else if c = '\x7b' then ([], some .nestedOpening)
      else read (some (c :: name)) rest
    | none =>
      match c, rest with
      | '\x7b', '\x7b' :: rest => keep (.char '\x7b') (read none rest)
      | '\x7b', [] => ([], some .strayOpening)
      | '\x7b', rest => read (some []) rest
      | '\x7d', '\x7d' :: rest => keep (.char '\x7d') (read none rest)
      | '\x7d', _ => ([], some .strayClosing)
      | c, rest => keep (.char c) (read none rest)

/-- The sections for the slots of a template, by name. -/
abbrev Sections := List (String × String)

/-- Fills the slots. -/
def fill (sections : Sections) (pieces : List Piece) : Except TemplateError String := do
  let parts ← pieces.mapM fun piece =>
    match piece with
    | .char c => .ok [c]
    | .slot name =>
      match sections.lookup name with
      | some section_ => .ok section_.toList
      | none => .error (.missingSection name)
  return String.ofList parts.flatten

/-- Fills the slots of a written template. -/
def render (template : String) (sections : Sections) : Except TemplateError String := do
  let (pieces, fault) := read none template.toList
  let filled ← fill sections pieces
  match fault with
  | some e => .error e
  | none => return filled

end Crowsfoot.Template
