import Crowsfoot.Builder.Argument

/-!
# Call chains

A statement such as `$table->string('name')->nullable()` is a variable followed by links, each an
arrow, a method name and a bracketed argument list. `links` reads the links up to the first place
that does not continue the chain; `chain` reads their arguments too.
-/

namespace Crowsfoot.Builder

open Crowsfoot.Text

/-- One link of a chain: a method with its arguments, both as written and read. -/
structure Call where
  method : String
  rawArguments : String
  arguments : List Argument
  deriving Repr, Inhabited

/-- The argument at a position, `missing` beyond the last. -/
def Call.argument (c : Call) (k : Nat) : Argument :=
  c.arguments.getD k .missing

/-- One link, with its arguments unread, and what follows it. -/
def link? (cs : List Char) : Option (String × String × List Char) :=
  match cs.dropWhile isBlank with
  | '-' :: '>' :: named =>
    let method := named.takeWhile isWord
    match (named.dropWhile isWord).dropWhile isBlank with
    | '(' :: rest =>
      if method.isEmpty then none
      else
        (group ')' rest).map fun found =>
          (String.ofList method, String.ofList found.1, found.2)
    | _ => none
  | _ => none

theorem length_of_link? {cs rest : List Char} {method raw : String}
    (h : link? cs = some (method, raw, rest)) : rest.length < cs.length := by
  have drop (p : Char → Bool) (l : List Char) : (l.dropWhile p).length ≤ l.length :=
    (List.dropWhile_suffix p).length_le
  unfold link? at h
  split at h
  · next named hn =>
    dsimp only at h
    split at h
    · next opened ho =>
      split at h
      · simp at h
      · obtain ⟨⟨inside, after⟩, hg, he⟩ := Option.map_eq_some_iff.1 h
        cases he
        obtain ⟨c, hc⟩ := group_eq hg
        have h1 := drop isBlank cs
        have h2 := drop isBlank (named.dropWhile isWord)
        have h3 := drop isWord named
        rw [hn] at h1
        rw [ho] at h2
        rw [hc] at h2
        simp only [List.length_cons, List.length_append] at h1 h2 ⊢
        omega
    · simp at h
  · simp at h

/-- The links of a chain, up to the first place that does not continue it. -/
def links (cs : List Char) : List (String × String) :=
  match h : link? cs with
  | some (method, raw, rest) =>
    have := length_of_link? h
    (method, raw) :: links rest
  | none => []
termination_by cs.length

/-- The calls of a chain on a variable; there are none where the text is no such chain. -/
def chain (statement : List Char) : Except ReadError (List Call) :=
  match trim statement with
  | '$' :: rest =>
    (links (rest.dropWhile isWord)).mapM fun (method, raw) => do
      return { method, rawArguments := raw, arguments := ← Argument.parseAll raw.toList }
  | _ => .ok []

end Crowsfoot.Builder
