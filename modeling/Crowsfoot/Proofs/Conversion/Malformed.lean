import Crowsfoot.Proofs.Builder.Concatenation
import Crowsfoot.Proofs.Builder.Failures
import Crowsfoot.Proofs.Diagram.Stated
import Crowsfoot.Proofs.Migration.Reading

/-!
# Malformed text is read

Nothing in a text of ASCII stops the readers (`reads_malformed`): a diagram is read whatever its
lines are, and the body of a table's creation is read whatever its statements are, as long as no two
minus signs stand before a digit once the comments are removed.

Outside ASCII too, a body that cannot be read has a token to blame, which looks like a number and is
none (`blames_of_ofBody`). Brackets, literals that stay open, blank arguments, arguments of the wrong
kind and unknown calls are never to blame.
-/

namespace Crowsfoot.Migration

open Crowsfoot.Builder Crowsfoot.Text

/-- If clauses cannot be read, then neither can one of the chains. -/
theorem mem_of_clausesOf_eq_error {chains : List (Except ReadError (List Call))} {e : ReadError}
    (h : CreatedTable.clausesOf chains = .error e) : .error e ∈ chains := by
  unfold CreatedTable.clausesOf at h
  rcases bind_eq_error.mp h with hcalls | ⟨calls, -, h⟩
  · obtain ⟨chain, hchain, he⟩ := exists_of_mapM_eq_error hcalls
    obtain rfl : chain = .error e := he
    exact hchain
  · exact nomatch h

/-- **A body** is read, or it has a token to blame in it. -/
theorem blames_of_ofBody {name body : String} {source : Option String} {e : ReadError}
    (h : CreatedTable.ofBody name body source = .error e) :
    Blames (withoutComments body.toList) e := by
  unfold CreatedTable.ofBody at h
  rcases bind_eq_error.mp h with hclauses | ⟨clauses, -, h⟩
  · obtain ⟨statement, hstatement, he⟩ := List.mem_map.mp (mem_of_clausesOf_eq_error hclauses)
    exact (blames_of_chain he).mono (infix_of_mem_splitAt hstatement)
  · exact nomatch h

theorem exists_ofBody (name : String) {body : String} (source : Option String)
    (hascii : ∀ c ∈ body.toList, isAscii c = true)
    (hapart : SignsApart (withoutComments body.toList)) :
    ∃ t, CreatedTable.ofBody name body source = .ok t := by
  have hkept : ∀ c ∈ withoutComments body.toList, isAscii c = true :=
    fun c hc => hascii c (mem_of_mem_withoutCommentsFrom hc)
  cases hread : CreatedTable.ofBody name body source with
  | ok t => exact ⟨t, rfl⟩
  | error e => exact absurd (blames_of_ofBody hread) (not_blames hkept hapart e)

/-- **Malformed text is read.** In ASCII every diagram is read, and so is every body in which no two
minus signs stand before a digit outside comments. Whatever else a body has in it is no error. -/
theorem reads_malformed :
    (∀ text : String, (∀ c ∈ text.toList, isAscii c = true) →
        ∃ d, Diagram.Document.parse text = .ok d)
      ∧ (∀ (name body : String) (source : Option String), (∀ c ∈ body.toList, isAscii c = true) →
          SignsApart (withoutComments body.toList) →
          ∃ t, CreatedTable.ofBody name body source = .ok t)
      ∧ ∀ (name body : String) (source : Option String) (e : ReadError),
          CreatedTable.ofBody name body source = .error e →
          Blames (withoutComments body.toList) e := by
  refine ⟨?_, ?_, ?_⟩
  · intro text hascii
    obtain ⟨d, hd, -⟩ := Diagram.parse_ascii hascii
    exact ⟨d, hd⟩
  · exact fun name _ source => exists_ofBody name source
  · exact fun _ _ _ _ => blames_of_ofBody

/-- A body with a blank argument, an unknown call, a list for a length, a stray closer, and a call and
a literal that stay open. -/
def brokenBody : String :=
  "$table->string(, 'a'); $table->frob(-5); $table->char('b', [-7, ])]; $table->text('c"

/-- A diagram with a brace that stays open and one that was never opened. -/
def brokenDiagram : String :=
  "\x7d\nentity Book \x7b\n  * id : \"\nBook ||--\n  title : string(x"

theorem reads_malformed_books :
    (∃ d, Diagram.Document.parse brokenDiagram = .ok d)
      ∧ SignsApart (withoutComments brokenBody.toList)
      ∧ (∃ t, CreatedTable.ofBody "books" brokenBody none = .ok t
        ∧ t.columns = [{ name := "b", type := .char, nullable := false }])
      ∧ CreatedTable.ofBody "books" "$table->char('b', --1);" none = .error (.badInteger "--1")
      ∧ Blames (withoutComments "$table->char('b', --1);".toList) (.badInteger "--1") := by
  have hdiagram : ∀ c ∈ brokenDiagram.toList, isAscii c = true := by decide +kernel
  have hbody : ∀ c ∈ brokenBody.toList, isAscii c = true := by decide +kernel
  have hapart : SignsApart (withoutComments brokenBody.toList) := by decide +kernel
  obtain ⟨t, ht⟩ := reads_malformed.2.1 "books" brokenBody none hbody hapart
  have hread : CreatedTable.ofBody "books" brokenBody none
      = .ok { name := "books", columns := [{ name := "b", type := .char, nullable := false }] } := by
    decide +kernel
  have hsigns : CreatedTable.ofBody "books" "$table->char('b', --1);" none
      = .error (.badInteger "--1") := by
    decide +kernel
  refine ⟨reads_malformed.1 brokenDiagram hdiagram, hapart, ⟨t, ht, ?_⟩, hsigns,
    reads_malformed.2.2 _ _ _ _ hsigns⟩
  rw [← Except.ok.inj (hread.symm.trans ht)]

end Crowsfoot.Migration
