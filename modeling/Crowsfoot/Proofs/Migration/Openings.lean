import Crowsfoot.Proofs.Builder.Concatenation
import Crowsfoot.Proofs.Migration.Reading

/-!
# Where the creations of a migration begin

A migration is searched for creations in what is left of it without comments, in code and in string
literals alike. `creations_begin` says where each comes from: those that are found are the creations
in code and the creations in literals of the text (`Opens`), and the text is searched as if literals
opened nothing just if none begins in a literal.

In a generated migration one creation begins in code, whatever strings are in it, and there is one
table to be read just if none begins in a literal.
-/

namespace Crowsfoot.Migration

open Crowsfoot.Builder Crowsfoot.Text

/-! ## In code and in literals -/

/-- The creations that begin in code. -/
def codeCreations (text : List Char) : List Creation :=
  creationsWhere (· == .code) .code (withoutComments text)

/-- The creations that begin in a literal. -/
def literalCreations (text : List Char) : List Creation :=
  creationsWhere (fun q => !(q == .code)) .code (withoutComments text)

/-- A creation begins in a text, at a position with this quoting: what is left of the text from there
on begins with it. -/
def Opens (text : List Char) (q : Quoting) (c : Creation) : Prop :=
  ∃ before after, text = before ++ 'S' :: after ∧ regionAfter (.source .code) before = .source q
    ∧ creation? (withoutCommentsFrom (.source q) ('S' :: after)) = some c

section Counting

variable {counts : Quoting → Bool}

/-- Every creation counts or does not. -/
theorem creationsWhere_perm (q : Quoting) (cs : List Char) :
    (creationsIn cs).Perm
      (creationsWhere counts q cs ++ creationsWhere (fun q => !counts q) q cs) := by
  induction cs generalizing q with
  | nil => exact .nil
  | cons c cs ih =>
    have hrest := ih (q.next c)
    rw [creationsIn, creationsWhere, creationsWhere]
    cases counts q with
    | true =>
      simp only [if_true, Bool.not_true, Bool.false_eq_true, if_false, List.nil_append,
        List.append_assoc]
      exact hrest.append_left _
    | false =>
      simp only [Bool.false_eq_true, if_false, Bool.not_false, if_true, List.nil_append]
      refine (hrest.append_left _).trans ?_
      rw [← List.append_assoc, ← List.append_assoc]
      exact List.perm_append_comm.append_right _

theorem creationsWhere_sublist (q : Quoting) (cs : List Char) :
    List.Sublist (creationsWhere counts q cs) (creationsIn cs) := by
  induction cs generalizing q with
  | nil => exact .slnil
  | cons c cs ih =>
    rw [creationsIn, creationsWhere]
    split
    · exact (List.Sublist.refl _).append (ih _)
    · exact (ih _).trans (List.sublist_append_right _ _)

theorem creation?_nil : creation? [] = none := by
  decide

/-- A creation begins with the first letter of its word. -/
theorem exists_of_creation? {cs : List Char} {c : Creation} (h : creation? cs = some c) :
    ∃ rest, cs = 'S' :: rest := by
  have hword : creationWord.toList = 'S' :: "chema::create(".toList := by decide
  by_contra hnone
  have hprefix : ¬ creationWord.toList <+: cs := by
    rintro ⟨rest, rfl⟩
    rw [hword] at hnone
    exact hnone ⟨_, rfl⟩
  rw [creation?_eq_none hprefix] at h
  exact nomatch h

theorem mem_creationsWhere {q : Quoting} {cs : List Char} {c : Creation} :
    c ∈ creationsWhere counts q cs
      ↔ ∃ pre post, cs = pre ++ post ∧ counts (q.after pre) = true ∧ creation? post = some c := by
  induction cs generalizing q with
  | nil =>
    constructor
    · exact fun h => absurd h (by simp [creationsWhere])
    · rintro ⟨pre, post, hcs, -, hpost⟩
      obtain ⟨-, rfl⟩ := List.append_eq_nil_iff.mp hcs.symm
      rw [creation?_nil] at hpost
      exact absurd hpost (by simp)
  | cons d cs ih =>
    rw [creationsWhere, List.mem_append, ih]
    constructor
    · rintro (h | ⟨pre, post, rfl, hcounts, hpost⟩)
      · split at h
        · rename_i hcounts
          exact ⟨[], d :: cs, rfl, hcounts, Option.mem_toList.mp h⟩
        · exact absurd h (by simp)
      · exact ⟨d :: pre, post, rfl, hcounts, hpost⟩
    · rintro ⟨pre, post, hcs, hcounts, hpost⟩
      cases pre with
      | nil =>
        obtain rfl : d :: cs = post := hcs
        have hcounts : counts q = true := hcounts
        left
        rw [if_pos hcounts]
        exact Option.mem_toList.mpr hpost
      | cons e pre =>
        obtain ⟨rfl, rfl⟩ := List.cons.inj hcs
        exact Or.inr ⟨pre, post, rfl, hcounts, hpost⟩

/-- **What is found in a text without its comments begins in the text.** -/
theorem mem_creationsWhere_withoutComments {text : List Char} {c : Creation} :
    c ∈ creationsWhere counts .code (withoutComments text)
      ↔ ∃ q, counts q = true ∧ Opens text q c := by
  rw [mem_creationsWhere]
  constructor
  · rintro ⟨pre, post, hsplit, hcounts, hpost⟩
    obtain ⟨rest, rfl⟩ := exists_of_creation? hpost
    obtain ⟨before, after, q, rfl, hregion, hleft, hhere⟩ :=
      exists_source_of_withoutCommentsFrom (by decide) hsplit
    have hq : Quoting.code.after pre = q := by
      have hafter := after_withoutCommentsFrom (.source .code) before
      rwa [hleft, hregion] at hafter
    refine ⟨q, hq ▸ hcounts, before, after, rfl, hregion, ?_⟩
    rw [hhere]
    exact hpost
  · rintro ⟨q, hcounts, before, after, rfl, hregion, hpost⟩
    have hsplit := withoutCommentsFrom_append (.source .code) before
      (startsOutside_cons.mpr (by decide) : StartsOutside endsMark ('S' :: after))
    have hafter := after_withoutCommentsFrom (.source .code) before
    rw [hregion] at hsplit hafter
    exact ⟨_, _, hsplit, (congrArg counts hafter).trans hcounts, hpost⟩

end Counting

/-! ## Generated migrations -/

theorem length_readMigration {content : String} {source : Option String}
    {tables : List CreatedTable} (h : readMigration content source = .ok tables) :
    tables.length = (creationsIn (withoutComments content.toList)).length := by
  unfold readMigration at h
  have hread : ((creationsIn (withoutComments content.toList)).map fun c =>
      CreatedTable.ofBody c.name c.body source).mapM id = .ok tables := by
    rw [List.mapM_map]
    exact h
  have hlength := congrArg List.length (mapM_id_eq_ok.mp hread)
  rw [List.length_map, List.length_map] at hlength
  exact hlength.symm

theorem length_creationsIn (text : List Char) :
    (creationsIn (withoutComments text)).length
      = (codeCreations text).length + (literalCreations text).length := by
  rw [(creationsWhere_perm .code (withoutComments text)).length_eq, List.length_append]
  rfl

/-- Only creations in code are found just if none is in a literal. -/
theorem creationsIn_eq_codeCreations {text : List Char} :
    creationsIn (withoutComments text) = codeCreations text ↔ literalCreations text = [] := by
  have hlength := length_creationsIn text
  constructor
  · intro h
    rw [h] at hlength
    exact List.length_eq_zero_iff.mp (by omega)
  · intro h
    rw [h, List.length_nil, Nat.add_zero] at hlength
    exact ((creationsWhere_sublist .code _).eq_of_length hlength.symm).symm

section Generated

variable {o : Options} {known : Option (List String)} {t : Table}
variable (hindent : ∀ c ∈ o.indent.toList, isBlank c = true) (hname : IsName t.storageName)
include hindent hname

/-- **One creation begins in code**, whatever the strings of the table are. -/
theorem codeCreations_contentOf :
    codeCreations (contentOf o known t).toList
      = [⟨t.storageName, String.ofList ((bodyParts o known t).flatMap Part.write)⟩] := by
  have hcode : ∀ q : Quoting, (q == .code) = true → q = .code := fun q hq => eq_of_beq hq
  unfold codeCreations contentOf
  rw [toList_fillSkeleton hname,
    creationsWhere_content (fun s _ => skips_of_code hcode s) hname
      (code_body hindent fun _ _ => trivial)]
  rfl

/-- No creation begins in literals without the word that begins one. -/
theorem literalCreations_contentOf (h : ∀ s ∈ writtenStrings o known t, Unmarked s) :
    literalCreations (contentOf o known t).toList = [] := by
  unfold literalCreations contentOf
  rw [toList_fillSkeleton hname,
    creationsWhere_content (fun s => skips_of_unmarked) hname (code_body hindent h)]
  rfl

/-- **A generated migration creates one table** just if no creation begins in a literal. -/
theorem readMigration_contentOf_iff (source : Option String) :
    (∃ table, readMigration (contentOf o known t) source = .ok [table])
      ↔ literalCreations (contentOf o known t).toList = [] := by
  have hcode : codeCreations (contentOf o known t).toList = _ :=
    codeCreations_contentOf hindent hname
  constructor
  · rintro ⟨table, hread⟩
    have hlength := length_readMigration hread
    rw [length_creationsIn, hcode, List.length_singleton, List.length_singleton] at hlength
    exact List.length_eq_zero_iff.mp (by omega)
  · intro hnone
    unfold readMigration
    rw [creationsIn_eq_codeCreations.mpr hnone, hcode, List.mapM_cons, ofBody_body hindent]
    exact ⟨_, rfl⟩

end Generated

/-- **Where creations begin.** The creations that are found in a text are those that begin in its
code and those that begin in its literals; if and only if there are none of the latter, just the
creations in code are found. In a generated migration one begins in code, under the name its table
is stored under, whatever the strings in it are; so it is read as one table if and only if none
begins in a literal, as none does where no string holds the word. -/
theorem creations_begin (text : List Char) :
    ((creationsIn (withoutComments text)).Perm (codeCreations text ++ literalCreations text)
      ∧ (∀ c, c ∈ codeCreations text ↔ Opens text .code c)
      ∧ (∀ c, c ∈ literalCreations text ↔ ∃ q, q ≠ .code ∧ Opens text q c)
      ∧ (creationsIn (withoutComments text) = codeCreations text ↔ literalCreations text = []))
    ∧ ∀ (o : Options) (known : Option (List String)) (t : Table) (at_ : Timestamp)
        (file : GeneratedFile),
      (∀ c ∈ o.indent.toList, isBlank c = true) → IsName t.storageName →
      writeTable o known at_ t = .ok file →
        (∃ body, codeCreations file.content.toList = [⟨t.storageName, body⟩])
          ∧ (∀ source, (∃ table, readMigration file.content source = .ok [table])
            ↔ literalCreations file.content.toList = [])
          ∧ ((∀ s ∈ writtenStrings o known t, Unmarked s) →
            literalCreations file.content.toList = []) := by
  refine ⟨⟨?_, fun c => ?_, fun c => ?_, creationsIn_eq_codeCreations⟩, ?_⟩
  · exact creationsWhere_perm .code (withoutComments text)
  · refine mem_creationsWhere_withoutComments.trans ?_
    simp only [beq_iff_eq, exists_eq_left]
  · refine mem_creationsWhere_withoutComments.trans ?_
    simp only [Bool.not_eq_true', beq_eq_false_iff_ne]
  · intro o known t at_ file hindent hname hw
    rw [writeTable_eq] at hw
    split at hw
    · exact nomatch hw
    · rw [← Except.ok.inj hw, fileOf_content]
      exact ⟨⟨_, codeCreations_contentOf hindent hname⟩,
        readMigration_contentOf_iff hindent hname, literalCreations_contentOf hindent hname⟩

/-- A table of notes whose comment looks like a creation. -/
def noteTable : Table :=
  { name := "Note"
    columns := [{ name := "text", comment := some "Schema::create(\"posts\", \x7b\x7d)" }] }

theorem writeTable_noteTable :
    writeTable {} none ⟨2024, 3, 5, 14, 7, 9⟩ noteTable
      = .ok (fileOf {} none ⟨2024, 3, 5, 14, 7, 9⟩ noteTable) := by
  rw [writeTable_eq, if_neg (by decide +kernel)]

/-- The body of the migration of the notes. -/
def noteBody : List Char :=
  (bodyParts {} none noteTable).flatMap Part.write

theorem toList_contentOf_noteTable :
    (contentOf {} none noteTable).toList = contentText "notes" noteBody := by
  have hname : noteTable.storageName = "notes" := by decide
  unfold contentOf noteBody
  rw [toList_fillSkeleton (by decide), hname]

theorem creationsIn_noteTable :
    creationsIn (withoutComments (contentText "notes" noteBody))
      = [⟨"notes", String.ofList noteBody⟩, ⟨"posts", ""⟩] := by
  unfold contentText leadText closingText endText openingText
  rw [String.toList_ofList, String.toList_ofList, String.toList_ofList, String.toList_ofList]
  decide +kernel

theorem creations_begin_note :
    (∃ q, q ≠ .code ∧ Opens (contentText "notes" noteBody) q ⟨"posts", ""⟩)
      ∧ (∃ file, writeTable {} none ⟨2024, 3, 5, 14, 7, 9⟩ noteTable = .ok file
        ∧ ¬∃ table, readMigration file.content none = .ok [table])
      ∧ ∃ file, writeTable {} (some ["orders"]) ⟨2024, 3, 5, 14, 7, 9⟩ orderProduct = .ok file
        ∧ ∃ table, readMigration file.content none = .ok [table] := by
  have hw : writeTable {} (some ["orders"]) ⟨2024, 3, 5, 14, 7, 9⟩ orderProduct
      = .ok (fileOf {} (some ["orders"]) ⟨2024, 3, 5, 14, 7, 9⟩ orderProduct) := by
    rw [writeTable_eq, if_neg (by decide +kernel)]
  obtain ⟨⟨hfound, -, hliteral, -⟩, hwritten⟩ := creations_begin (contentText "notes" noteBody)
  obtain ⟨⟨body, hcode⟩, hnote, -⟩ := hwritten {} none noteTable ⟨2024, 3, 5, 14, 7, 9⟩ _
    (by decide) (by decide) writeTable_noteTable
  obtain ⟨-, horder, hunmarked⟩ := hwritten {} (some ["orders"]) orderProduct
    ⟨2024, 3, 5, 14, 7, 9⟩ _ (by decide) (by decide) hw
  have hposts : ⟨"posts", ""⟩ ∈ literalCreations (contentText "notes" noteBody) := by
    rw [fileOf_content, toList_contentOf_noteTable] at hcode
    rw [creationsIn_noteTable, hcode] at hfound
    have hmem := hfound.mem_iff.mp (List.mem_cons_of_mem _ List.mem_cons_self)
    rcases List.mem_append.mp hmem with hmem | hmem
    · have hsame : "posts" = noteTable.storageName :=
        congrArg Creation.name (List.mem_singleton.mp hmem)
      exact absurd hsame (by decide)
    · exact hmem
  refine ⟨(hliteral _).mp hposts, ⟨_, writeTable_noteTable, fun hone => ?_⟩, _, hw,
    (horder none).mpr (hunmarked (by decide +kernel))⟩
  have hnone := (hnote none).mp hone
  rw [fileOf_content, toList_contentOf_noteTable] at hnone
  rw [hnone] at hposts
  exact nomatch hposts

/-- The comment of a column creates a table, though it does not begin in code. -/
theorem comment_creates_table :
    ∃ file tables, writeTable {} none ⟨2024, 3, 5, 14, 7, 9⟩ noteTable = .ok file
      ∧ readMigration file.content none = .ok tables
      ∧ tables.map CreatedTable.name = ["notes", "posts"]
      ∧ ∃ c ∈ creationsIn (withoutComments file.content.toList),
        ¬Opens file.content.toList .code c := by
  have hposts : CreatedTable.ofBody "posts" "" none = .ok { name := "posts" } := by decide
  obtain ⟨notes, hname, hnotes⟩ : ∃ notes : CreatedTable, notes.name = "notes"
      ∧ CreatedTable.ofBody "notes" (String.ofList noteBody) none = .ok notes := by
    refine ⟨_, ?_, ofBody_body (by decide) "notes" none⟩
    unfold CreatedTable.attachKeys
    rw [stateAll_eq]
  refine ⟨_, [notes, { name := "posts" }], writeTable_noteTable, ?_, ?_, ⟨"posts", ""⟩, ?_,
    fun hopens => ?_⟩
  · unfold readMigration
    rw [fileOf_content, toList_contentOf_noteTable, creationsIn_noteTable, List.mapM_cons, hnotes,
      List.mapM_cons, hposts]
    rfl
  · rw [List.map_cons, hname]
    rfl
  · rw [fileOf_content, toList_contentOf_noteTable, creationsIn_noteTable]
    simp
  · rw [fileOf_content] at hopens
    have hcode : ⟨"posts", ""⟩ ∈ codeCreations (contentOf {} none noteTable).toList :=
      mem_creationsWhere_withoutComments.mpr ⟨.code, rfl, hopens⟩
    rw [codeCreations_contentOf (by decide) (by decide), List.mem_singleton] at hcode
    exact absurd (congrArg Creation.name hcode) (by decide)

end Crowsfoot.Migration
