import Crowsfoot.Proofs.Migration.Creations
import Crowsfoot.Proofs.Migration.Declarations

/-!
# The creation in a generated migration

A generated migration is fixed text around the name of the table and a body of statements
(`toList_fillSkeleton`). `creationsWhere_content`: of the creations that count, exactly one is found
in it, with this name and this body, as long as none that counts begins in a string. That is so for
all creations if no string holds the word that begins one (`creationsIn_content`), and for the
creations in code however the strings look.
-/

namespace Crowsfoot.Migration

open Crowsfoot.Builder Crowsfoot.Text

/-! ## The fixed text -/

/-- The text before the creation. -/
def leadText : String := "<?php

use Illuminate\\Database\\Migrations\\Migration;
use Illuminate\\Database\\Schema\\Blueprint;
use Illuminate\\Support\\Facades\\Schema;

return new class extends Migration
\x7b
    /**
     * Run the migrations.
     */
    public function up(): void
    \x7b
        "

/-- The text between the name and the body. -/
def openingText : String := ", function (Blueprint $table) "

/-- The line of the timestamps. -/
def timestampsText : String := "            $table->timestamps();\n"

/-- The indent of the closing brace. -/
def marginText : String := "        "

/-- The text between the creation and the second mention of the name. -/
def closingText : String := ";
    \x7d

    /**
     * Reverse the migrations.
     */
    public function down(): void
    \x7b
        Schema::dropIfExists("

/-- The text at the end. -/
def endText : String := ");
    \x7d
\x7d;\n"

/-- Characters as pieces. -/
def charPieces (cs : List Char) : List Template.Piece :=
  cs.map .char

set_option maxRecDepth 8000 in
theorem skeleton_eq :
    skeleton = charPieces leadText.toList ++ (charPieces (creationWord.toList ++ ['\''])
      ++ ([.slot "table"] ++ (charPieces ('\'' :: (openingText.toList ++ ['\x7b', '\n']))
      ++ ([.slot "primary", .slot "columns"] ++ (charPieces timestampsText.toList
      ++ ([.slot "soft_deletes"] ++ (charPieces (marginText.toList ++ ['\x7d', ')']
        ++ (closingText.toList ++ ['\'']))
      ++ ([.slot "table"] ++ charPieces ('\'' :: endText.toList))))))))) := by
  unfold skeleton Template.text charPieces leadText creationWord openingText timestampsText
    marginText closingText endText
  repeat rw [String.toList_ofList]
  rfl

set_option maxRecDepth 8000 in
theorem withoutComments_leadText (rest : List Char) :
    withoutComments (leadText.toList ++ rest)
      = withoutComments leadText.toList ++ withoutComments rest := by
  unfold leadText
  rw [String.toList_ofList]
  rfl

set_option maxRecDepth 8000 in
theorem withoutComments_closingText (rest : List Char) :
    withoutComments (closingText.toList ++ rest)
      = withoutComments closingText.toList ++ withoutComments rest := by
  unfold closingText
  rw [String.toList_ofList]
  rfl

theorem withoutComments_creationWord (rest : List Char) :
    withoutComments (creationWord.toList ++ rest) = creationWord.toList ++ withoutComments rest := by
  unfold creationWord
  rw [String.toList_ofList]
  rfl

theorem withoutComments_endText : withoutComments endText.toList = endText.toList := by
  unfold endText
  rw [String.toList_ofList]
  rfl

theorem silent_leadText : Silent (withoutComments leadText.toList) := by
  apply silent_of_quiet
  unfold leadText
  rw [String.toList_ofList]
  decide +kernel

theorem silent_closingText : Silent (withoutComments closingText.toList) := by
  apply silent_of_quiet
  unfold closingText
  rw [String.toList_ofList]
  decide

theorem silent_endText : Silent endText.toList := by
  apply silent_of_quiet
  unfold endText
  rw [String.toList_ofList]
  decide

/-! ## Filling the skeleton -/

/-- What a piece of the skeleton becomes. -/
def pieceText (sections : Template.Sections) : Template.Piece → List Char
  | .char c => [c]
  | .slot name => ((sections.lookup name).getD "").toList

theorem flatMap_char (sections : Template.Sections) (cs : List Char) :
    (charPieces cs).flatMap (pieceText sections) = cs := by
  unfold charPieces
  rw [List.flatMap_map]
  exact List.flatMap_singleton' cs

theorem toList_fillSkeleton_pieces (sections : Template.Sections) :
    (fillSkeleton sections).toList = skeleton.flatMap (pieceText sections) := by
  unfold fillSkeleton
  rw [String.toList_join, List.flatMap_map]
  congr 1
  funext piece
  cases piece with
  | char c => exact String.toList_singleton c
  | slot name => rfl

/-- The content of a migration, around the name of its table and its body. -/
def contentText (name : String) (body : List Char) : List Char :=
  leadText.toList ++ (creationWord.toList ++ ((Argument.literal name).toList
    ++ (openingText.toList ++ '\x7b' :: (body ++ '\x7d' :: ')' :: (closingText.toList
    ++ ((Argument.literal name).toList ++ endText.toList))))))

theorem not_mem_name {name : String} (h : IsName name) {c : Char} (hc : c ∈ name.toList) :
    c ≠ '\\' ∧ c ≠ '\'' :=
  ⟨ne_of_isWord (h.word c hc) (by decide), ne_of_isWord (h.word c hc) (by decide)⟩

/-- A name needs no backslashes. -/
theorem toList_literal_name {name : String} (h : IsName name) :
    (Argument.literal name).toList = '\'' :: (name.toList ++ ['\'']) := by
  have hescaped : ∀ cs : List Char, (∀ c ∈ cs, c ≠ '\\' ∧ c ≠ '\'') → escaped cs = cs := by
    intro cs hcs
    induction cs with
    | nil => rfl
    | cons c cs ih =>
      have hc := hcs c List.mem_cons_self
      have hrest := ih fun d hd => hcs d (List.mem_cons_of_mem c hd)
      rcases escaped_cons c cs with ⟨-, hbad⟩ | ⟨he, -, -⟩
      · exact absurd hbad (by simp [hc.1, hc.2])
      · rw [he, hrest]
  rw [toList_literal, hescaped name.toList fun c hc => not_mem_name h hc]

theorem unmarked_name {name : String} (h : IsName name) : Unmarked name := by
  intro hinside
  exact h.not_mem (d := ':') (by decide) (hinside.subset (by decide))

/-! ## The creation -/

theorem code_openingText {held : String → Prop} : Code held isPlain openingText.toList := by
  have hparts : openingText.toList
      = ", function ".toList ++ '(' :: ("Blueprint $table".toList ++ ')' :: " ".toList) := by
    decide
  rw [hparts]
  exact (Code.of_all (by decide)).append
    (.brackets rfl (Code.of_all (by decide)) (Code.of_all (by decide)))

/-- What follows the word in a creation, with the bracket that closes it. -/
theorem creation?_content {held : String → Prop} {name : String} (h : IsName name)
    {body : List Char} (hbody : Code held isPlain body) (rest : List Char) :
    creation? (creationWord.toList ++ ((Argument.literal name).toList
        ++ (openingText.toList ++ '\x7b' :: (body ++ '\x7d' :: rest))))
      = some ⟨name, String.ofList body⟩ := by
  have hquote : StartsOutside isWord ('\'' :: (openingText.toList ++ '\x7b' :: (body ++ '\x7d' :: rest))) :=
    startsOutside_cons.mpr (by decide)
  have htake := takeWhile_run h.word hquote
  have hdrop := dropWhile_run h.word hquote
  have hopening : openingText.toList = ',' :: " function (Blueprint $table) ".toList := by decide
  have hbraces : firstBraces? (" function (Blueprint $table) ".toList
      ++ '\x7b' :: (body ++ '\x7d' :: rest)) = some body := by
    have hstart : (" function (Blueprint $table) ".toList
        ++ '\x7b' :: (body ++ '\x7d' :: rest)).dropWhile (· != '\x7b')
        = '\x7b' :: (body ++ '\x7d' :: rest) :=
      dropWhile_run (by decide) (startsOutside_cons.mpr (by decide))
    have hgroup : group '\x7d' (body ++ '\x7d' :: rest) = some (body, rest) := by
      have hclose : groupFrom .code '\x7d' [] ('\x7d' :: rest) = some ([], rest) := rfl
      unfold group
      rw [hbody.inertInside.groupFrom '\x7d' (by decide), hclose]
      simp
    unfold firstBraces?
    rw [hstart]
    simp only [hgroup]
  have hhead : creationHead? (creationWord.toList ++ ((Argument.literal name).toList
      ++ (openingText.toList ++ '\x7b' :: (body ++ '\x7d' :: rest))))
      = some (name.toList, " function (Blueprint $table) ".toList
          ++ '\x7b' :: (body ++ '\x7d' :: rest)) := by
    have hfirst : ((Argument.literal name).toList ++ (openingText.toList
        ++ '\x7b' :: (body ++ '\x7d' :: rest))).dropWhile isBlank
        = '\'' :: (name.toList ++ '\'' :: (openingText.toList ++ '\x7b' :: (body ++ '\x7d' :: rest))) := by
      rw [toList_literal_name h, List.cons_append, List.append_assoc, List.singleton_append,
        List.dropWhile_cons, if_neg (by decide)]
    have hcomma : (openingText.toList ++ '\x7b' :: (body ++ '\x7d' :: rest)).dropWhile isBlank
        = ',' :: (" function (Blueprint $table) ".toList ++ '\x7b' :: (body ++ '\x7d' :: rest)) := by
      rw [hopening, List.cons_append, List.dropWhile_cons, if_neg (by decide)]
    have hne : name.toList.isEmpty = false := by simpa using h.nonempty
    unfold creationHead?
    rw [after?_append]
    simp only [Option.bind_eq_bind, Option.bind_some, hfirst, htake, hdrop, hcomma, hne]
    rfl
  unfold creation?
  rw [hhead]
  simp only [Option.bind_eq_bind, Option.bind_some, hbraces, String.ofList_toList]
  rfl

/-- The fixed text around a creation, without its comments. -/
theorem withoutComments_contentText {held : String → Prop} {name : String} {body : List Char}
    (hbody : Code held isPlain body) :
    withoutComments (contentText name body)
      = withoutComments leadText.toList ++ (creationWord.toList ++ ((Argument.literal name).toList
        ++ (openingText.toList ++ '\x7b' :: (body ++ '\x7d' :: ')' ::
          (withoutComments closingText.toList
            ++ ((Argument.literal name).toList ++ endText.toList)))))) := by
  have hcode : Inert ';' 1 ((Argument.literal name).toList
      ++ (openingText.toList ++ '\x7b' :: (body ++ ['\x7d']))) :=
    (Inert.literal (by decide) (isLiteral_literal name)).append
      (code_openingText.append (.brackets rfl hbody .nil)).inertInside
  have hcut := hcode.withoutComments (')' :: (closingText.toList
    ++ ((Argument.literal name).toList ++ endText.toList)))
  simp only [List.append_assoc, List.cons_append, List.nil_append] at hcut
  unfold contentText
  rw [withoutComments_leadText, withoutComments_creationWord, hcut,
    withoutComments_cons (by decide) (by decide) (by decide), withoutComments_closingText,
    (isLiteral_literal _).withoutComments, withoutComments_endText]

set_option maxRecDepth 8000 in
theorem after_leadText : Quoting.code.after (withoutComments leadText.toList) = .code := by
  unfold leadText
  rw [String.toList_ofList]
  rfl

set_option maxRecDepth 8000 in
theorem after_closingText : Quoting.code.after (withoutComments closingText.toList) = .code := by
  unfold closingText
  rw [String.toList_ofList]
  rfl

/-- **The creations that count in a generated migration** are one, if those in code do and none
begins in a literal that does. -/
theorem creationsWhere_content {counts : Quoting → Bool} {held : String → Prop}
    (hskips : ∀ s, held s → Skips counts s) {name : String} (h : IsName name) {body : List Char}
    (hbody : Code held isPlain body) :
    creationsWhere counts .code (withoutComments (contentText name body))
      = if counts .code then [⟨name, String.ofList body⟩] else [] := by
  have hname : Skips counts name := skips_of_unmarked (unmarked_name h)
  have hword : creationWord.toList = 'S' :: "chema::create(".toList := by decide
  have hrest : Silent "chema::create(".toList := silent_of_quiet (by decide)
  have hbraces : Code held isPlain (openingText.toList ++ '\x7b' :: (body ++ ['\x7d'])) :=
    code_openingText.append (.brackets rfl hbody .nil)
  have hend : creationsWhere counts .code endText.toList = [] := by
    have hsilent : creationsWhere counts .code (endText.toList ++ []) = [] :=
      silent_endText.creationsWhere .code []
    rwa [List.append_nil] at hsilent
  have hclosing : creationsWhere counts .code (')' :: (withoutComments closingText.toList
      ++ ((Argument.literal name).toList ++ endText.toList))) = [] := by
    rw [creationsWhere_cons_of_ne (by decide)]
    show creationsWhere counts .code _ = []
    rw [silent_closingText.creationsWhere, after_closingText, hname, hend]
  have hopened := creationsWhere_code hskips hbraces (fun _ h => h) (by decide : ')' ∉ _)
    (withoutComments closingText.toList ++ ((Argument.literal name).toList ++ endText.toList))
  rw [hclosing] at hopened
  simp only [List.append_assoc, List.cons_append, List.nil_append] at hopened
  have hfound := creation?_content h hbody (')' :: (withoutComments closingText.toList
    ++ ((Argument.literal name).toList ++ endText.toList)))
  rw [hword, List.cons_append] at hfound
  rw [withoutComments_contentText hbody, silent_leadText.creationsWhere, after_leadText, hword,
    List.cons_append, creationsWhere, hfound]
  show (if counts .code then _ else _) ++ creationsWhere counts .code _ = _
  rw [hrest.creationsWhere]
  show _ ++ creationsWhere counts .code _ = _
  rw [hname, hopened, List.append_nil]
  rfl

/-- **One creation** is found in a generated migration. -/
theorem creationsIn_content {name : String} (h : IsName name) {body : List Char}
    (hbody : Code Unmarked isPlain body) :
    creationsIn (withoutComments (contentText name body)) = [⟨name, String.ofList body⟩] := by
  rw [creationsIn_eq .code, creationsWhere_content (fun _ => skips_of_unmarked) h hbody]
  rfl

end Crowsfoot.Migration
