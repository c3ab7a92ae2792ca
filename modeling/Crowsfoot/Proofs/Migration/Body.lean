import Crowsfoot.Proofs.Migration.Content

/-!
# The body of a generated migration

The statements of a table, in their order, are chains (`tableLinks`), and the body of its migration
is made of them with blanks between (`bodyParts`). `toList_tableContent` finds this body in the text
of the migration and `readMigration_tableContent` reads it: the result is the table that these
chains make.
-/

namespace Crowsfoot.Migration

open Crowsfoot.Builder Crowsfoot.Text

/-! ## The statements -/

variable (o : Options) (known : Option (List String)) (t : Table)

/-- The constraints that are written. -/
def knownKeys : List (Column × ForeignKey) :=
  (keysOf t).filter fun k => isKnown known k.2

/-- The chain of the unique constraint, if there is one. -/
def uniqueChains : List (List Link) :=
  if (keyNames t).length = 2 then [uniqueLinks (keyNames t)] else []

/-- The chain of the soft deletes, if there are any. -/
def softDeleteChains : List (List Link) :=
  if hasSoftDeletes o t then [[{ method := "softDeletes" }]] else []

/-- The chains of all statements in their order. -/
def tableLinks : List (List Link) :=
  [primaryLinks t] ++ (statedColumns t).map declarationLinks
    ++ (knownKeys known t).map (fun k => keyLinks o k.1 k.2) ++ uniqueChains t
    ++ [[{ method := "timestamps" }]] ++ softDeleteChains o t

/-- The strings that a migration writes as literals, beside the name of its table. -/
def writtenStrings : List String :=
  (tableLinks o known t).flatMap fun ls => ls.flatMap Link.strings

/-- A statement on a line of its own. -/
def lineParts (ls : List Link) : List Part :=
  [.blanks o.indent.toList, .statement ls, .blanks ['\n']]

/-- The body as statements and blanks; an empty line parts the constraints from the columns. -/
def bodyParts : List Part :=
  [.blanks ['\n']] ++ lineParts o (primaryLinks t)
    ++ ((statedColumns t).map declarationLinks).flatMap (lineParts o)
    ++ (if (knownKeys known t).isEmpty then [] else [.blanks ['\n']])
    ++ ((knownKeys known t).map fun k => keyLinks o k.1 k.2).flatMap (lineParts o)
    ++ (uniqueChains t).flatMap (lineParts o)
    ++ [.blanks "            ".toList, .statement [{ method := "timestamps" }], .blanks ['\n']]
    ++ (softDeleteChains o t).flatMap (lineParts o)
    ++ [.blanks marginText.toList]

variable {o known t}

/-! ## The body in the text -/

theorem toList_indented {statement : String} {ls : List Link}
    (h : statement = chainText ls ++ ";") :
    (indented o statement).toList = (lineParts o ls).flatMap Part.write := by
  have hne : statement.isEmpty = false := by
    rw [h, String.isEmpty_eq_false_iff]
    intro he
    have := congrArg String.toList he
    simp at this
  unfold indented
  rw [hne, if_neg Bool.false_ne_true, h]
  simp [lineParts, Part.write]

/-- Lines of statements, as text and as parts. -/
theorem toList_join_indented {α : Type} {f : α → String} {g : α → List Link}
    (h : ∀ x, f x = chainText (g x) ++ ";") (xs : List α) :
    (String.join ((xs.map f).map (indented o))).toList
      = ((xs.map g).flatMap (lineParts o)).flatMap Part.write := by
  induction xs with
  | nil => rfl
  | cons x xs ih =>
    rw [List.map_cons, List.map_cons, List.map_cons, String.join_cons, String.toList_append, ih,
      toList_indented (h x), List.flatMap_cons, List.flatMap_append]

theorem toList_join_uniqueStatements :
    (String.join ((uniqueStatements t).map (indented o))).toList
      = ((uniqueChains t).flatMap (lineParts o)).flatMap Part.write := by
  unfold uniqueStatements uniqueChains
  dsimp only
  split
  · rw [List.map_cons, List.map_nil, String.join_cons, String.join_nil, String.append_empty,
      toList_indented (uniqueStatement_eq (keyNames t)), List.flatMap_cons, List.flatMap_nil,
      List.append_nil]
  · rfl

/-- The lines between the primary key and the timestamps. -/
def statementLines (o : Options) (known : Option (List String)) (t : Table) : List String :=
  (statedColumns t).map columnStatement
    ++ (if (knownKeys known t).isEmpty then []
      else "" :: (knownKeys known t).map fun k => keyStatement o k.1 k.2)
    ++ uniqueStatements t

theorem statements_eq_ok {ss : List String} (h : statements o known t = .ok ss) :
    ss = statementLines o known t := by
  unfold statements at h
  dsimp only at h
  split at h
  · exact absurd h (by simp)
  · rw [← Except.ok.inj h]
    unfold statementLines keyStatements knownKeys
    rw [List.isEmpty_map]

theorem toList_join_keyLines :
    (String.join ((if (knownKeys known t).isEmpty then []
        else "" :: (knownKeys known t).map fun k => keyStatement o k.1 k.2).map
          (indented o))).toList
      = ((if (knownKeys known t).isEmpty then [] else [Part.blanks ['\n']])
        ++ ((knownKeys known t).map fun k => keyLinks o k.1 k.2).flatMap (lineParts o)).flatMap
          Part.write := by
  cases hk : knownKeys known t with
  | nil => rfl
  | cons k ks =>
    have hlines := toList_join_indented (o := o) (fun k : Column × ForeignKey => keyStatement_eq o k.1 k.2)
      (k :: ks)
    have hempty : (indented o "").toList = ['\n'] := by simp [indented]
    rw [List.isEmpty_cons, if_neg Bool.false_ne_true, if_neg Bool.false_ne_true, List.map_cons,
      String.join_cons, String.toList_append, hlines, List.flatMap_append, hempty]
    rfl

/-- The lines of columns, keys and unique constraints are their statements. -/
theorem toList_join_statementLines :
    (String.join ((statementLines o known t).map (indented o))).toList
      = (((statedColumns t).map declarationLinks).flatMap (lineParts o)).flatMap Part.write
        ++ (((if (knownKeys known t).isEmpty then [] else [Part.blanks ['\n']])
          ++ ((knownKeys known t).map fun k => keyLinks o k.1 k.2).flatMap (lineParts o)).flatMap
            Part.write
        ++ ((uniqueChains t).flatMap (lineParts o)).flatMap Part.write) := by
  have hstated := toList_join_indented (o := o) (f := columnStatement) (g := declarationLinks)
    (fun c => by rw [columnStatement, declaration_eq]) (statedColumns t)
  unfold statementLines
  rw [List.map_append, List.map_append, String.join_append, String.join_append,
    String.toList_append, String.toList_append, hstated, toList_join_keyLines,
    toList_join_uniqueStatements, List.append_assoc]

theorem toList_softDeletesText :
    (if hasSoftDeletes o t then o.indent ++ "$table->softDeletes();\n" else "").toList
      = ((softDeleteChains o t).flatMap (lineParts o)).flatMap Part.write := by
  have hchain : "$table->softDeletes();\n"
      = chainText [{ method := "softDeletes" }] ++ ";" ++ "\n" := rfl
  unfold softDeleteChains
  split
  · rw [hchain]
    simp [lineParts, Part.write]
  · rfl

theorem toList_timestampsText :
    timestampsText.toList
      = [.blanks "            ".toList, .statement [{ method := "timestamps" }],
          .blanks ['\n']].flatMap Part.write := by
  decide

section Slots

variable {columns : List String}

theorem pieceText_table :
    [Template.Piece.slot "table"].flatMap (pieceText (sections o t columns))
      = t.storageName.toList := by
  simp [pieceText, sections]

theorem pieceText_columns :
    [Template.Piece.slot "primary", .slot "columns"].flatMap (pieceText (sections o t columns))
      = (indented o (primaryStatement t)).toList
        ++ (String.join (columns.map (indented o))).toList := by
  have hfirst : ("primary" == "table") = false := by decide
  have hsecond : ("columns" == "table") = false := by decide
  have hthird : ("columns" == "primary") = false := by decide
  simp [pieceText, sections, List.lookup_cons, hfirst, hsecond, hthird, -String.toList_join]

theorem pieceText_softDeletes :
    [Template.Piece.slot "soft_deletes"].flatMap (pieceText (sections o t columns))
      = (if hasSoftDeletes o t then o.indent ++ "$table->softDeletes();\n" else "").toList := by
  have hfirst : ("soft_deletes" == "table") = false := by decide
  have hsecond : ("soft_deletes" == "primary") = false := by decide
  have hthird : ("soft_deletes" == "columns") = false := by decide
  simp [pieceText, sections, List.lookup_cons, hfirst, hsecond, hthird]

end Slots

/-- **The body** is in the content of a migration, around it the fixed text. -/
theorem toList_fillSkeleton (hname : IsName t.storageName) :
    (fillSkeleton (sections o t (statementLines o known t))).toList
      = contentText t.storageName ((bodyParts o known t).flatMap Part.write) := by
  rw [toList_fillSkeleton_pieces, skeleton_eq]
  unfold contentText bodyParts
  simp only [List.flatMap_append, flatMap_char, toList_literal_name hname, pieceText_table,
    pieceText_columns, pieceText_softDeletes, toList_indented (primaryStatement_eq t),
    toList_join_statementLines, toList_softDeletesText, toList_timestampsText]
  simp only [List.append_assoc, List.cons_append, List.nil_append, List.flatMap_cons,
    List.flatMap_nil, Part.write]

/-! ## Reading the body -/

/-- Statements and blanks state what the statements do, one after another. -/
theorem clausesOf_parts {parts : List Part} (h : ∀ p ∈ parts, p.WellFormed) :
    CreatedTable.clausesOf (CreatedTable.chains (parts.flatMap Part.write))
      = .ok ((parts.filterMap Part.statement?).flatMap fun ls =>
          Clause.ofChain (ls.map Link.call)) := by
  have hcode : Code (fun _ => True) isPlain (parts.flatMap Part.write) :=
    code_parts h fun _ _ _ _ _ _ => trivial
  have hnone : ∀ c ∈ ([] : List Char), isBlank c = true := by simp
  have hread := mapM_chain_parts h hnone
  rw [List.nil_append] at hread
  have hchains : ((splitAt ';' (parts.flatMap Part.write)).map chain).mapM id
      = .ok ((parts.filterMap Part.statement?).map (List.map Link.call) ++ [[]]) := by
    rw [List.mapM_map]
    exact hread
  have hflat : ((parts.filterMap Part.statement?).map (List.map Link.call) ++ [[]]).flatMap
      Clause.ofChain
        = (parts.filterMap Part.statement?).flatMap fun ls => Clause.ofChain (ls.map Link.call) := by
    rw [List.flatMap_append, List.flatMap_map]
    exact List.append_nil _
  unfold CreatedTable.clausesOf CreatedTable.chains
  rw [hcode.inertInside.withoutComments_self, hchains, ← hflat]
  rfl

theorem filterMap_lineParts (xss : List (List Link)) :
    (xss.flatMap (lineParts o)).filterMap Part.statement? = xss := by
  induction xss with
  | nil => rfl
  | cons xs xss ih =>
    rw [List.flatMap_cons, List.filterMap_append, ih]
    rfl

/-- The statements of the body are those of the table. -/
theorem filterMap_bodyParts :
    (bodyParts o known t).filterMap Part.statement? = tableLinks o known t := by
  have hempty : (if (knownKeys known t).isEmpty then [] else [Part.blanks ['\n']]).filterMap
      Part.statement? = [] := by
    split <;> rfl
  have hprimary : (lineParts o (primaryLinks t)).filterMap Part.statement? = [primaryLinks t] := rfl
  unfold bodyParts tableLinks
  simp only [List.filterMap_append, filterMap_lineParts, hempty, hprimary, List.append_nil,
    List.filterMap_cons, List.filterMap_nil, Part.statement?, List.nil_append]

theorem isName_declarationLinks (c : Column) : ∀ l ∈ declarationLinks c, IsName l.method := by
  intro l hl
  rcases List.mem_cons.mp hl with rfl | hl
  · exact (declaringMethod_leads_back c).2
  · rcases methods_modifiers c l.call (List.mem_map_of_mem hl) with h | h
    · rw [show l.method = "nullable" from h]
      decide
    · rw [show l.method = "comment" from h]
      decide

theorem isName_primaryLinks (t : Table) : ∀ l ∈ primaryLinks t, IsName l.method := by
  have hid : ∀ l ∈ [({ method := "id" } : Link)], IsName l.method := by
    intro l hl
    rw [List.mem_singleton.mp hl]
    decide
  unfold primaryLinks
  cases t.primary? with
  | none => exact hid
  | some c =>
    dsimp only
    split
    · exact hid
    · cases hm : c.type.incrementMethod? with
      | some method =>
        intro l hl
        rw [List.mem_singleton.mp hl]
        exact (incrementMethod_leads_back hm).2
      | none =>
        intro l hl
        rcases List.mem_append.mp hl with hl | hl
        · exact isName_declarationLinks c l hl
        · rw [List.mem_singleton.mp hl]
          decide

/-- The methods of all statements are names. -/
theorem isName_tableLinks : ∀ ls ∈ tableLinks o known t, ∀ l ∈ ls, IsName l.method := by
  intro ls hls
  unfold tableLinks at hls
  simp only [List.mem_append, List.mem_singleton, List.mem_map] at hls
  rcases hls with ((((rfl | ⟨c, -, rfl⟩) | ⟨k, -, rfl⟩) | hls) | rfl) | hls
  · exact isName_primaryLinks t
  · exact isName_declarationLinks c
  · have hall : ∀ m ∈ ["foreign", "references", "on", "onDelete"], IsName m := by decide
    exact fun l hl => hall l.method (List.mem_map_of_mem (f := Link.method) hl)
  · unfold uniqueChains at hls
    split at hls
    · intro l hl
      rw [List.mem_singleton.mp hls] at hl
      rw [List.mem_singleton.mp hl]
      exact (by decide : IsName "unique")
    · exact absurd hls (by simp)
  · intro l hl
    rw [List.mem_singleton.mp hl]
    decide
  · unfold softDeleteChains at hls
    split at hls
    · intro l hl
      rw [List.mem_singleton.mp hls] at hl
      rw [List.mem_singleton.mp hl]
      decide
    · exact absurd hls (by simp)

section Reading

variable (hindent : ∀ c ∈ o.indent.toList, isBlank c = true)
include hindent

theorem wellFormed_lineParts {ls : List Link} (h : ∀ l ∈ ls, IsName l.method) :
    ∀ p ∈ lineParts o ls, p.WellFormed := by
  intro p hp
  simp only [lineParts, List.mem_cons, List.not_mem_nil, or_false] at hp
  rcases hp with rfl | rfl | rfl
  · exact hindent
  · exact h
  · exact (by decide : ∀ c ∈ ['\n'], isBlank c = true)

theorem wellFormed_bodyParts : ∀ p ∈ bodyParts o known t, p.WellFormed := by
  have hlines : ∀ xss : List (List Link), (∀ ls ∈ xss, ls ∈ tableLinks o known t) →
      ∀ p ∈ xss.flatMap (lineParts o), p.WellFormed := by
    intro xss hxss p hp
    obtain ⟨ls, hls, hp⟩ := List.mem_flatMap.mp hp
    exact wellFormed_lineParts hindent (isName_tableLinks ls (hxss ls hls)) p hp
  have hnewline : (Part.blanks ['\n']).WellFormed :=
    (by decide : ∀ c ∈ ['\n'], isBlank c = true)
  have hmargin : ∀ c ∈ marginText.toList, isBlank c = true := by decide
  have htimestamps : (Part.statement [{ method := "timestamps" }]).WellFormed := by
    intro l hl
    rw [List.mem_singleton.mp hl]
    decide
  have hstamps : ∀ c ∈ "            ".toList, isBlank c = true := by decide
  intro p hp
  unfold bodyParts at hp
  simp only [List.mem_append, List.mem_cons, List.not_mem_nil, or_false] at hp
  rcases hp with (((((((rfl | hp) | hp) | hp) | hp) | hp) | (rfl | rfl | rfl)) | hp) | rfl
  · exact hnewline
  · exact wellFormed_lineParts hindent (isName_primaryLinks t) p hp
  · exact hlines _ (by simp +contextual [tableLinks]) p hp
  · split at hp
    · exact absurd hp (by simp)
    · rw [List.mem_singleton.mp hp]
      exact hnewline
  · exact hlines _ (by simp +contextual [tableLinks]) p hp
  · exact hlines _ (by simp +contextual [tableLinks]) p hp
  · exact hstamps
  · exact htimestamps
  · exact hnewline
  · exact hlines _ (by simp +contextual [tableLinks]) p hp
  · exact hmargin

/-- The body is code around the strings that it writes. -/
theorem code_body {held : String → Prop} (hheld : ∀ s ∈ writtenStrings o known t, held s) :
    Code held isPlain ((bodyParts o known t).flatMap Part.write) := by
  apply code_parts (wellFormed_bodyParts hindent)
  intro ls hls l hl s hs
  rw [filterMap_bodyParts] at hls
  exact hheld s (List.mem_flatMap.mpr ⟨ls, hls, List.mem_flatMap.mpr ⟨l, hl, hs⟩⟩)

/-- The clauses that the statements of a table state. -/
theorem clausesOf_body {body : List Char}
    (hbody : body = (bodyParts o known t).flatMap Part.write) :
    CreatedTable.clausesOf (CreatedTable.chains body)
      = .ok ((tableLinks o known t).flatMap fun ls => Clause.ofChain (ls.map Link.call)) := by
  rw [hbody, clausesOf_parts (wellFormed_bodyParts hindent), filterMap_bodyParts]

/-- The table that the statements of the body state. -/
theorem ofBody_body (name : String) (source : Option String) :
    CreatedTable.ofBody name (String.ofList ((bodyParts o known t).flatMap Part.write)) source
      = .ok (CreatedTable.stateAll { name, source }
          ((tableLinks o known t).flatMap fun ls => Clause.ofChain (ls.map Link.call))).attachKeys := by
  have hclauses : CreatedTable.clausesOf
      (CreatedTable.chains ((bodyParts o known t).flatMap Part.write)) = _ :=
    clausesOf_body hindent rfl
  unfold CreatedTable.ofBody
  rw [String.toList_ofList, hclauses]
  rfl

/-- **A generated migration creates one table**, the one that its statements state. -/
theorem readMigration_body (hname : IsName t.storageName)
    (hunmarked : ∀ s ∈ writtenStrings o known t, Unmarked s) (source : Option String) :
    readMigration (fillSkeleton (sections o t (statementLines o known t))) source
      = .ok [(CreatedTable.stateAll { name := t.storageName, source }
          ((tableLinks o known t).flatMap fun ls => Clause.ofChain (ls.map Link.call))).attachKeys] := by
  unfold readMigration
  rw [toList_fillSkeleton hname, creationsIn_content hname (code_body hindent hunmarked),
    List.mapM_cons, ofBody_body hindent]
  rfl

end Reading

end Crowsfoot.Migration
