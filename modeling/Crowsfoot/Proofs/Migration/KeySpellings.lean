import Crowsfoot.Proofs.Builder.Continuations
import Crowsfoot.Proofs.Migration.Insertion
import Crowsfoot.Proofs.Migration.Redeclaration

/-!
# Spellings of a foreign key

The key of a column can be declared by `constrained` behind the column, by `references` and `on`
behind the column, or by a `foreign` statement of the table. For typed columns and `foreignId` all of
them create the same table (`key_spellings`).

A `foreignIdFor` column refers to the table of its class. It hears `constrained`, but not what this
names, and it does not hear `references` and `on`; so only a `foreign` statement can give it the key
that is written.
-/

namespace Crowsfoot.Migration

open Crowsfoot.Builder Crowsfoot.Text

/-! ## Chained keys -/

theorem lastCall?_append (method : String) (calls more : List Call) :
    lastCall? method (calls ++ more) = (lastCall? method more).or (lastCall? method calls) := by
  unfold lastCall?
  rw [List.reverse_append, List.find?_append]

theorem chainedKey?_of_lastCall? {calls : List Call} (h : lastCall? "constrained" calls = none)
    (name : String) : chainedKey? name calls = referencedKey? name calls := by
  unfold chainedKey?
  rw [h]
  rfl

theorem chainKey?_of_ne {s : Statement} (hs : s ≠ .foreignIdFor) (call : Call) (calls : List Call)
    (name : String) : chainKey? s call calls name = chainedKey? name calls := by
  cases s with
  | foreignIdFor => exact absurd rfl hs
  | _ => rfl

/-- Calls that modify nothing. -/
theorem applyModifiers_append {calls more : List Call}
    (h : ∀ call ∈ more, Modifier.ofMethod? call.method = none) (c : Column) :
    applyModifiers (calls ++ more) c = applyModifiers calls c := by
  have hsame : ∀ d : Column, more.foldl applyCall d = d := fun d =>
    List.foldlRecOn (motive := fun e => e = d) more applyCall rfl fun e he call hcall => by
      unfold applyCall
      rw [h call hcall]
      exact he
  unfold applyModifiers
  rw [List.foldl_append, hsame]

/-! ## Tables of one column -/

/-- The key that a column declares. -/
def KeyFact.of (column : String) (key : ForeignKey) : KeyFact :=
  { column, on := key.table, references := key.column }

/-- A table with one column and perhaps its key. -/
def oneColumn (name : String) (source : Option String) (c : Column) (key : Option ForeignKey) :
    CreatedTable :=
  { name
    source
    columns := [{ c with foreignKey := key }]
    keys := key.toList.map (KeyFact.of c.name)
    uniqueSets := if c.unique then [[c.name]] else [] }

theorem Underway.attachKeys_eq {t : CreatedTable} (h : Underway t) :
    t.attachKeys = { t with columns := t.columns.map (withFact t.keys) } := by
  rw [← h.columns_attachKeys]
  rfl

/-- A body that states one column, and perhaps its key behind it. -/
theorem ofBody_oneColumn {name body : String} {source : Option String} {s : Statement} {call : Call}
    {calls : List Call} {c : Column} {facts : List KeyFact} {key : Option ForeignKey}
    (hbase : baseColumn? s call = some c)
    (hclauses : CreatedTable.clausesOf (CreatedTable.chains body.toList)
      = .ok (Clause.ofStatement s call calls ++ facts.map Clause.refer))
    (hkey : (chainKey? s call calls c.name).toList ++ facts
      = key.toList.map (KeyFact.of c.name)) :
    CreatedTable.ofBody name body source
      = .ok (oneColumn name source (applyModifiers calls c) key) := by
  have hunderway : Underway (CreatedTable.stateAll { name, source } _) :=
    underway_of_clausesOf hclauses
  have hname := name_applyModifiers calls c
  have hnone : (applyModifiers calls c).foreignKey = none :=
    (foreignKey_applyModifiers calls c).trans (isBaseColumn_of_baseColumn? hbase).key
  refine ofBody_eq_ok.mpr ⟨_, hclauses, ?_⟩
  rw [hunderway.attachKeys_eq, stateAll_append, ofStatement_of_baseColumn? hbase,
    stateAll_columnClauses, stateAll_refer]
  simp only [List.nil_append, hname, hkey]
  have hone : addMissing [] (applyModifiers calls c) = [applyModifiers calls c] := rfl
  rw [hone, List.map_singleton, withFact_eq, hname, hnone, Option.or_none]
  cases key with
  | none => simp [oneColumn, hname]
  | some key => simp [oneColumn, hname, KeyFact.of, KeyFact.target]

/-! ## Written keys -/

/-- The table and the column of a key, in literals. -/
structure WrittenKey extends ForeignKey where
  tableText : String
  columnText : String
  spellsTable : Spells tableText table
  spellsColumn : Spells columnText column
  table_ne : table ≠ ""
  column_ne : column ≠ ""

namespace WrittenKey

variable (k : WrittenKey)

/-- The end of a statement that declares the key by `constrained`. -/
def constrainedText : String :=
  "->constrained(" ++ k.tableText ++ ", " ++ k.columnText ++ ");"

/-- The end of a statement that declares the key by `references` and `on`. -/
def referencesText : String :=
  "->references(" ++ k.columnText ++ ")->on(" ++ k.tableText ++ ");"

/-- The end of a statement, and another that declares the key for a column. -/
def foreignText (name : String) : String :=
  "; $table->foreign(" ++ name ++ ")" ++ k.referencesText

/-- The link of `constrainedText`. -/
def constrainedLinks : List LiteralLink :=
  [⟨"constrained", [(k.tableText, k.table), (k.columnText, k.column)]⟩]

/-- The links of `referencesText`. -/
def referencesLinks : List LiteralLink :=
  [⟨"references", [(k.columnText, k.column)]⟩, ⟨"on", [(k.tableText, k.table)]⟩]

theorem toList_constrainedText :
    k.constrainedText.toList = k.constrainedLinks.flatMap LiteralLink.write ++ [';'] := by
  unfold constrainedText
  simp [constrainedLinks, LiteralLink.write, linkText, LiteralLink.raw, commaList]

theorem toList_referencesText :
    k.referencesText.toList = k.referencesLinks.flatMap LiteralLink.write ++ [';'] := by
  unfold referencesText
  simp [referencesLinks, LiteralLink.write, linkText, LiteralLink.raw, commaList]

theorem toList_foreignText (name s : String) :
    (k.foreignText name).toList = ';' :: (" $table".toList
      ++ ((⟨"foreign", [(name, s)]⟩ :: k.referencesLinks).flatMap LiteralLink.write ++ [';'])) := by
  have hopen : "; $table->foreign(".toList
      = ';' :: (" $table".toList ++ ('-' :: '>' :: ("foreign".toList ++ ['(']))) := by
    decide
  have hforeign : LiteralLink.write ⟨"foreign", [(name, s)]⟩
      = '-' :: '>' :: ("foreign".toList ++ '(' :: (name.toList ++ [')'])) := by
    simp [LiteralLink.write, linkText, LiteralLink.raw, commaList]
  unfold foreignText
  rw [String.toList_append, String.toList_append, String.toList_append, hopen,
    toList_referencesText, List.flatMap_cons, hforeign]
  simp only [List.cons_append, List.append_assoc, List.nil_append]
  rfl

theorem isName_methods :
    IsName "constrained" ∧ IsName "references" ∧ IsName "on" ∧ IsName "foreign" := by
  refine ⟨⟨?_, ?_⟩, ⟨?_, ?_⟩, ⟨?_, ?_⟩, ⟨?_, ?_⟩⟩ <;> decide

/-- What declares a key is no modifier. -/
theorem modifier?_methods : Modifier.ofMethod? "constrained" = none
    ∧ Modifier.ofMethod? "references" = none ∧ Modifier.ofMethod? "on" = none := by
  decide

theorem wellFormed_constrainedLinks : ∀ l ∈ k.constrainedLinks, l.WellFormed :=
  List.forall_mem_singleton.mpr ⟨isName_methods.1,
    List.forall_mem_cons.mpr ⟨k.spellsTable, List.forall_mem_singleton.mpr k.spellsColumn⟩⟩

theorem wellFormed_referencesLinks : ∀ l ∈ k.referencesLinks, l.WellFormed :=
  List.forall_mem_cons.mpr ⟨⟨isName_methods.2.1, List.forall_mem_singleton.mpr k.spellsColumn⟩,
    List.forall_mem_singleton.mpr ⟨isName_methods.2.2.1,
      List.forall_mem_singleton.mpr k.spellsTable⟩⟩

/-! ## What the links declare -/

variable (calls : List Call)

theorem lastCall?_constrainedLinks :
    lastCall? "constrained" (calls ++ k.constrainedLinks.map LiteralLink.call)
      = some (LiteralLink.call
        ⟨"constrained", [(k.tableText, k.table), (k.columnText, k.column)]⟩) := by
  rw [lastCall?_append]
  rfl

theorem chainedKey?_constrainedLinks (name : String) :
    chainedKey? name (calls ++ k.constrainedLinks.map LiteralLink.call)
      = some (.of name k.toForeignKey) := by
  unfold chainedKey? lastLiteral?
  rw [lastCall?_constrainedLinks]
  simp only [Option.isSome_some, if_true, Option.bind_some]
  show some ({ column := name, on := (nonEmpty? (some k.table)).getD _
               references := (nonEmpty? (some k.column)).getD _ } : KeyFact) = _
  rw [nonEmpty?_some k.table_ne, nonEmpty?_some k.column_ne]
  rfl

theorem referencedKey?_referencesLinks (name : String) :
    referencedKey? name (calls ++ k.referencesLinks.map LiteralLink.call)
      = some (.of name k.toForeignKey) := by
  have hon : lastCall? "on" (calls ++ k.referencesLinks.map LiteralLink.call)
      = some (LiteralLink.call ⟨"on", [(k.tableText, k.table)]⟩) := by
    rw [lastCall?_append]
    rfl
  have hreferences : lastCall? "references" (calls ++ k.referencesLinks.map LiteralLink.call)
      = some (LiteralLink.call ⟨"references", [(k.columnText, k.column)]⟩) := by
    rw [lastCall?_append]
    rfl
  unfold referencedKey? lastLiteral?
  rw [hon, hreferences]
  simp only [Option.bind_some]
  show (nonEmpty? (some k.table)).map (fun target : String => ({
    column := name
    on := target
    references := (nonEmpty? (some k.column)).getD "id" } : KeyFact)) = _
  rw [nonEmpty?_some k.table_ne, nonEmpty?_some k.column_ne]
  rfl

end WrittenKey

/-! ## Statements of a column -/

/-- A text that is a statement of one column, up to its semicolon and without a key. -/
structure StatesColumn (text : String) (s : Statement) (call : Call) (calls : List Call)
    (c : Column) : Prop where
  unended : IsUnended text.toList
  isChain : IsChain (withoutComments text.toList)
  readable : chain (withoutComments text.toList) = .ok (call :: calls)
  method : Statement.ofMethod? call.method = some s
  column : baseColumn? s call = some c
  keyless : ∀ other ∈ calls, other.method ∉ ["constrained", "references", "on"]

/-- What stands behind a chain up to the semicolon continues it. -/
theorem chains_literalLinks {lead : List Char} {calls : List Call} (h : IsUnended lead)
    (hchain : IsChain (withoutComments lead)) (hcalls : chain (withoutComments lead) = .ok calls)
    {ls : List LiteralLink} (hls : ∀ l ∈ ls, l.WellFormed) (rest : List Char) :
    CreatedTable.chains (lead ++ (ls.flatMap LiteralLink.write ++ ';' :: rest))
      = .ok (calls ++ ls.map LiteralLink.call) :: CreatedTable.chains rest := by
  have hstart : StartsOutside endsMark (ls.flatMap LiteralLink.write) := by
    cases ls with
    | nil => exact startsOutside_nil
    | cons l ls => exact startsOutside_cons.mpr (by decide)
  unfold CreatedTable.chains
  rw [h.splitAt_append (LiteralLink.inert_writes hls) hstart, List.map_cons,
    hchain.chain_append_literalLinks hcalls hls]

namespace StatesColumn

variable {text : String} {s : Statement} {call : Call} {calls : List Call} {c : Column}
  (h : StatesColumn text s call calls c)
include h

theorem lastCall?_eq_none {method : String}
    (hmethod : method ∈ ["constrained", "references", "on"]) : lastCall? method calls = none :=
  Migration.lastCall?_eq_none fun other hother he => h.keyless other hother (he ▸ hmethod)

theorem chainKey?_eq_none (name : String) : chainKey? s call calls name = none := by
  have hchained : chainedKey? name calls = none := by
    apply chainedKey?_eq_none
    intro other hother
    have hnot := h.keyless other hother
    exact ⟨fun he => hnot (by rw [he]; decide), fun he => hnot (by rw [he]; decide)⟩
  have hclass : lastCall? "constrained" calls = none := h.lastCall?_eq_none (by decide)
  cases s with
  | foreignIdFor =>
    simp only [chainKey?, hclass]
    rfl
  | _ => exact hchained

/-- No call of the statement, and none of `references` and `on`, is `constrained`. -/
theorem lastCall?_referencesLinks (k : WrittenKey) :
    lastCall? "constrained" (calls ++ k.referencesLinks.map LiteralLink.call) = none := by
  rw [lastCall?_append, h.lastCall?_eq_none (by decide), Option.or_none]
  rfl

/-- The table of the statement with links behind it that modify nothing. -/
theorem ofBody_literalLinks {ls : List LiteralLink} (hls : ∀ l ∈ ls, l.WellFormed)
    (hplain : ∀ l ∈ ls, Modifier.ofMethod? l.method = none) {body : String}
    (hbody : body.toList = text.toList ++ (ls.flatMap LiteralLink.write ++ [';']))
    {key : Option ForeignKey}
    (hkey : chainKey? s call (calls ++ ls.map LiteralLink.call) c.name
      = key.map (KeyFact.of c.name))
    (name : String) (source : Option String) :
    CreatedTable.ofBody name body source
      = .ok (oneColumn name source (applyModifiers calls c) key) := by
  have hplain' : ∀ call ∈ ls.map LiteralLink.call, Modifier.ofMethod? call.method = none :=
    List.forall_mem_map.mpr hplain
  have hclauses : CreatedTable.clausesOf (CreatedTable.chains body.toList)
      = .ok (Clause.ofStatement s call (calls ++ ls.map LiteralLink.call)
        ++ [].map Clause.refer) := by
    have hchains := chains_literalLinks h.unended h.isChain h.readable hls []
    rw [hbody, hchains, List.cons_append, ← ofChain_cons h.method]
    rfl
  rw [← applyModifiers_append hplain']
  refine ofBody_oneColumn h.column hclauses ?_
  rw [hkey]
  cases key <;> rfl

section Written

variable (k : WrittenKey) (name : String) (source : Option String)

/-- `constrained` gives the column the key that its statement takes from it. -/
theorem ofBody_constrainedText {key : Option ForeignKey}
    (hkey : chainKey? s call (calls ++ k.constrainedLinks.map LiteralLink.call) c.name
      = key.map (KeyFact.of c.name)) :
    CreatedTable.ofBody name (text ++ k.constrainedText) source
      = .ok (oneColumn name source (applyModifiers calls c) key) := by
  refine h.ofBody_literalLinks k.wellFormed_constrainedLinks ?_ ?_ hkey name source
  · exact List.forall_mem_singleton.mpr WrittenKey.modifier?_methods.1
  · rw [String.toList_append, k.toList_constrainedText]

/-- So do `references` and `on`. -/
theorem ofBody_referencesText {key : Option ForeignKey}
    (hkey : chainKey? s call (calls ++ k.referencesLinks.map LiteralLink.call) c.name
      = key.map (KeyFact.of c.name)) :
    CreatedTable.ofBody name (text ++ k.referencesText) source
      = .ok (oneColumn name source (applyModifiers calls c) key) := by
  refine h.ofBody_literalLinks k.wellFormed_referencesLinks ?_ ?_ hkey name source
  · exact List.forall_mem_cons.mpr ⟨WrittenKey.modifier?_methods.2.1,
      List.forall_mem_singleton.mpr WrittenKey.modifier?_methods.2.2⟩
  · rw [String.toList_append, k.toList_referencesText]

/-- **The key in a statement of the table** is the key of the column, whatever declares the
column. -/
theorem ofBody_foreignText {column : String} (hcolumn : Spells column c.name) :
    CreatedTable.ofBody name (text ++ k.foreignText column) source
      = .ok (oneColumn name source (applyModifiers calls c) (some k.toForeignKey)) := by
  have hlinks : ∀ l ∈ ⟨"foreign", [(column, c.name)]⟩ :: k.referencesLinks, l.WellFormed :=
    List.forall_mem_cons.mpr ⟨⟨WrittenKey.isName_methods.2.2.2,
      List.forall_mem_singleton.mpr hcolumn⟩, k.wellFormed_referencesLinks⟩
  have hvariable : trim (withoutComments " $table".toList) = '$' :: "table".toList := by decide
  have hnocalls : chain (withoutComments " $table".toList) = .ok [] := by
    have hnolinks : links ("table".toList.dropWhile isWord) = [] := links_of_link?_eq_none rfl
    rw [chain_eq hvariable, hnolinks]
    rfl
  have hsecond := chains_literalLinks (by decide) ⟨_, hvariable, .nil⟩ hnocalls hlinks []
  have hfirst := chains_statement h.unended (" $table".toList
    ++ ((⟨"foreign", [(column, c.name)]⟩ :: k.referencesLinks).flatMap LiteralLink.write ++ [';']))
  have hforeign : Clause.ofChain ((⟨"foreign", [(column, c.name)]⟩ :: k.referencesLinks).map
      LiteralLink.call) = [.refer (.of c.name k.toForeignKey)] := by
    have hmethod : Statement.ofMethod? "foreign" = some .foreign := by decide
    rw [List.map_cons, ofChain_cons hmethod]
    exact congrArg (fun key => (key.map Clause.refer).toList)
      (k.referencedKey?_referencesLinks [] c.name)
  have hclauses : CreatedTable.clausesOf (CreatedTable.chains (text ++ k.foreignText column).toList)
      = .ok (Clause.ofStatement s call calls
        ++ [KeyFact.of c.name k.toForeignKey].map Clause.refer) := by
    rw [String.toList_append, k.toList_foreignText column c.name, hfirst, hsecond, h.readable,
      List.nil_append, ← ofChain_cons h.method, List.map_singleton, ← hforeign]
    exact congrArg Except.ok (congrArg _ (List.append_nil _))
  refine ofBody_oneColumn h.column hclauses ?_
  rw [h.chainKey?_eq_none]
  rfl

end Written

end StatesColumn

/-- **The spellings of a key mean the same**, but for the column of a model class. Behind any other
statement of one column without a key, `constrained`, `references` with `on`, and a `foreign`
statement of the table create the same table, whose column has the key that is written. The column of
a class gets it from a `foreign` statement only: `constrained` gives it the key to the class, and
`references` with `on` gives it none. -/
theorem key_spellings {text column : String} {s : Statement} {call : Call} {calls : List Call}
    {c : Column} (h : StatesColumn text s call calls c) (hcolumn : Spells column c.name)
    (k : WrittenKey) (name : String) (source : Option String) :
    CreatedTable.ofBody name (text ++ k.foreignText column) source
        = .ok (oneColumn name source (applyModifiers calls c) (some k.toForeignKey))
      ∧ (s ≠ .foreignIdFor →
        CreatedTable.ofBody name (text ++ k.constrainedText) source
            = CreatedTable.ofBody name (text ++ k.foreignText column) source
          ∧ CreatedTable.ofBody name (text ++ k.referencesText) source
            = CreatedTable.ofBody name (text ++ k.foreignText column) source)
      ∧ (s = .foreignIdFor →
        CreatedTable.ofBody name (text ++ k.constrainedText) source
            = .ok (oneColumn name source (applyModifiers calls c)
              (some { table := Naming.tableName (modelOfClass (call.argument 0)) }))
          ∧ CreatedTable.ofBody name (text ++ k.referencesText) source
            = .ok (oneColumn name source (applyModifiers calls c) none)) := by
  have hforeign := h.ofBody_foreignText k name source hcolumn
  have hnone := h.lastCall?_referencesLinks k
  refine ⟨hforeign, fun hs => ⟨?_, ?_⟩, fun hs => ⟨?_, ?_⟩⟩
  · rw [hforeign]
    apply h.ofBody_constrainedText
    rw [chainKey?_of_ne hs, k.chainedKey?_constrainedLinks]
    rfl
  · rw [hforeign]
    apply h.ofBody_referencesText
    rw [chainKey?_of_ne hs, chainedKey?_of_lastCall? hnone, k.referencedKey?_referencesLinks]
    rfl
  · subst hs
    apply h.ofBody_constrainedText
    simp only [chainKey?, k.lastCall?_constrainedLinks, Option.isSome_some, if_true]
    rfl
  · subst hs
    apply h.ofBody_referencesText
    simp only [chainKey?, hnone]
    rfl

/-! ## Authors who are people -/

/-- A statement with a modifier. -/
def authorText : String :=
  "$table->foreignId(\"author_id\")->nullable()"

/-- Its first link. -/
def authorLink : LiteralLink :=
  ⟨"foreignId", [("\"author_id\"", "author_id")]⟩

theorem spells_author : Spells "'author_id'" "author_id" ∧ Spells "\"author_id\"" "author_id" := by
  refine ⟨⟨'\'', "author_id".toList, ⟨?_, ?_, ?_, ?_⟩, ?_⟩,
    ⟨'"', "author_id".toList, ⟨?_, ?_, ?_, ?_⟩, ?_⟩⟩
  all_goals decide

theorem statesColumn_author : StatesColumn authorText .foreignId authorLink.call
    [LiteralLink.call ⟨"nullable", []⟩]
    { name := "author_id", type := .bigint, nullable := false } := by
  have hlinks : ∀ l ∈ [authorLink, ⟨"nullable", []⟩], l.WellFormed :=
    List.forall_mem_cons.mpr
      ⟨⟨⟨by decide, by decide⟩, List.forall_mem_singleton.mpr spells_author.2⟩,
      List.forall_mem_singleton.mpr ⟨⟨by decide, by decide⟩, by simp⟩⟩
  have htext : withoutComments authorText.toList
      = "$table".toList ++ [authorLink, ⟨"nullable", []⟩].flatMap LiteralLink.write := by
    decide +kernel
  obtain ⟨hchain, hcalls⟩ := isChain_literalLinks hlinks
  rw [← htext] at hchain hcalls
  exact ⟨by decide +kernel, hchain, hcalls, by decide, rfl, by decide⟩

/-- The key to the people. -/
def peopleKey : WrittenKey where
  table := "people"
  column := "uuid"
  tableText := "\"people\""
  columnText := "'uuid'"
  spellsTable := ⟨'"', "people".toList, ⟨by decide, by decide, by decide, by decide⟩, by decide⟩
  spellsColumn := ⟨'\'', "uuid".toList, ⟨by decide, by decide, by decide, by decide⟩, by decide⟩
  table_ne := by decide
  column_ne := by decide

/-- The table that all spellings create. -/
def createdPosts : CreatedTable :=
  { name := "posts"
    columns :=
      [{ name := "author_id", type := .bigint
         foreignKey := some { table := "people", column := "uuid" } }]
    keys := [{ column := "author_id", on := "people", references := "uuid" }] }

theorem key_spellings_author :
    StatesColumn authorText .foreignId authorLink.call [LiteralLink.call ⟨"nullable", []⟩]
        { name := "author_id", type := .bigint, nullable := false }
      ∧ Spells "'author_id'" "author_id"
      ∧ ∀ body ∈ [authorText ++ "->constrained(\"people\", 'uuid');",
          authorText ++ "->references('uuid')->on(\"people\");",
          authorText ++ "; $table->foreign('author_id')->references('uuid')->on(\"people\");"],
        CreatedTable.ofBody "posts" body none = .ok createdPosts := by
  have hname := spells_author.1
  obtain ⟨hforeign, hother, -⟩ := key_spellings statesColumn_author hname peopleKey "posts" none
  obtain ⟨hconstrained, hreferences⟩ := hother (by decide)
  have hposts : oneColumn "posts" none (applyModifiers [LiteralLink.call ⟨"nullable", []⟩]
      { name := "author_id", type := .bigint, nullable := false }) (some peopleKey.toForeignKey)
        = createdPosts := by
    decide
  rw [hposts] at hforeign
  refine ⟨statesColumn_author, hname, List.forall_mem_cons.mpr ⟨hconstrained.trans hforeign,
    List.forall_mem_cons.mpr ⟨hreferences.trans hforeign, List.forall_mem_singleton.mpr hforeign⟩⟩⟩

/-- The key of a class is not the key that is written. -/
theorem foreignIdFor_ignores_target :
    CreatedTable.ofBody "posts"
        "$table->foreignIdFor(User::class, 'author_id')->constrained('people', 'uuid');" none
      ≠ CreatedTable.ofBody "posts"
        ("$table->foreignIdFor(User::class, 'author_id'); "
          ++ "$table->foreign('author_id')->references('uuid')->on('people');") none
    ∧ CreatedTable.ofBody "posts"
        "$table->foreignIdFor(User::class, 'author_id')->references('uuid')->on('people');" none
      ≠ CreatedTable.ofBody "posts"
        ("$table->foreignIdFor(User::class, 'author_id'); "
          ++ "$table->foreign('author_id')->references('uuid')->on('people');") none := by
  decide +kernel

end Crowsfoot.Migration
