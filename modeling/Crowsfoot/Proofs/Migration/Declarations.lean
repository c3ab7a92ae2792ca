import Crowsfoot.Migration.CreatedTable
import Crowsfoot.Migration.Writer
import Crowsfoot.Proofs.Builder.Chains

/-!
# Written statements state what they are written for

Every statement of a generated migration is a chain (`declaration_eq`, `primaryStatement_eq`,
`keyStatement_eq`, `uniqueStatements_eq`), and the clauses that are read from it are known:

* `ofChain_declaration`: a column's declaration states `writtenColumn`, what a migration can say of
  the column;
* `ofChain_primary`: the first statement states `writtenPrimary`, the primary key;
* `ofChain_key`, `ofChain_unique`: the constraints state the key and the set of columns.

The vocabulary of the writer leads back to that of the reader (`declaringMethod_leads_back`,
`incrementMethod_leads_back`).
-/

namespace Crowsfoot.Migration

open Crowsfoot.Builder Crowsfoot.Text

/-! ## The vocabulary leads back -/

theorem builderMethod_leads_back (t : ColumnType) :
    Statement.ofMethod? t.builderMethod = some (.typed t false) ∧ IsName t.builderMethod := by
  cases t <;> decide

theorem unsignedMethod_leads_back {t : ColumnType} {m : String} (h : t.unsignedMethod? = some m) :
    Statement.ofMethod? m = some (.typed t true) ∧ IsName m := by
  have hall : t.unsignedMethod?.all (fun m =>
      decide (Statement.ofMethod? m = some (.typed t true) ∧ IsName m)) = true := by
    cases t <;> decide
  rw [h, Option.all_some] at hall
  exact of_decide_eq_true hall

theorem incrementMethod_leads_back {t : ColumnType} {m : String} (h : t.incrementMethod? = some m) :
    Statement.ofMethod? m = some (.increments t) ∧ IsName m := by
  have hall : t.incrementMethod?.all (fun m =>
      decide (Statement.ofMethod? m = some (.increments t) ∧ IsName m)) = true := by
    cases t <;> decide
  rw [h, Option.all_some] at hall
  exact of_decide_eq_true hall

/-- Whether a column is declared by an unsigned method. -/
def isUnsigned (c : Column) : Bool :=
  (c.unsigned || (c.foreignKey.isSome && c.type == .bigint)) && c.type.unsignedMethod?.isSome

/-- The method that declares a column is read as its type, and its sign. -/
theorem declaringMethod_leads_back (c : Column) :
    Statement.ofMethod? (declaringMethod c) = some (.typed c.type (isUnsigned c))
      ∧ IsName (declaringMethod c) := by
  unfold declaringMethod isUnsigned
  cases hsign : (c.unsigned || (c.foreignKey.isSome && c.type == .bigint)) with
  | false => exact builderMethod_leads_back c.type
  | true =>
    cases hm : c.type.unsignedMethod? with
    | none => exact builderMethod_leads_back c.type
    | some m => exact unsignedMethod_leads_back hm

/-! ## Statements as chains -/

/-- What a declaration passes after the name of the column. -/
def parameterValues (c : Column) : List Value :=
  match c.type with
  | .decimal =>
    match c.precision, c.scale with
    | some precision, some scale => [.int precision, .int scale]
    | some precision, none => [.int precision]
    | none, _ => []
  | .varchar | .char =>
    match c.size with
    | some size => [.int size]
    | none => []
  | .enum => [.texts c.enumValues]
  | _ => []

/-- The link that makes a column nullable. -/
def nullableLinks (c : Column) : List Link :=
  if c.nullable && !c.primary then [{ method := "nullable" }] else []

/-- The link with the comment of a column, unless that is empty. -/
def commentLinks (c : Column) : List Link :=
  match nonEmpty? c.comment with
  | some comment => [{ method := "comment", values := [.text comment] }]
  | none => []

/-- The link that declares a column. -/
def declaringLink (c : Column) : Link :=
  { method := declaringMethod c, values := .text c.name :: parameterValues c }

/-- The links of a column's declaration. -/
def declarationLinks (c : Column) : List Link :=
  declaringLink c :: (nullableLinks c ++ commentLinks c)

/-- The links of the statement that declares the primary key. -/
def primaryLinks (t : Table) : List Link :=
  match t.primary? with
  | none => [{ method := "id" }]
  | some c =>
    if c.name == "id" && c.type == .bigint then [{ method := "id" }]
    else
      match c.type.incrementMethod? with
      | some method => [{ method, values := [.text c.name] }]
      | none => declarationLinks c ++ [{ method := "primary" }]

/-- The links of a foreign key constraint. -/
def keyLinks (o : Options) (c : Column) (key : ForeignKey) : List Link :=
  [{ method := "foreign", values := [.text c.name] },
    { method := "references", values := [.text key.column] },
    { method := "on", values := [.text key.table] },
    { method := "onDelete", values := [.text o.onDelete] }]

/-- The links of a unique constraint. -/
def uniqueLinks (names : List String) : List Link :=
  [{ method := "unique", values := [.texts names] }]

theorem arguments_eq (c : Column) :
    Argument.literal c.name ++ parameterText c
      = commaList ((Value.text c.name :: parameterValues c).map Value.write) := by
  have hone : ∀ n : Int, Argument.literal c.name ++ (", " ++ toString n)
      = commaList ((Value.text c.name :: [.int n]).map Value.write) := by
    intro n
    simp [commaList, Value.write, String.intercalate_cons_cons, String.append_assoc]
  unfold parameterText parameterValues
  cases c.type
  case decimal =>
    cases c.precision with
    | none => simp [commaList, Value.write]
    | some precision =>
      cases c.scale with
      | none => exact hone precision
      | some scale =>
        simp [commaList, Value.write, String.intercalate_cons_cons, String.append_assoc]
  case varchar =>
    cases c.size with
    | none => simp [commaList, Value.write]
    | some size => exact hone size
  case char =>
    cases c.size with
    | none => simp [commaList, Value.write]
    | some size => exact hone size
  case enum =>
    have hopen : ∀ s, ", [" ++ s = ", " ++ ("[" ++ s) := by
      intro s
      have hjoin : ", " ++ "[" = ", [" := rfl
      rw [← hjoin, String.append_assoc]
    simp only [commaList, Value.write, List.map_cons, List.map_nil, String.intercalate_cons_cons,
      String.intercalate_singleton, String.append_assoc]
    rw [hopen]
  all_goals simp [commaList, Value.write]

theorem declaration_eq (c : Column) : declaration c = chainText (declarationLinks c) := by
  have hfirst : "$table->" ++ declaringMethod c ++ "(" ++ Argument.literal c.name ++ parameterText c
      ++ ")" = "$table" ++ (declaringLink c).write := by
    have harrow : "$table->" = "$table" ++ "->" := rfl
    unfold Link.write Link.raw declaringLink
    rw [← arguments_eq, harrow]
    simp only [String.append_assoc]
  have hnullable : (if c.nullable && !c.primary then "->nullable()" else "")
      = String.join ((nullableLinks c).map Link.write) := by
    unfold nullableLinks
    split <;> rfl
  have hcomment : (match nonEmpty? c.comment with
        | some comment => "->comment(" ++ Argument.literal comment ++ ")"
        | none => "") = String.join ((commentLinks c).map Link.write) := by
    unfold commentLinks
    cases nonEmpty? c.comment with
    | none => rfl
    | some comment =>
      have hopen : "->comment(" = "->" ++ "comment" ++ "(" := rfl
      simp [Link.write, Link.raw, commaList, Value.write, hopen]
  unfold declaration chainText declarationLinks
  rw [hfirst, hnullable]
  show _ ++ _ ++ (match nonEmpty? c.comment with
    | some comment => "->comment(" ++ Argument.literal comment ++ ")"
    | none => "") = _
  rw [hcomment, List.map_cons, List.map_append, String.join_cons, String.join_append]
  simp only [String.append_assoc]

theorem chainText_append (ls ms : List Link) :
    chainText (ls ++ ms) = chainText ls ++ String.join (ms.map Link.write) := by
  unfold chainText
  rw [List.map_append, String.join_append, String.append_assoc]

theorem primaryStatement_eq (t : Table) :
    primaryStatement t = chainText (primaryLinks t) ++ ";" := by
  unfold primaryStatement primaryLinks
  cases t.primary? with
  | none => rfl
  | some c =>
    dsimp only
    split
    · rfl
    · cases c.type.incrementMethod? with
      | some method =>
        have harrow : "$table->" = "$table" ++ "->" := rfl
        have hclose : ");" = ")" ++ ";" := rfl
        unfold chainText
        dsimp only
        rw [harrow, hclose]
        simp only [List.map_cons, List.map_nil, String.join_cons, String.join_nil, Link.write,
          Link.raw, commaList, Value.write, String.intercalate_singleton, String.append_assoc,
          String.append_empty]
      | none =>
        have hclose : "->primary();" = String.join ([({ method := "primary" } : Link)].map Link.write)
          ++ ";" := rfl
        dsimp only
        rw [chainText_append, declaration_eq, hclose, String.append_assoc]

theorem keyStatement_eq (o : Options) (c : Column) (key : ForeignKey) :
    keyStatement o c key = chainText (keyLinks o c key) ++ ";" := by
  have hforeign : "$table->foreign(" = "$table" ++ ("->" ++ ("foreign" ++ "(")) := rfl
  have hreferences : ")->references(" = ")" ++ ("->" ++ ("references" ++ "(")) := rfl
  have hon : ")->on(" = ")" ++ ("->" ++ ("on" ++ "(")) := rfl
  have hdelete : ")->onDelete(" = ")" ++ ("->" ++ ("onDelete" ++ "(")) := rfl
  have hclose : ");" = ")" ++ ";" := rfl
  unfold keyStatement chainText keyLinks
  rw [hforeign, hreferences, hon, hdelete, hclose]
  simp only [List.map_cons, List.map_nil, String.join_cons, String.join_nil, Link.write, Link.raw,
    commaList, Value.write, String.intercalate_singleton, String.append_assoc, String.append_empty]

theorem uniqueStatement_eq (names : List String) :
    "$table->unique([" ++ commaList (names.map Argument.literal) ++ "]);"
      = chainText (uniqueLinks names) ++ ";" := by
  have hunique : "$table->unique([" = "$table" ++ ("->" ++ ("unique" ++ ("(" ++ "["))) := rfl
  have hclose : "]);" = "]" ++ (")" ++ ";") := rfl
  unfold chainText uniqueLinks
  rw [hunique, hclose]
  simp only [List.map_cons, List.map_nil, String.join_cons, String.join_nil, Link.write, Link.raw,
    commaList, Value.write, String.intercalate_singleton, String.append_assoc, String.append_empty]

/-! ## What is read from them -/

/-- What a migration says of a column. -/
def writtenColumn (c : Column) : Column :=
  { name := c.name
    type := c.type
    size := if c.type = .varchar ∨ c.type = .char then c.size else none
    precision := if c.type = .decimal then c.precision else none
    scale := if c.type = .decimal ∧ c.precision.isSome then c.scale else none
    nullable := c.nullable && !c.primary
    comment := nonEmpty? c.comment
    enumValues := if c.type = .enum then c.enumValues else []
    unsigned := isUnsigned c
    minimum := if isUnsigned c then some 0 else none }

/-- A column as the primary key. -/
def asPrimary (c : Column) : Column :=
  { c with primary := true, nullable := false }

/-- The primary key that a migration states: the primary column, of which an integer keeps its name
and type, or else the conventional `id`. -/
def writtenPrimary (t : Table) : Column :=
  match t.primary? with
  | none => asPrimary { name := "id", type := .bigint }
  | some c =>
    if c.type.incrementMethod?.isSome then asPrimary { name := c.name, type := c.type }
    else asPrimary (writtenColumn c)

/-- The column that the first call of a declaration makes. -/
theorem typedColumn_call (c : Column) :
    typedColumn c.type (isUnsigned c) (declaringLink c).call c.name
      = { writtenColumn c with nullable := false, comment := none } := by
  unfold typedColumn writtenColumn declaringLink parameterValues Link.call Call.argument
  cases c.type
  case decimal =>
    cases c.precision with
    | none => cases isUnsigned c <;> rfl
    | some precision => cases c.scale <;> cases isUnsigned c <;> rfl
  case varchar => cases c.size <;> cases isUnsigned c <;> rfl
  case char => cases c.size <;> cases isUnsigned c <;> rfl
  case enum =>
    have hshown : ∀ vs : List String, (vs.map Argument.text).map Argument.shown = vs := by
      intro vs
      rw [List.map_map]
      exact (List.map_congr_left fun _ _ => rfl).trans (List.map_id vs)
    simp only [List.map_cons, List.map_nil, Value.argument]
    cases isUnsigned c <;> simp [hshown]
  all_goals cases isUnsigned c <;> rfl

theorem applyCall_nullable (d : Column) :
    applyCall d (Link.call { method := "nullable" }) = { d with nullable := true } := by
  have hmethod : Modifier.ofMethod? "nullable" = some .nullable := by decide
  have hshown : (Text.lowered Argument.missing.shown != "false") = true := by decide
  unfold applyCall
  simp only [Link.call, hmethod, Modifier.apply, Call.argument, List.map_nil, List.getD_nil, hshown]

theorem applyCall_comment (d : Column) (comment : String) :
    applyCall d (Link.call { method := "comment", values := [.text comment] })
      = { d with comment := some comment } := by
  have hmethod : Modifier.ofMethod? "comment" = some .comment := by decide
  unfold applyCall
  simp only [Link.call, hmethod]
  rfl

/-- The modifiers of a declaration give the column back what its first call cannot. -/
theorem applyModifiers_declaration (c d : Column) (hnull : d.nullable = false)
    (hcomment : d.comment = none) :
    applyModifiers ((nullableLinks c ++ commentLinks c).map Link.call) d
      = { d with nullable := c.nullable && !c.primary, comment := nonEmpty? c.comment } := by
  have hnullable : applyModifiers ((nullableLinks c).map Link.call) d
      = { d with nullable := c.nullable && !c.primary } := by
    unfold nullableLinks
    cases hn : (c.nullable && !c.primary) with
    | false =>
      have hself : { d with nullable := false } = d := by rw [← hnull]
      exact hself.symm
    | true => exact applyCall_nullable d
  have hcommented : ∀ e : Column, e.comment = none →
      applyModifiers ((commentLinks c).map Link.call) e
        = { e with comment := nonEmpty? c.comment } := by
    intro e he
    unfold commentLinks
    cases nonEmpty? c.comment with
    | none =>
      have hself : { e with comment := none } = e := by rw [← he]
      exact hself.symm
    | some comment => exact applyCall_comment e comment
  unfold applyModifiers at hnullable hcommented ⊢
  rw [List.map_append, List.foldl_append, hnullable]
  exact hcommented _ hcomment

theorem lastCall?_eq_none {method : String} {calls : List Call}
    (h : ∀ call ∈ calls, call.method ≠ method) : lastCall? method calls = none := by
  unfold lastCall?
  rw [List.find?_eq_none]
  intro call hcall
  simpa using h call (List.mem_reverse.mp hcall)

/-- No key is chained to a declaration. -/
theorem chainedKey?_eq_none {column : String} {calls : List Call}
    (h : ∀ call ∈ calls, call.method ≠ "constrained" ∧ call.method ≠ "on") :
    chainedKey? column calls = none := by
  have hconstrained := lastCall?_eq_none fun call hcall => (h call hcall).1
  have hon := lastCall?_eq_none fun call hcall => (h call hcall).2
  unfold chainedKey? referencedKey? lastLiteral?
  rw [hconstrained, hon]
  rfl

theorem methods_modifiers (c : Column) :
    ∀ call ∈ (nullableLinks c ++ commentLinks c).map Link.call,
      call.method = "nullable" ∨ call.method = "comment" := by
  intro call hcall
  obtain ⟨l, hl, rfl⟩ := List.mem_map.mp hcall
  rcases List.mem_append.mp hl with hl | hl
  · unfold nullableLinks at hl
    split at hl
    · rw [List.mem_singleton.mp hl]
      exact Or.inl rfl
    · exact absurd hl (by simp)
  · unfold commentLinks at hl
    split at hl
    · rw [List.mem_singleton.mp hl]
      exact Or.inr rfl
    · exact absurd hl (by simp)

theorem ofChain_cons {call : Call} {calls : List Call} {s : Statement}
    (h : Statement.ofMethod? call.method = some s) :
    Clause.ofChain (call :: calls) = Clause.ofStatement s call calls := by
  simp only [Clause.ofChain, h]

/-- A declaration with more calls chained to it. -/
theorem ofChain_declaration_append (c : Column) (more : List Link)
    (hmore : ∀ l ∈ more, l.method ≠ "constrained" ∧ l.method ≠ "on") :
    Clause.ofChain ((declarationLinks c ++ more).map Link.call)
      = columnClauses (applyModifiers (more.map Link.call) (writtenColumn c)) none := by
  have hkey : chainedKey? c.name ((nullableLinks c ++ commentLinks c ++ more).map Link.call)
      = none := by
    apply chainedKey?_eq_none
    intro call hcall
    rw [List.map_append] at hcall
    rcases List.mem_append.mp hcall with hcall | hcall
    · rcases methods_modifiers c call hcall with h | h <;> rw [h] <;> decide
    · obtain ⟨l, hl, rfl⟩ := List.mem_map.mp hcall
      exact hmore l hl
  have hfirst : applyModifiers ((nullableLinks c ++ commentLinks c).map Link.call)
      { writtenColumn c with nullable := false, comment := none } = writtenColumn c :=
    applyModifiers_declaration c { writtenColumn c with nullable := false, comment := none } rfl rfl
  have hcolumn : applyModifiers ((nullableLinks c ++ commentLinks c ++ more).map Link.call)
      { writtenColumn c with nullable := false, comment := none }
      = applyModifiers (more.map Link.call) (writtenColumn c) := by
    unfold applyModifiers at hfirst ⊢
    rw [List.map_append, List.foldl_append, hfirst]
  have hname : ((declaringLink c).call.argument 0).text? = some c.name := rfl
  unfold declarationLinks
  rw [List.cons_append, List.map_cons, ofChain_cons (declaringMethod_leads_back c).1]
  simp only [Clause.ofStatement, hname, chainedColumn, typedColumn_call, hcolumn]
  show columnClauses _ (chainedKey? c.name _) = _
  rw [hkey]

/-- **A column's declaration states the column**, as far as a migration can say it. -/
theorem ofChain_declaration (c : Column) :
    Clause.ofChain ((declarationLinks c).map Link.call) = [.declare (writtenColumn c)] := by
  have hchain := ofChain_declaration_append c [] (by simp)
  rw [List.append_nil] at hchain
  rw [hchain]
  rfl

theorem ofChain_declaration_primary (c : Column) :
    Clause.ofChain ((declarationLinks c ++ [({ method := "primary" } : Link)]).map Link.call)
      = [.declare (asPrimary (writtenColumn c))] := by
  have hmethod : Modifier.ofMethod? "primary" = some .primary := by decide
  have happly : applyModifiers ([({ method := "primary" } : Link)].map Link.call) (writtenColumn c)
      = asPrimary (writtenColumn c) := by
    show applyCall (writtenColumn c) (Link.call { method := "primary" }) = _
    unfold applyCall
    simp only [Link.call, hmethod]
    rfl
  rw [ofChain_declaration_append c [({ method := "primary" } : Link)] (by simp), happly]
  rfl

theorem nonEmpty?_some {s : String} (h : s ≠ "") : nonEmpty? (some s) = some s := by
  unfold nonEmpty?
  rw [Option.filter_some]
  simp [h]

/-- **The first statement states the primary key.** -/
theorem ofChain_primary {t : Table} (hname : ∀ c ∈ t.columns, c.name ≠ "") :
    Clause.ofChain ((primaryLinks t).map Link.call) = [.declare (writtenPrimary t)] := by
  have hid : Statement.ofMethod? "id" = some (.increments .bigint) := by decide
  have hconventional : Clause.ofChain ([({ method := "id" } : Link)].map Link.call)
      = [.declare (asPrimary { name := "id", type := .bigint })] := by
    rw [List.map_cons, ofChain_cons hid]
    rfl
  unfold primaryLinks writtenPrimary
  cases hp : t.primary? with
  | none => exact hconventional
  | some c =>
    have hc : c.name ≠ "" := hname c (List.mem_of_find?_eq_some hp)
    dsimp only
    split
    · rename_i h
      rw [Bool.and_eq_true, beq_iff_eq, beq_iff_eq] at h
      rw [hconventional, h.1, h.2]
      rfl
    · cases hm : c.type.incrementMethod? with
      | some method =>
        have hmethod := (incrementMethod_leads_back hm).1
        have hgiven : (Link.call { method, values := [.text c.name] }).argument 0 = .text c.name :=
          rfl
        dsimp only
        rw [List.map_cons, ofChain_cons hmethod]
        simp only [Clause.ofStatement, hgiven, Argument.text?, nonEmpty?_some hc]
        rfl
      | none => exact ofChain_declaration_primary c

/-- **A key constraint states the key.** -/
theorem ofChain_key (o : Options) (c : Column) {key : ForeignKey} (htable : key.table ≠ "")
    (hcolumn : key.column ≠ "") :
    Clause.ofChain ((keyLinks o c key).map Link.call)
      = [.refer { column := c.name, on := key.table, references := key.column }] := by
  have hforeign : Statement.ofMethod? "foreign" = some .foreign := by decide
  have hon : lastLiteral? "on" ((keyLinks o c key).tail.map Link.call) 0 = some key.table :=
    nonEmpty?_some htable
  have hreferences : lastLiteral? "references" ((keyLinks o c key).tail.map Link.call) 0
      = some key.column := nonEmpty?_some hcolumn
  have hcolumn : (Link.call { method := "foreign", values := [.text c.name] }).argument 0
      = .text c.name := rfl
  show Clause.ofChain (Link.call { method := "foreign", values := [.text c.name] }
    :: (keyLinks o c key).tail.map Link.call) = _
  rw [ofChain_cons hforeign]
  simp only [Clause.ofStatement, hcolumn, Argument.names, referencedKey?, hon, hreferences]
  rfl

/-- **A unique constraint states its columns.** -/
theorem ofChain_unique {names : List String} (h : names ≠ []) :
    Clause.ofChain ((uniqueLinks names).map Link.call) = [.uniqueSet names] := by
  have hunique : Statement.ofMethod? "unique" = some .unique := by decide
  have hcolumns : ((Link.call { method := "unique", values := [.texts names] }).argument 0).names
      = names := by
    show (names.map Argument.text).filterMap Argument.word? = names
    rw [List.filterMap_map]
    exact List.filterMap_some
  unfold uniqueLinks
  rw [List.map_cons, ofChain_cons hunique]
  simp [Clause.ofStatement, hcolumns, h]

end Crowsfoot.Migration
