import Crowsfoot.Proofs.Migration.ReadBack

/-!
# What is read is well-formed

Whatever the migrations say, a table that is read from them is `WellRead`
(`wellRead_readMigrations`): its name consists of word characters, no two of its columns have one
name, and no foreign key refers to a column without name.

`ofStatement_cases` says what a statement can say, whichever it is. So its clauses are sound
(`isSound_ofChain`), and `Underway` is what a sound clause preserves of the table that it is stated
of (`Underway.state`).
-/

namespace Crowsfoot

open Crowsfoot.Builder Crowsfoot.Text

/-- An unsigned column has a minimum. -/
def Column.IsBounded (c : Column) : Prop :=
  c.unsigned = true → c.minimum.isSome = true

theorem Column.IsBounded.of_signed {c : Column} (h : c.unsigned = false) : c.IsBounded :=
  fun hunsigned => absurd (h.symm.trans hunsigned) Bool.false_ne_true

namespace Migration

/-! ## Modified columns -/

/-- What no modifier takes away, a chain of them does not. -/
theorem applyModifiers_induction {P : Column → Prop}
    (h : ∀ (m : Modifier) (call : Call) (c : Column), P c → P (m.apply call c)) (calls : List Call)
    {c : Column} (hc : P c) : P (applyModifiers calls c) := by
  unfold applyModifiers
  induction calls generalizing c with
  | nil => exact hc
  | cons call calls ih =>
    rw [List.foldl_cons]
    apply ih
    unfold applyCall
    cases Modifier.ofMethod? call.method with
    | none => exact hc
    | some m => exact h m call c hc

theorem mem_of_ofMethod? {method : String} {m : Modifier} (h : Modifier.ofMethod? method = some m) :
    (method, m) ∈ modifierMethods := by
  obtain ⟨before, after, hmethods, -⟩ := List.lookup_eq_some_iff.mp h
  rw [hmethods]
  exact List.mem_append_right before List.mem_cons_self

theorem foreignKey_apply (m : Modifier) (call : Call) (c : Column) :
    (m.apply call c).foreignKey = c.foreignKey := by
  cases m <;> simp only [Modifier.apply]
  all_goals split <;> rfl

theorem foreignKey_applyModifiers (calls : List Call) (c : Column) :
    (applyModifiers calls c).foreignKey = c.foreignKey :=
  applyModifiers_induction (P := fun d => d.foreignKey = c.foreignKey)
    (fun m call d hd => (foreignKey_apply m call d).trans hd) calls rfl

theorem isBounded_apply (m : Modifier) (call : Call) {c : Column} (hc : c.IsBounded) :
    (m.apply call c).IsBounded := by
  cases m with
  | minimum =>
    simp only [Modifier.apply]
    split
    · rename_i hsome
      exact fun _ => hsome
    · exact hc
  | unsigned =>
    intro _
    simp only [Modifier.apply]
    cases c.minimum <;> rfl
  | maximum | comment | pattern =>
    simp only [Modifier.apply]
    split <;> exact hc
  | _ => exact hc

theorem isBounded_applyModifiers (calls : List Call) {c : Column} (hc : c.IsBounded) :
    (applyModifiers calls c).IsBounded :=
  applyModifiers_induction (fun m call _ hd => isBounded_apply m call hd) calls hc

/-! ## What a statement can say -/

/-- A clause that stands alone: a column comes without key and is neither unique nor unsigned, a key
refers to a column with a name, and a unique set is one of some columns. -/
def Clause.IsPlain : Clause → Prop
  | .declare c => c.foreignKey = none ∧ c.unique = false ∧ c.unsigned = false
  | .refer fact => fact.references ≠ ""
  | .uniqueSet names => names ≠ []
  | _ => True

theorem nonEmpty?_ne_empty {s : Option String} {x : String} (h : nonEmpty? s = some x) :
    x ≠ "" := by
  have hx := (Option.filter_eq_some_iff.mp h).2
  simpa using hx

theorem lastLiteral?_ne_empty {method : String} {calls : List Call} {k : Nat} {x : String}
    (h : lastLiteral? method calls k = some x) : x ≠ "" := by
  obtain ⟨call, -, hcall⟩ := Option.bind_eq_some_iff.mp h
  exact nonEmpty?_ne_empty hcall

/-- The column that a chained key refers to is named in the chain, or else `id`. -/
theorem references_chained_ne_empty {calls : List Call} (method : String) (k : Nat) :
    (lastLiteral? method calls k).getD "id" ≠ "" := by
  cases hl : lastLiteral? method calls k with
  | none => decide
  | some x => exact lastLiteral?_ne_empty hl

theorem references_referencedKey? {column : String} {calls : List Call} {fact : KeyFact}
    (h : referencedKey? column calls = some fact) : fact.references ≠ "" := by
  obtain ⟨target, -, rfl⟩ := Option.map_eq_some_iff.mp h
  exact references_chained_ne_empty "references" 0

theorem references_chainedKey? {column : String} {calls : List Call} {fact : KeyFact}
    (h : chainedKey? column calls = some fact) : fact.references ≠ "" := by
  unfold chainedKey? at h
  split at h
  · rw [← Option.some.inj h]
    exact references_chained_ne_empty "constrained" 1
  · exact references_referencedKey? h

/-- The column that the first call of a statement declares, before the calls after it modify it.
Statements that take no modifiers have none. -/
def baseColumn? (s : Statement) (call : Call) : Option Column :=
  match s with
  | .typed type unsigned => (call.argument 0).text?.map (typedColumn type unsigned call)
  | .increments type =>
    some
      { name := (nonEmpty? (call.argument 0).text?).getD "id"
        type
        nullable := false
        primary := true }
  | .foreignId =>
    (call.argument 0).text?.map fun name => { name, type := .bigint, nullable := false }
  | .foreignIdFor =>
    let model := modelOfClass (call.argument 0)
    if model.isEmpty then none
    else
      some
        { name := (nonEmpty? (call.argument 1).text?).getD (Naming.foreignKeyName model)
          type := .bigint
          nullable := false }
  | _ => none

/-- The key that the calls after the first declare on the column of a statement. The column of a
model class refers to the class, whatever else the calls say. -/
def chainKey? (s : Statement) (call : Call) (calls : List Call) (column : String) : Option KeyFact :=
  match s with
  | .foreignIdFor =>
    if (lastCall? "constrained" calls).isSome then
      some { column, on := Naming.tableName (modelOfClass (call.argument 0)) }
    else none
  | _ => chainedKey? column calls

/-- A base column has no key, is not unique and has a minimum if it is unsigned. -/
structure IsBaseColumn (c : Column) : Prop where
  key : c.foreignKey = none
  unique : c.unique = false
  bounded : c.IsBounded

theorem isBaseColumn_typedColumn (type : ColumnType) (unsigned : Bool) (call : Call) (name : String) :
    IsBaseColumn (typedColumn type unsigned call name) := by
  cases unsigned with
  | true =>
    refine ⟨?_, ?_, fun _ => rfl⟩
    all_goals
      unfold typedColumn
      cases type <;> simp only [if_true]
      all_goals split <;> rfl
  | false =>
    refine ⟨?_, ?_, .of_signed ?_⟩
    all_goals
      unfold typedColumn
      cases type <;> simp only [Bool.false_eq_true, if_false]
      all_goals split <;> rfl

theorem isBaseColumn_of_baseColumn? {s : Statement} {call : Call} {c : Column}
    (h : baseColumn? s call = some c) : IsBaseColumn c := by
  cases s with
  | typed type unsigned =>
    obtain ⟨name, -, rfl⟩ := Option.map_eq_some_iff.mp h
    exact isBaseColumn_typedColumn type unsigned call name
  | increments type =>
    obtain rfl := Option.some.inj h
    exact ⟨rfl, rfl, .of_signed rfl⟩
  | foreignId =>
    obtain ⟨name, -, rfl⟩ := Option.map_eq_some_iff.mp h
    exact ⟨rfl, rfl, .of_signed rfl⟩
  | foreignIdFor =>
    simp only [baseColumn?] at h
    split at h
    · exact nomatch h
    · obtain rfl := Option.some.inj h
      exact ⟨rfl, rfl, .of_signed rfl⟩
  | _ => exact nomatch h

theorem references_chainKey? {s : Statement} {call : Call} {calls : List Call} {column : String}
    {fact : KeyFact} (h : chainKey? s call calls column = some fact) : fact.references ≠ "" := by
  cases s with
  | foreignIdFor =>
    simp only [chainKey?] at h
    split at h
    · obtain rfl := Option.some.inj h
      exact (by decide : "id" ≠ "")
    · exact nomatch h
  | _ => exact references_chainedKey? h

/-- **A statement with a base column** states it with its modifiers and the key chained to it. -/
theorem ofStatement_of_baseColumn? {s : Statement} {call : Call} {c : Column}
    (h : baseColumn? s call = some c) (calls : List Call) :
    Clause.ofStatement s call calls
      = columnClauses (applyModifiers calls c) (chainKey? s call calls c.name) := by
  cases s with
  | typed type unsigned =>
    obtain ⟨name, hname, rfl⟩ := Option.map_eq_some_iff.mp h
    simp only [Clause.ofStatement, hname]
    rfl
  | increments type =>
    obtain rfl := Option.some.inj h
    rfl
  | foreignId =>
    obtain ⟨name, hname, rfl⟩ := Option.map_eq_some_iff.mp h
    simp only [Clause.ofStatement, hname]
    rfl
  | foreignIdFor =>
    simp only [baseColumn?] at h
    split at h
    · cases h
    · rename_i hmodel
      obtain rfl := Option.some.inj h
      simp only [Clause.ofStatement, hmodel]
      rfl
  | _ => cases h

/-- Whether a statement declares columns. -/
def declaresColumns : Statement → Bool
  | .foreign | .unique | .primary | .index => false
  | _ => true

/-- **A statement without a base column** that declares columns declares plain ones, and says nothing
else. -/
theorem declare_of_baseColumn?_eq_none {s : Statement} {call : Call}
    (hs : declaresColumns s = true) (h : baseColumn? s call = none) (calls : List Call) :
    ∀ clause ∈ Clause.ofStatement s call calls, clause.IsPlain ∧ ∃ c, clause = .declare c := by
  have hplain {c : Column} (hc : c.foreignKey = none ∧ c.unique = false ∧ c.unsigned = false) :
      (Clause.declare c).IsPlain ∧ ∃ d, Clause.declare c = .declare d := ⟨hc, c, rfl⟩
  have hnone : ∀ clause ∈ ([] : List Clause), clause.IsPlain ∧ ∃ c, clause = .declare c := by simp
  cases s with
  | typed type unsigned | foreignId =>
    simp only [Clause.ofStatement, Option.map_eq_none_iff.mp h]
    exact hnone
  | increments type => cases h
  | foreignIdFor =>
    simp only [baseColumn?] at h
    split at h
    · rename_i hmodel
      simp only [Clause.ofStatement, hmodel]
      exact hnone
    · cases h
  | rememberToken | softDeletes =>
    exact List.forall_mem_singleton.mpr (hplain ⟨rfl, rfl, rfl⟩)
  | timestamps =>
    exact List.forall_mem_cons.mpr ⟨hplain ⟨rfl, rfl, rfl⟩,
      List.forall_mem_singleton.mpr (hplain ⟨rfl, rfl, rfl⟩)⟩
  | morphs keyType nullable =>
    simp only [Clause.ofStatement]
    split
    · exact List.forall_mem_cons.mpr ⟨hplain ⟨rfl, rfl, rfl⟩,
        List.forall_mem_singleton.mpr (hplain ⟨rfl, rfl, rfl⟩)⟩
    · exact hnone
  | foreign | unique | primary | index => exact absurd hs Bool.false_ne_true

/-- **What a statement can say:** either it states a column, with modifiers and perhaps a key, or its
clauses stand alone. -/
theorem ofStatement_cases (s : Statement) (call : Call) (calls : List Call) :
    (∃ c key, Clause.ofStatement s call calls = columnClauses (applyModifiers calls c) key
        ∧ c.foreignKey = none ∧ c.IsBounded ∧ ∀ fact, key = some fact → fact.references ≠ "")
      ∨ ∀ clause ∈ Clause.ofStatement s call calls, clause.IsPlain := by
  have hnone : ∀ clause ∈ ([] : List Clause), clause.IsPlain := by simp
  cases hbase : baseColumn? s call with
  | some c =>
    have hc := isBaseColumn_of_baseColumn? hbase
    exact .inl ⟨c, _, ofStatement_of_baseColumn? hbase calls, hc.key, hc.bounded,
      fun _ => references_chainKey?⟩
  | none =>
    right
    cases s with
    | foreign =>
      intro clause h
      simp only [Clause.ofStatement] at h
      split at h
      · obtain ⟨fact, hfact, rfl⟩ := Option.map_eq_some_iff.mp (Option.mem_toList.mp h)
        exact references_referencedKey? hfact
      · exact hnone clause h
    | unique =>
      simp only [Clause.ofStatement]
      split
      · exact hnone
      · rename_i hsome
        exact List.forall_mem_singleton.mpr (mt List.isEmpty_iff.mpr hsome)
    | primary =>
      simp only [Clause.ofStatement]
      split
      · exact List.forall_mem_singleton.mpr trivial
      · exact hnone
    | index =>
      intro clause h
      obtain ⟨name, -, rfl⟩ := List.mem_map.mp h
      trivial
    | _ => exact fun clause h => (declare_of_baseColumn?_eq_none rfl hbase calls clause h).1

/-! ## Sound clauses -/

/-- A declared column comes without a key, and a key refers to a column with a name. -/
def Clause.IsSound : Clause → Prop
  | .declare c => c.foreignKey = none
  | .refer fact => fact.references ≠ ""
  | _ => True

theorem Clause.IsPlain.isSound {clause : Clause} (h : clause.IsPlain) : clause.IsSound := by
  cases clause with
  | declare c => exact h.1
  | refer fact => exact h
  | _ => trivial

/-- The clauses of a column: it is declared, perhaps after a unique set and a key of its own. -/
theorem mem_columnClauses {c : Column} {key : Option KeyFact} {clause : Clause} :
    clause ∈ columnClauses c key
      ↔ (c.unique = true ∧ clause = .uniqueSet [c.name])
        ∨ (∃ fact, key = some fact ∧ clause = .refer fact) ∨ clause = .declare c := by
  unfold columnClauses
  cases c.unique <;> cases key <;> simp

/-- Stating a column: it is added unless it is there, and its key and its unique set are added in any
case. -/
theorem stateAll_columnClauses (t : CreatedTable) (c : Column) (key : Option KeyFact) :
    t.stateAll (columnClauses c key)
      = { t with
          columns := addMissing t.columns c
          keys := t.keys ++ key.toList
          uniqueSets := t.uniqueSets ++ if c.unique then [[c.name]] else [] } := by
  rw [stateAll_eq]
  unfold columnClauses
  cases c.unique <;> cases key <;> simp [columnsAfter, Clause.fact?, Clause.names?, List.filterMap_cons]

theorem isSound_columnClauses {c : Column} {key : Option KeyFact} (hc : c.foreignKey = none)
    (hkey : ∀ fact, key = some fact → fact.references ≠ "") :
    ∀ clause ∈ columnClauses c key, clause.IsSound := by
  intro clause h
  rcases mem_columnClauses.mp h with ⟨-, rfl⟩ | ⟨fact, hfact, rfl⟩ | rfl
  · trivial
  · exact hkey fact hfact
  · exact hc

theorem isSound_ofStatement (s : Statement) (call : Call) (calls : List Call) :
    ∀ clause ∈ Clause.ofStatement s call calls, clause.IsSound := by
  obtain ⟨c, key, hclauses, hc, -, hkey⟩ | hplain := ofStatement_cases s call calls
  · rw [hclauses]
    exact isSound_columnClauses ((foreignKey_applyModifiers calls c).trans hc) hkey
  · exact fun clause h => (hplain clause h).isSound

/-- **Every clause is sound**, whatever the chain. -/
theorem isSound_ofChain (calls : List Call) : ∀ clause ∈ Clause.ofChain calls, clause.IsSound := by
  intro clause h
  cases calls with
  | nil => exact absurd h (by simp [Clause.ofChain])
  | cons call calls =>
    cases hs : Statement.ofMethod? call.method with
    | some s =>
      rw [ofChain_cons hs] at h
      exact isSound_ofStatement s call calls clause h
    | none =>
      simp only [Clause.ofChain, hs] at h
      rw [List.mem_singleton.mp h]
      trivial

/-! ## Stating sound clauses -/

/-- A table while its clauses are stated: the keys have not reached their columns. -/
structure Underway (t : CreatedTable) : Prop where
  distinct : (t.columns.map Column.name).Nodup
  plain : ∀ c ∈ t.columns, c.foreignKey = none
  keys : ∀ fact ∈ t.keys, fact.references ≠ ""

theorem Underway.state {t : CreatedTable} (h : Underway t) {clause : Clause}
    (hclause : clause.IsSound) : Underway (t.state clause) := by
  cases clause with
  | declare c =>
    rw [state_declare]
    exact ⟨nodup_addMissing h.distinct c, forall_mem_addMissing h.plain hclause, h.keys⟩
  | refer fact =>
    refine ⟨h.distinct, h.plain, ?_⟩
    intro other hother
    rcases List.mem_append.mp hother with hother | hother
    · exact h.keys other hother
    · rw [List.mem_singleton.mp hother]
      exact hclause
  | uniqueSet names => exact ⟨h.distinct, h.plain, h.keys⟩
  | primary name =>
    exact ⟨nodup_modifyColumn (fun _ => rfl) h.distinct,
      forall_mem_modifyColumn h.plain fun _ hc => hc, h.keys⟩
  | indexed name =>
    exact ⟨nodup_modifyColumn (fun _ => rfl) h.distinct,
      forall_mem_modifyColumn h.plain fun _ hc => hc, h.keys⟩
  | unsupported method => exact h

theorem Underway.stateAll {t : CreatedTable} (h : Underway t) {clauses : List Clause}
    (hclauses : ∀ clause ∈ clauses, clause.IsSound) : Underway (t.stateAll clauses) := by
  unfold CreatedTable.stateAll
  induction clauses generalizing t with
  | nil => exact h
  | cons clause clauses ih =>
    exact ih (h.state (hclauses clause List.mem_cons_self))
      fun other hother => hclauses other (List.mem_cons_of_mem clause hother)

theorem name_stateAll (t : CreatedTable) (clauses : List Clause) :
    (t.stateAll clauses).name = t.name := by
  rw [stateAll_eq]

/-! ## Tables -/

/-- A table as migrations can create it. -/
structure WellRead (t : CreatedTable) : Prop where
  name : IsName t.name
  distinct : (t.columns.map Column.name).Nodup
  keys : ∀ c ∈ t.columns, ∀ key, c.foreignKey = some key → key.column ≠ ""

/-- Each column gets the key of the first fact on its name. -/
theorem Underway.columns_attachKeys {t : CreatedTable} (h : Underway t) :
    t.attachKeys.columns = t.columns.map (withFact t.keys) := by
  show t.keys.foldl CreatedTable.attachKey t.columns = _
  rw [foldl_attachKey h.distinct]
  exact List.map_congr_left fun c hc => foldl_attach (h.plain c hc) _

/-- The key that a fact declares on its column. -/
def KeyFact.target (fact : KeyFact) : ForeignKey :=
  { table := fact.on, column := fact.references }

theorem withFact_eq (facts : List KeyFact) (c : Column) :
    withFact facts c
      = { c with foreignKey := ((facts.find? fun fact => fact.column == c.name).map
            KeyFact.target).or c.foreignKey } := by
  unfold withFact
  cases facts.find? fun fact => fact.column == c.name <;> rfl

theorem map_name_withFact (facts : List KeyFact) (columns : List Column) :
    (columns.map (withFact facts)).map Column.name = columns.map Column.name := by
  rw [List.map_map]
  exact List.map_congr_left fun c _ => withFact_name facts c

theorem Underway.attachKeys {t : CreatedTable} (h : Underway t) (hname : IsName t.name) :
    WellRead t.attachKeys := by
  refine ⟨hname, ?_, ?_⟩
  · rw [h.columns_attachKeys, map_name_withFact]
    exact h.distinct
  · rw [h.columns_attachKeys]
    intro c hc key hkey
    obtain ⟨d, hd, rfl⟩ := List.mem_map.mp hc
    rw [withFact_eq, h.plain d hd, Option.or_none] at hkey
    obtain ⟨fact, hfact, rfl⟩ := Option.map_eq_some_iff.mp hkey
    exact h.keys fact (List.mem_of_find?_eq_some hfact)

/-! ## Bodies -/

/-- The clauses of a body are those of its chains, all of which can be read. -/
theorem clausesOf_eq_ok {chains : List (Except ReadError (List Call))} {clauses : List Clause} :
    CreatedTable.clausesOf chains = .ok clauses
      ↔ ∃ calls : List (List Call),
        chains = calls.map .ok ∧ clauses = calls.flatMap Clause.ofChain := by
  unfold CreatedTable.clausesOf
  simp only [bind_eq_ok, mapM_id_eq_ok]
  constructor
  · rintro ⟨calls, hchains, h⟩
    exact ⟨calls, hchains, (Except.ok.inj h).symm⟩
  · rintro ⟨calls, hchains, rfl⟩
    exact ⟨calls, hchains, rfl⟩

/-- A body is read by stating its clauses and handing out the keys. -/
theorem ofBody_eq_ok {name body : String} {source : Option String} {t : CreatedTable} :
    CreatedTable.ofBody name body source = .ok t
      ↔ ∃ clauses, CreatedTable.clausesOf (CreatedTable.chains body.toList) = .ok clauses
        ∧ t = (CreatedTable.stateAll { name, source } clauses).attachKeys := by
  unfold CreatedTable.ofBody
  rw [bind_eq_ok]
  constructor
  · rintro ⟨clauses, hclauses, h⟩
    exact ⟨clauses, hclauses, (Except.ok.inj h).symm⟩
  · rintro ⟨clauses, hclauses, rfl⟩
    exact ⟨clauses, hclauses, rfl⟩

/-- The clauses of a body leave a table under way. -/
theorem underway_of_clausesOf {name : String} {source : Option String}
    {chains : List (Except ReadError (List Call))} {clauses : List Clause}
    (h : CreatedTable.clausesOf chains = .ok clauses) :
    Underway (CreatedTable.stateAll { name, source } clauses) := by
  obtain ⟨calls, -, rfl⟩ := clausesOf_eq_ok.mp h
  have hstart : Underway { name, source } := ⟨by simp, by simp, by simp⟩
  apply hstart.stateAll
  intro clause hclause
  obtain ⟨chain, -, hchain⟩ := List.mem_flatMap.mp hclause
  exact isSound_ofChain chain clause hchain

theorem wellRead_ofBody {name body : String} {source : Option String} {t : CreatedTable}
    (hname : IsName name) (h : CreatedTable.ofBody name body source = .ok t) : WellRead t := by
  obtain ⟨clauses, hclauses, rfl⟩ := ofBody_eq_ok.mp h
  apply (underway_of_clausesOf hclauses).attachKeys
  rw [name_stateAll]
  exact hname

theorem isName_creation? {cs : List Char} {c : Creation} (h : creation? cs = some c) :
    IsName c.name := by
  unfold creation? at h
  obtain ⟨⟨name, rest⟩, hhead, h⟩ := Option.bind_eq_some_iff.mp h
  obtain ⟨body, -, h⟩ := Option.bind_eq_some_iff.mp h
  rw [← Option.some.inj h]
  unfold creationHead? at hhead
  obtain ⟨inside, -, hhead⟩ := Option.bind_eq_some_iff.mp hhead
  split at hhead
  · rename_i quote named _
    dsimp only at hhead
    split at hhead
    · exact absurd hhead (by simp)
    · rename_i hne
      have hname : name = named.takeWhile isWord := by
        split at hhead
        · split at hhead
          · exact absurd hhead (by simp)
          · split at hhead
            · exact (Prod.mk.inj (Option.some.inj hhead)).1.symm
            · exact absurd hhead (by simp)
        · exact absurd hhead (by simp)
      rw [hname]
      refine ⟨?_, ?_⟩
      · rw [String.toList_ofList]
        intro hnil
        simp [hnil] at hne
      · rw [String.toList_ofList]
        intro d hd
        exact List.all_eq_true.mp List.all_takeWhile d hd
  · exact absurd hhead (by simp)

theorem isName_creationsIn {cs : List Char} : ∀ c ∈ creationsIn cs, IsName c.name := by
  induction cs with
  | nil => exact fun c h => absurd h (by simp [creationsIn])
  | cons d cs ih =>
    intro c h
    rw [creationsIn] at h
    rcases List.mem_append.mp h with h | h
    · exact isName_creation? (Option.mem_toList.mp h)
    · exact ih c h

/-- **What is read is well-formed**, whatever the migrations say. -/
theorem wellRead_readMigrations {contents sources : List String} {created : List CreatedTable}
    (h : readMigrations contents sources = .ok created) : ∀ t ∈ created, WellRead t := by
  unfold readMigrations at h
  obtain ⟨tables, hread, h⟩ := bind_eq_ok.mp h
  rw [← Except.ok.inj h]
  intro t ht
  obtain ⟨ts, hts, ht⟩ := List.mem_flatten.mp ht
  refine forall_mem_of_mapM (P := fun ts => ∀ t ∈ ts, WellRead t) ?_ hread ts hts t ht
  intro x _ ts hts
  refine forall_mem_of_mapM ?_ hts
  intro c hc t ht
  exact wellRead_ofBody (isName_creationsIn c hc) ht

end Migration

end Crowsfoot
