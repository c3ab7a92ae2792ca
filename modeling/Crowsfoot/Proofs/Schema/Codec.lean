import Crowsfoot.Files.Content
import Crowsfoot.Proofs.Json.Reading
import Crowsfoot.Schema.Codec

/-!
# Schemas are decoded from their JSON form

Every part of a schema comes back from the JSON that is made of it (`Schema.gives_ofJson`), wherever
the JSON comes from: each field is found under its name and decoded to what it was, since no field
falls back to its default and the lenient readings of numbers and flags apply to other values only.

`Schema.parse_write`: the content of a schema file is that schema again. Its line ends are those that
reading a file unifies them to (`Schema.readText_write`).
-/

namespace Crowsfoot

open Json

/-! ## Decoding what has been written -/

namespace Json

namespace Decoded

/-- A decoding succeeds with a value. -/
def Gives (d : Decoded α) (a : α) : Prop :=
  d = .ok a

variable {d : Decoded α} {a : α}

theorem Gives.map (f : α → β) (h : d.Gives a) : (d.map f).Gives (f a) := by
  unfold Gives at h ⊢
  rw [h]
  rfl

theorem Gives.ap {df : Decoded (α → β)} {f : α → β} (hf : df.Gives f) (h : d.Gives a) :
    (df.ap d).Gives (f a) := by
  unfold Gives at hf h ⊢
  rw [hf, h]
  rfl

theorem Gives.within (step : Step) (h : d.Gives a) : (d.within step).Gives a := by
  unfold Gives at h ⊢
  rw [h]
  rfl

variable {members : List (String × Json)} {name : String} {decode : Json → Decoded α} {v : Json}
  {a default : α}

theorem Gives.required (h : (decode v).Gives a) (hfound : member? members name = some v) :
    (Json.required members name decode).Gives a := by
  unfold Json.required
  rw [hfound]
  exact h.within (.key name)

theorem Gives.defaulted (h : (decode v).Gives a) (hfound : member? members name = some v) :
    (Json.defaulted members name default decode).Gives a := by
  unfold Json.defaulted
  rw [hfound]
  exact h.within (.key name)

end Decoded

open Decoded

theorem gives_toStr (s : String) : (toStr (.str s)).Gives s := rfl

theorem gives_toBool (b : Bool) : (toBool (.bool b)).Gives b := rfl

theorem gives_int? (n : Option Int) : (toOption toInt (int? n)).Gives n := by
  cases n <;> rfl

theorem gives_str? (s : Option String) : (toOption toStr (str? s)).Gives s := by
  cases s <;> rfl

section Items

variable {decode : Json → Decoded α} {write : α → Json}

theorem gives_toItems {as : List α} (h : ∀ a ∈ as, (decode (write a)).Gives a) (k : Nat) :
    (toItems decode k (as.map write)).Gives as := by
  induction as generalizing k with
  | nil => rfl
  | cons a as ih =>
    have hfirst := (h a List.mem_cons_self).within (.index k)
    have hrest := ih (fun b hb => h b (List.mem_cons_of_mem a hb)) (k + 1)
    exact (hfirst.map List.cons).ap hrest

theorem gives_toList {as : List α} (h : ∀ a ∈ as, (decode (write a)).Gives a) :
    (Json.toList decode (.arr (as.map write))).Gives as :=
  gives_toItems h 0

theorem gives_strs (ss : List String) : (Json.toList toStr (strs ss)).Gives ss :=
  gives_toList fun s _ => gives_toStr s

end Items

end Json

open Json

/-! ## The parts of a schema -/

theorem ForeignKey.gives_ofJson (key : ForeignKey) : (ForeignKey.ofJson key.toJson).Gives key := by
  unfold ForeignKey.ofJson ForeignKey.toJson
  exact ((gives_toStr key.table).required rfl).map ForeignKey.mk
    |>.ap ((gives_toStr key.column).defaulted rfl)

theorem ForeignKey.gives_option (key : Option ForeignKey) :
    (toOption ForeignKey.ofJson ((key.map ForeignKey.toJson).getD .null)).Gives key := by
  cases key with
  | none => rfl
  | some key => exact key.gives_ofJson.map some

theorem ColumnType.gives_ofJson (t : ColumnType) : (ColumnType.ofJson (.str t.name)).Gives t := by
  unfold ColumnType.ofJson Decoded.Gives
  simp only [ColumnType.ofName?_name]

/-- **A column is decoded with all its fields.** -/
theorem Column.gives_ofJson (c : Column) : (Column.ofJson c.toJson).Gives c :=
  ((gives_toStr c.name).required rfl).map Column.mk
    |>.ap (c.type.gives_ofJson.defaulted rfl)
    |>.ap ((gives_int? c.size).defaulted rfl)
    |>.ap ((gives_int? c.precision).defaulted rfl)
    |>.ap ((gives_int? c.scale).defaulted rfl)
    |>.ap ((gives_toBool c.nullable).defaulted rfl)
    |>.ap ((gives_toBool c.primary).defaulted rfl)
    |>.ap ((gives_str? c.comment).defaulted rfl)
    |>.ap ((gives_strs c.enumValues).defaulted rfl)
    |>.ap ((ForeignKey.gives_option c.foreignKey).defaulted rfl)
    |>.ap ((gives_str? c.default).defaulted rfl)
    |>.ap ((gives_toBool c.unique).defaulted rfl)
    |>.ap ((gives_toBool c.index).defaulted rfl)
    |>.ap ((gives_toBool c.unsigned).defaulted rfl)
    |>.ap ((gives_int? c.minimum).defaulted rfl)
    |>.ap ((gives_int? c.maximum).defaulted rfl)
    |>.ap ((gives_str? c.before).defaulted rfl)
    |>.ap ((gives_str? c.after).defaulted rfl)
    |>.ap ((gives_str? c.pattern).defaulted rfl)

theorem Table.gives_ofJson (t : Table) : (Table.ofJson t.toJson).Gives t :=
  ((gives_toStr t.name).required rfl).map Table.mk
    |>.ap ((gives_toList fun c _ => Column.gives_ofJson c).defaulted rfl)
    |>.ap ((gives_toBool t.isPivot).defaulted rfl)

theorem Relationship.Kind.ofName?_name (k : Kind) : Kind.ofName? k.name = some k := by
  cases k <;> decide

/-- A tagged value is decoded as its tag says. -/
theorem Relationship.ofJson_obj (origin : Origin) {members : List (String × Json)} {k : Kind}
    (h : member? members "kind" = some (.str k.name)) :
    Relationship.ofJson origin (.obj members) = (ofMembers members k).within (.key k.name) := by
  unfold Relationship.ofJson
  simp only [h, Kind.ofName?_name]

/-- **A relationship of each kind is decoded.** -/
theorem Relationship.gives_ofJson (origin : Origin) (r : Relationship) :
    (Relationship.ofJson origin r.toJson).Gives r := by
  suffices hmembers : ∃ members, r.toJson = .obj members
      ∧ member? members "kind" = some (.str r.kind.name) ∧ (ofMembers members r.kind).Gives r by
    obtain ⟨members, hobj, hkind, hgives⟩ := hmembers
    rw [hobj, ofJson_obj origin hkind]
    exact hgives.within (.key r.kind.name)
  cases r with
  | oneToOne parent child =>
    refine ⟨_, rfl, rfl, ?_⟩
    unfold Relationship.kind ofMembers
    exact ((gives_toStr parent).required rfl).map Relationship.oneToOne
      |>.ap ((gives_toStr child).required rfl)
  | oneToMany parent child =>
    refine ⟨_, rfl, rfl, ?_⟩
    unfold Relationship.kind ofMembers
    exact ((gives_toStr parent).required rfl).map Relationship.oneToMany
      |>.ap ((gives_toStr child).required rfl)
  | manyToMany first second pivot =>
    refine ⟨_, rfl, rfl, ?_⟩
    unfold Relationship.kind ofMembers
    exact ((gives_toStr first).required rfl).map Relationship.manyToMany
      |>.ap ((gives_toStr second).required rfl)
      |>.ap ((gives_str? pivot).defaulted rfl)

theorem Unresolved.gives_ofJson (u : Unresolved) : (Unresolved.ofJson u.toJson).Gives u := by
  unfold Unresolved.ofJson Unresolved.toJson
  exact ((gives_toStr u.table).required rfl).map Unresolved.mk
    |>.ap ((gives_toStr u.column).required rfl)
    |>.ap ((gives_toStr u.references).required rfl)

/-- **A schema is decoded from its JSON form**, in a file and given directly. -/
theorem Schema.gives_ofJson (origin : Origin) (s : Schema) :
    (Schema.ofJson origin s.toJson).Gives s :=
  ((gives_toList fun t _ => Table.gives_ofJson t).defaulted rfl).map Schema.mk
    |>.ap ((gives_toList fun r _ => Relationship.gives_ofJson origin r).defaulted rfl)
    |>.ap ((gives_toList fun u _ => Unresolved.gives_ofJson u).defaulted rfl)

/-! ## Numbers in schemas are integers -/

namespace Json

theorem exact_int? (n : Option Int) : Exact (int? n) := by
  cases n with
  | none => exact .null
  | some n => exact .int n

theorem exact_str? (s : Option String) : Exact (str? s) := by
  cases s with
  | none => exact .null
  | some s => exact .str s

theorem exact_map {write : α → Json} (h : ∀ a, Exact (write a)) (as : List α) :
    Exact (.arr (as.map write)) := by
  refine .arr fun v hv => ?_
  obtain ⟨a, _, rfl⟩ := List.mem_map.mp hv
  exact h a

end Json

theorem ForeignKey.exact_toJson (key : ForeignKey) : Exact key.toJson :=
  .obj (by simp [Exact.str])

theorem Column.exact_toJson (c : Column) : Exact c.toJson := by
  have hkey : Exact ((c.foreignKey.map ForeignKey.toJson).getD .null) := by
    cases c.foreignKey with
    | none => exact .null
    | some key => exact key.exact_toJson
  have hvalues : Exact (strs c.enumValues) := exact_map Exact.str c.enumValues
  exact .obj (by simp [Exact.str, Exact.bool, exact_int?, exact_str?, hkey, hvalues])

theorem Table.exact_toJson (t : Table) : Exact t.toJson :=
  .obj (by simp [Exact.str, Exact.bool, exact_map Column.exact_toJson])

theorem Relationship.exact_toJson (r : Relationship) : Exact r.toJson := by
  cases r <;> exact .obj (by simp [Exact.str, exact_str?])

theorem Unresolved.exact_toJson (u : Unresolved) : Exact u.toJson :=
  .obj (by simp [Exact.str])

theorem Schema.exact_toJson (s : Schema) : Exact s.toJson :=
  .obj (by simp [exact_map Table.exact_toJson, exact_map Relationship.exact_toJson,
    exact_map Unresolved.exact_toJson])

/-! ## Schema files -/

open Text

/-- A text without carriage returns has no line ends to unify. -/
theorem unifyNewlines_eq_self {cs : List Char} (h : '\r' ∉ cs) : unifyNewlines cs = cs := by
  induction cs with
  | nil => rfl
  | cons c cs ih =>
    rw [List.mem_cons, not_or] at h
    unfold unifyNewlines
    split
    · rename_i heq; exact absurd heq (by simp)
    · rename_i heq; exact absurd (List.cons.inj heq).1.symm h.1
    · rename_i heq; exact absurd (List.cons.inj heq).1.symm h.1
    · rename_i heq
      obtain ⟨rfl, rfl⟩ := List.cons.inj heq
      rw [ih h.2]

/-- What is written of a value is read from a file as it was written. -/
theorem onChars_unifyNewlines_pretty {v : Json} (h : Exact v) :
    onChars unifyNewlines (pretty v) = pretty v := by
  have hreturn : '\r' ∉ (pretty v).toList := by
    intro hc
    rcases legible_prettyAt h 0 '\r' hc with hc | hc
    · exact absurd hc (by decide)
    · exact absurd hc (by decide)
  unfold onChars
  rw [unifyNewlines_eq_self hreturn, String.ofList_toList]

/-- A container is written between its brackets. -/
theorem exists_writeBlock (level : Nat) (opening closing : String) (lines : List String) :
    ∃ body, writeBlock level opening closing lines = opening ++ (body ++ closing) := by
  unfold writeBlock
  split_ifs
  · exact ⟨"", by simp⟩
  · refine ⟨"\n" ++ ",\n".intercalate (lines.map fun line => indentation (level + 1) ++ line)
      ++ "\n" ++ indentation level, ?_⟩
    simp only [String.append_assoc]

/-- No blanks are written around an object, and it is never written as nothing. -/
theorem trimmed_pretty_obj (members : List (String × Json)) :
    trimmed (pretty (.obj members)) = pretty (.obj members)
      ∧ (pretty (.obj members)).isEmpty = false := by
  obtain ⟨body, hbody⟩ := exists_writeBlock 0 "\x7b" "\x7d" (prettyMembers 1 members)
  have htext : (pretty (.obj members)).toList = '\x7b' :: (body.toList ++ ['\x7d']) := by
    rw [pretty, prettyAt, hbody, String.toList_append, String.toList_append]
    rfl
  constructor
  · unfold trimmed onChars trim
    rw [strip_eq_self, String.ofList_toList]
    · rw [htext, startsOutside_cons]
      decide
    · rw [htext, ← List.cons_append, endsOutside_append_singleton]
      decide
  · rw [Bool.eq_false_iff]
    intro hempty
    have hnil : pretty (.obj members) = "" := by simpa using hempty
    rw [hnil] at htext
    simp at htext

/-- **The content of a schema file is its schema.** -/
theorem Schema.parse_write (s : Schema) : Schema.parse s.write = .ok s := by
  obtain ⟨htrim, hne⟩ : trimmed (pretty s.toJson) = pretty s.toJson
      ∧ (pretty s.toJson).isEmpty = false := trimmed_pretty_obj _
  have hread : parse? (pretty s.toJson) = some s.toJson := parse?_pretty s.exact_toJson
  have hdecode : Schema.ofJson .file s.toJson = .ok s := s.gives_ofJson .file
  unfold Schema.parse Schema.write
  simp only [htrim, hne, hread, hdecode]
  rfl

/-- What is written to a schema file is read from it unchanged. -/
theorem Schema.readText_write (s : Schema) :
    (Files.Content.text s.write).readText = .ok s.write := by
  unfold Files.Content.readText Schema.write
  exact congrArg Except.ok (onChars_unifyNewlines_pretty s.exact_toJson)

end Crowsfoot
