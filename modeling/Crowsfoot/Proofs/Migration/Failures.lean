import Crowsfoot.Migration.Writer
import Crowsfoot.Proofs.Fallible
import Crowsfoot.Proofs.Schema.Issues

/-!
# How writing migrations fails

A table is refused exactly if it is a pivot without two named foreign keys
(`writeTable_eq_error`), and tables are refused for one of them or for lack of time
(`writeTables_eq_error`). Where none is refused, each is written in its turn
(`writeTables_cons_eq_ok`). A schema can be refused for a missing pivot as well, but not if it is
sound (`writeAll_eq_error`).
-/

namespace Crowsfoot.Migration

variable {o : Options} {e : WriteError}

/-- Whether a table is a pivot that cannot be written. -/
def IsMisshapen (t : Table) : Prop :=
  t.isPivot = true ∧ (keyNames t).length ≠ 2

instance (t : Table) : Decidable (IsMisshapen t) :=
  inferInstanceAs (Decidable (_ ∧ _))

/-- **A table is refused for its shape only.** -/
theorem writeTable_eq_error {known : Option (List String)} {at_ : Timestamp} {t : Table} :
    writeTable o known at_ t = .error e
      ↔ IsMisshapen t ∧ e = .pivotShape t.storageName (keyNames t) := by
  have hguard : (t.isPivot && (keyNames t).length != 2) = true ↔ IsMisshapen t := by
    unfold IsMisshapen
    rw [Bool.and_eq_true, bne_iff_ne]
  unfold writeTable tableContent statements
  dsimp only
  by_cases hshape : IsMisshapen t
  · rw [if_pos (hguard.mpr hshape)]
    constructor
    · intro h
      exact ⟨hshape, (Except.error.inj h).symm⟩
    · rintro ⟨-, rfl⟩
      rfl
  · rw [if_neg (mt hguard.mp hshape)]
    exact ⟨fun h => (nomatch h), fun h => absurd h.1 hshape⟩

/-- **Tables are refused** for one of them, or for lack of time. -/
theorem writeTables_eq_error {known : List String} {at? : Option Timestamp} {ts : List Table}
    (h : writeTables o known at? ts = .error e) :
    e = .endOfTime
      ∨ ∃ t ∈ ts, IsMisshapen t ∧ e = .pivotShape t.storageName (keyNames t) := by
  induction ts generalizing at? with
  | nil => exact nomatch h
  | cons t ts ih =>
    cases at? with
    | none => exact Or.inl (Except.error.inj h).symm
    | some at_ =>
      rw [writeTables] at h
      rcases bind_eq_error.mp h with hfile | ⟨file, -, h⟩
      · exact Or.inr ⟨t, List.mem_cons_self, writeTable_eq_error.mp hfile⟩
      · rcases bind_eq_error.mp h with hrest | ⟨files, -, h⟩
        · rcases ih hrest with htime | ⟨u, hu, hshape⟩
          · exact Or.inl htime
          · exact Or.inr ⟨u, List.mem_cons_of_mem t hu, hshape⟩
        · exact nomatch h

theorem writeTables_nil {known : List String} {at? : Option Timestamp} :
    writeTables o known at? [] = .ok [] := by
  cases at? <;> rfl

/-- The first table is written at its time, and the others from the next second on. -/
theorem writeTables_cons_eq_ok {known : List String} {at? : Option Timestamp} {t : Table}
    {ts : List Table} {files : List GeneratedFile} :
    writeTables o known at? (t :: ts) = .ok files
      ↔ ∃ at_ ∈ at?, ∃ file rest, writeTable o (some known) at_ t = .ok file
        ∧ writeTables o known at_.next? ts = .ok rest ∧ file :: rest = files := by
  cases at? with
  | none => simp [writeTables]
  | some at_ =>
    simp only [writeTables, bind_eq_ok, Option.mem_some_iff, exists_eq_left']
    constructor
    · rintro ⟨file, hfile, rest, hrest, h⟩
      exact ⟨file, rest, hfile, hrest, Except.ok.inj h⟩
    · rintro ⟨file, rest, hfile, hrest, rfl⟩
      exact ⟨file, hfile, rest, hrest, rfl⟩

/-- A sound schema is not refused for want of a pivot. -/
theorem unpivoted?_of_sound {s : Schema} (h : s.Sound) : unpivoted? s = none := by
  unfold unpivoted?
  rw [List.findSome?_eq_none_iff]
  intro r hr
  cases r with
  | oneToOne | oneToMany => rfl
  | manyToMany first second pivot =>
    have hsome := Schema.isSome_pivotOf?.mpr (h.joined first second pivot hr)
    simp only [Option.isNone_eq_false_iff.mpr hsome, Bool.false_eq_true, if_false]

/-- **A sound schema is refused** for the shape of a pivot, or for lack of time. -/
theorem writeAll_eq_error {s : Schema} (hs : s.Sound) {startedAt : Timestamp}
    (h : writeAll o startedAt s = .error e) :
    e = .endOfTime
      ∨ ∃ t ∈ s.tables, IsMisshapen t ∧ e = .pivotShape t.storageName (keyNames t) := by
  unfold writeAll at h
  rw [unpivoted?_of_sound hs] at h
  exact writeTables_eq_error h

end Crowsfoot.Migration
