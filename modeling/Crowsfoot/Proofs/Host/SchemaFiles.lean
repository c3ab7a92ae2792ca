import Crowsfoot.Proofs.Host.Runs
import Crowsfoot.Proofs.Schema.Codec

/-!
# Schema files

`loadSchema_saveSchema`: the file that a schema is saved to gives that schema again, whatever the
schema is, and saving what has been loaded writes the same text. So a schema file can be loaded and
saved any number of times.
-/

namespace Crowsfoot

open Crowsfoot.Files Crowsfoot.Host

namespace Session

variable {h h' : Session} {p : Path} {s : Schema}

/-- Saving makes the directory and writes the file. -/
theorem saveSchema_eq_ok (hsave : h.run (saveSchema p s) = (.ok (), h')) :
    ∃ w w', h.workspace.makeDirectories p.parent = .ok w ∧ w.write p s.write = .ok w'
      ∧ h' = { h with workspace := w' } := by
  unfold saveSchema at hsave
  cases hmake : h.workspace.makeDirectories p.parent with
  | error e =>
    rw [run_bind_error ((run_makeDirectory h p.parent).trans (changed_error hmake))] at hsave
    exact absurd hsave (by simp)
  | ok w =>
    rw [run_bind_ok ((run_makeDirectory h p.parent).trans (changed_ok hmake)), run_writeText,
      changed_eq_ok] at hsave
    obtain ⟨w', hwrite, rfl⟩ := hsave
    exact ⟨w, w', rfl, hwrite, rfl⟩

theorem read_of_saveSchema (hsave : h.run (saveSchema p s) = (.ok (), h')) :
    h'.workspace.read p = .ok (.text s.write) := by
  obtain ⟨w, w', _, hwrite, rfl⟩ := saveSchema_eq_ok hsave
  exact Workspace.read_of_write hwrite

/-- A schema is loaded from a file that holds what is written of it. -/
theorem run_loadSchema (hread : h.workspace.read p = .ok (.text s.write)) :
    h.run (loadSchema p) = (.ok s, h) := by
  have hthere : (h.workspace.kind? p).isSome = true := by
    unfold Workspace.read at hread
    unfold Workspace.kind?
    split at hread
    · rename_i place hplace
      rw [hplace, Option.bind_some]
      split at hread
      · rename_i content hfile
        rw [Workspace.kindAt_eq_file.mpr (by rw [hfile]; rfl)]
        rfl
      · exact absurd hread (by simp)
      · exact absurd hread (by simp)
    · exact absurd hread (by simp)
  have htext : h.run (readText p) = (.ok s.write, h) := by
    rw [run_readText hread, s.readText_write]
    rfl
  unfold loadSchema
  rw [run_bind_ok (run_isThere h p), hthere]
  simp only [Bool.not_true, Bool.false_eq_true, if_false]
  rw [run_bind_ok htext, run_orFail, s.parse_write]
  rfl

/-- Saving a schema again changes nothing. -/
theorem run_saveSchema_again (hsave : h.run (saveSchema p s) = (.ok (), h')) :
    h'.run (saveSchema p s) = (.ok (), h') := by
  obtain ⟨w, w', _, hwrite, rfl⟩ := saveSchema_eq_ok hsave
  have hagain := Workspace.write_of_write hwrite
  obtain ⟨place, hplace, -, -⟩ := Workspace.write_eq_ok hagain
  have hparent : p.parent.parts = [] ∨ w'.kind? p.parent = some .directory := by
    by_cases hne : p.parts = []
    · exact Or.inl (by unfold Path.parent; rw [hne]; rfl)
    · exact Or.inr (Workspace.parent_of_place? hplace hne)
  unfold saveSchema
  rw [run_bind_ok ((run_makeDirectory _ p.parent).trans
    (changed_ok (Workspace.makeDirectories_of_directory hparent))), run_writeText]
  exact changed_ok hagain

end Session

open Session

/-- **A schema file loads back unchanged.** Its content gives the schema it was written from; and
after a schema has been saved it is loaded from the file, saving what has been loaded to the same
file changes nothing, and in any other file it writes the same text. -/
theorem loadSchema_saveSchema (s : Schema) :
    ((Content.text s.write).readText = .ok s.write ∧ Schema.parse s.write = .ok s)
      ∧ ∀ (p : Path) (h h' : Session), h.run (saveSchema p s) = (.ok (), h') →
        h'.run (loadSchema p) = (.ok s, h')
          ∧ h'.run (do saveSchema p (← loadSchema p)) = (.ok (), h')
          ∧ ∀ (q : Path) (h'' : Session),
            h'.run (do saveSchema q (← loadSchema p)) = (.ok (), h'') →
              h''.workspace.read q = h'.workspace.read p := by
  refine ⟨⟨s.readText_write, s.parse_write⟩, fun p h h' hsave => ?_⟩
  have hread := read_of_saveSchema hsave
  have hload : h'.run (loadSchema p) = (.ok s, h') := run_loadSchema hread
  refine ⟨hload, ?_, fun q h'' hagain => ?_⟩
  · rw [run_bind_ok hload]
    exact run_saveSchema_again hsave
  · rw [run_bind_ok hload] at hagain
    rw [read_of_saveSchema hagain, hread]

/-- A schema with all kinds of relationships, a reference that leads nowhere, and texts that have to
be escaped. -/
def escapedSchema : Schema :=
  { tables :=
      [{ name := "Post"
         columns :=
          [{ name := "title", size := some 9223372036854775808, comment := some "a \"b\"\r\n\\" },
            { name := "user_id", type := .bigint, foreignKey := some { table := "users" } },
            { name := "state", type := .enum, enumValues := ["", "é", "𐀀"]
              minimum := some (-1) }] },
        { name := "post_tag", isPivot := true }]
    relationships :=
      [.oneToOne "User" "Profile", .oneToMany "User" "Post", .manyToMany "Post" "Tag" none]
    unresolved := [{ table := "posts", column := "user_id", references := "users" }] }

theorem loadSchema_saveSchema_escaped :
    let h : Session := { clock := ⟨2024, 3, 5, 14, 7, 9⟩ }
    let p : Path := { parts := ["out", "schema.json"] }
    let h' := (h.run (saveSchema p escapedSchema)).2
    h.run (saveSchema p escapedSchema) = (.ok (), h')
      ∧ h'.run (loadSchema p) = (.ok escapedSchema, h')
      ∧ h'.run (do saveSchema p (← loadSchema p)) = (.ok (), h') := by
  intro h p h'
  obtain ⟨hload, hagain, -⟩ := (loadSchema_saveSchema escapedSchema).2 p h h' rfl
  exact ⟨rfl, hload, hagain⟩

end Crowsfoot
