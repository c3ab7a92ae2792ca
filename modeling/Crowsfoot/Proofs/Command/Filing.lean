import Crowsfoot.Command.Run
import Crowsfoot.Proofs.Files.Patterns
import Crowsfoot.Proofs.Host.Runs

/-!
# Removing and writing files one by one

The command that writes migrations removes a list of paths and writes a list of files. Each list is
gone through from the front, and the first path or file that does not work stops it; what went
before stays done. Removing works where there is a file at each path and none is named twice
(`run_removeMigrations`), and writing in a directory where no directory has the name of a file
(`run_writeFiles`). What has worked is `Cleared` and `Added`.
-/

namespace Crowsfoot.Command

open Crowsfoot.Files Crowsfoot.Host Crowsfoot.Migration Session

/-! ## Removing -/

/-- Removing goes on after a path that could be removed. -/
theorem run_removeMigrations_cons_ok {h : Session} {p : Path} {w : Workspace}
    (hremove : h.workspace.remove p = .ok w) (ps : List Path) :
    ∃ h₁ : Session, h₁.workspace = w
      ∧ h.run (removeMigrations (p :: ps)) = h₁.run (removeMigrations ps) := by
  refine ⟨{ h with
    workspace := w, output := h.output ++ ("Deleted migration: " ++ p.name ++ "\n") }, rfl, ?_⟩
  have hfirst : h.run (do
        Crowsfoot.orFail .file (← Host.remove p)
        printLine ("Deleted migration: " ++ p.name))
      = (.ok (), { h with
        workspace := w, output := h.output ++ ("Deleted migration: " ++ p.name ++ "\n") }) := by
    rw [← bind_assoc, run_bind_ok ((run_remove h p).trans (changed_ok hremove))]
    rfl
  exact run_bind_ok hfirst

theorem run_removeMigrations_cons_error {h : Session} {p : Path} {e : FileError}
    (hremove : h.workspace.remove p = .error e) (ps : List Path) :
    h.run (removeMigrations (p :: ps)) = (.error (.file e), h) := by
  have hfirst : h.run (do
        Crowsfoot.orFail .file (← Host.remove p)
        printLine ("Deleted migration: " ++ p.name)) = (.error (.file e), h) := by
    rw [← bind_assoc, run_bind_error ((run_remove h p).trans (changed_error hremove))]
  exact run_bind_error hfirst

/-- Removing changes nothing but what is removed. -/
theorem untouched_removeMigrations {spare : Set Place} {paths : List Path}
    (hspare : ∀ p ∈ paths, ∀ place, p.destination? = some place → place ∈ spare) :
    Keeps (Untouched spare) (removeMigrations paths) := by
  refine (lasting_untouched spare).forM fun p hp => ?_
  rw [← bind_assoc]
  exact (lasting_untouched spare).bind (untouched_remove (hspare p hp)) fun _ =>
    untouched_printLine _

/-- No file is left at some places, and all others are as they were. -/
structure Cleared (places : List Place) (w w' : Workspace) : Prop where
  confined : w.Confined {q | q ∈ places} w'
  gone : ∀ q ∈ places, w'.file? q = none

theorem Cleared.nil (w : Workspace) : Cleared [] w w :=
  ⟨.refl _ w, by simp⟩

/-- One more file is removed first. -/
theorem Cleared.cons {place : Place} {places : List Place} {w w' : Workspace}
    (h : Cleared places (w.without place) w') : Cleared (place :: places) w w' := by
  refine ⟨.trans ((w.confined_without place).mono ?_) (h.confined.mono ?_),
    List.forall_mem_cons.mpr ⟨?_, h.gone⟩⟩
  · exact Set.singleton_subset_iff.mpr List.mem_cons_self
  · exact fun q hq => List.mem_cons_of_mem place hq
  · by_cases hagain : place ∈ places
    · exact h.gone place hagain
    · rw [h.confined.file? place hagain, Workspace.file?_without, if_pos rfl]

section Removing

variable {paths : List Path} {spot : Path → Place} {h h' : Session}

/-- **Removing succeeds** if there is a file at each path, and each is named once. -/
theorem run_removeMigrations (hspot : ∀ p ∈ paths, h.workspace.place? p = some (spot p))
    (hfile : ∀ p ∈ paths, h.workspace.kindAt (spot p) = some .file)
    (hnodup : (paths.map spot).Nodup) : ∃ h', h.run (removeMigrations paths) = (.ok (), h') := by
  induction paths generalizing h with
  | nil => exact ⟨h, rfl⟩
  | cons p ps ih =>
    obtain ⟨hplace, hplaces⟩ := List.forall_mem_cons.mp hspot
    obtain ⟨hkind, hkinds⟩ := List.forall_mem_cons.mp hfile
    rw [List.map_cons, List.nodup_cons] at hnodup
    obtain ⟨h₁, hworkspace, hrun⟩ := run_removeMigrations_cons_ok
      (Workspace.remove_eq_ok.mpr ⟨spot p, hplace, hkind, rfl⟩) ps
    have hconfined : h.workspace.Confined {spot p} h₁.workspace :=
      hworkspace ▸ Workspace.confined_without _ _
    obtain ⟨h', hrest⟩ := ih (fun q hq => hconfined.holds.place? (hplaces q hq))
      (fun q hq => by
        have hne : spot q ≠ spot p := fun heq => hnodup.1 (heq ▸ List.mem_map_of_mem hq)
        rw [Workspace.kindAt_eq_file, hconfined.file? _ hne, ← Workspace.kindAt_eq_file]
        exact hkinds q hq)
      hnodup.2
    exact ⟨h', hrun.trans hrest⟩

/-- **Where removing succeeds, none of the files is left.** -/
theorem cleared_of_removeMigrations (hspot : ∀ p ∈ paths, h.workspace.place? p = some (spot p))
    (hrun : h.run (removeMigrations paths) = (.ok (), h')) :
    Cleared (paths.map spot) h.workspace h'.workspace := by
  induction paths generalizing h with
  | nil =>
    obtain rfl : h = h' := (Prod.mk.inj hrun).2
    exact .nil _
  | cons p ps ih =>
    obtain ⟨hplace, hplaces⟩ := List.forall_mem_cons.mp hspot
    cases hremove : h.workspace.remove p with
    | error e =>
      rw [run_removeMigrations_cons_error hremove] at hrun
      exact absurd (Prod.mk.inj hrun).1 (by simp)
    | ok w =>
      obtain ⟨place, hplace', -, rfl⟩ := Workspace.remove_eq_ok.mp hremove
      obtain rfl : place = spot p := Option.some.inj (hplace'.symm.trans hplace)
      obtain ⟨h₁, hworkspace, hfirst⟩ := run_removeMigrations_cons_ok hremove ps
      rw [hfirst] at hrun
      have hrest := ih (fun q hq => hworkspace ▸
        (h.workspace.holds_without _).place? (hplaces q hq)) hrun
      rw [hworkspace] at hrest
      exact .cons hrest

end Removing

/-! ## Writing -/

/-- Writes files to a directory one by one. -/
def writeFiles (dir : Path) (files : List GeneratedFile) : Action (StateM Session) Unit :=
  files.forM fun f => do
    writeText (dir.join (Path.ofString f.filename)) f.content
    printLine ("Created migration: " ++ f.filename)

/-- Writing goes on after a file that could be written. -/
theorem run_writeFiles_cons_ok {h : Session} {dir : Path} {f : GeneratedFile} {w : Workspace}
    (hwrite : h.workspace.write (dir.join (Path.ofString f.filename)) f.content = .ok w)
    (fs : List GeneratedFile) :
    ∃ h₁ : Session, h₁.workspace = w
      ∧ h.run (writeFiles dir (f :: fs)) = h₁.run (writeFiles dir fs) := by
  refine ⟨{ h with
    workspace := w, output := h.output ++ ("Created migration: " ++ f.filename ++ "\n") }, rfl, ?_⟩
  have hfirst : h.run (do
        writeText (dir.join (Path.ofString f.filename)) f.content
        printLine ("Created migration: " ++ f.filename))
      = (.ok (), { h with
        workspace := w, output := h.output ++ ("Created migration: " ++ f.filename ++ "\n") }) := by
    rw [run_bind_ok ((run_writeText h _ _).trans (changed_ok hwrite))]
    rfl
  exact run_bind_ok hfirst

theorem run_writeFiles_cons_error {h : Session} {dir : Path} {f : GeneratedFile} {e : FileError}
    (hwrite : h.workspace.write (dir.join (Path.ofString f.filename)) f.content = .error e)
    (fs : List GeneratedFile) :
    h.run (writeFiles dir (f :: fs)) = (.error (.file e), h) := by
  have hfirst : h.run (do
        writeText (dir.join (Path.ofString f.filename)) f.content
        printLine ("Created migration: " ++ f.filename)) = (.error (.file e), h) :=
    run_bind_error ((run_writeText h _ _).trans (changed_error hwrite))
  exact run_bind_error hfirst

/-- The name of a file is a path of its own. -/
def IsEntryName (name : String) : Prop :=
  Path.ofString name = { parts := [name] } ∧ name ≠ ".."

/-- Files have been written to a directory, and all others are as they were. -/
structure Added (dir : Place) (files : List GeneratedFile) (w w' : Workspace) : Prop where
  confined : w.Confined {q | ∃ f ∈ files, q = dir ++ [f.filename]} w'
  placed : ∀ f ∈ files, w'.file? (dir ++ [f.filename]) = some (.text f.content)

theorem Added.nil (dir : Place) (w : Workspace) : Added dir [] w w :=
  ⟨.refl _ w, by simp⟩

/-- One more file is written first. -/
theorem Added.cons {dir : Place} {f : GeneratedFile} {fs : List GeneratedFile} {w w' : Workspace}
    (hkind : w.kindAt (dir ++ [f.filename]) ≠ some .directory)
    (hnew : f.filename ∉ fs.map (·.filename))
    (h : Added dir fs (w.put (dir ++ [f.filename]) (.text f.content)) w') :
    Added dir (f :: fs) w w' := by
  refine ⟨.trans ((Workspace.confined_put hkind).mono ?_) (h.confined.mono ?_),
    List.forall_mem_cons.mpr ⟨?_, h.placed⟩⟩
  · exact Set.singleton_subset_iff.mpr ⟨f, List.mem_cons_self, rfl⟩
  · rintro q ⟨g, hg, hq⟩
    exact ⟨g, List.mem_cons_of_mem f hg, hq⟩
  · rw [h.confined.file?, Workspace.file?_put, if_pos rfl]
    rintro ⟨g, hg, heq⟩
    have hname : f.filename = g.filename := by simpa using heq
    exact hnew (hname ▸ List.mem_map_of_mem hg)

section Writing

variable {dir : Path} {place : Place} {files : List GeneratedFile} {h h' : Session}

/-- Writing changes nothing but what is written. -/
theorem untouched_writeFiles {spare : Set Place} (hnames : ∀ f ∈ files, IsEntryName f.filename)
    (hspare : ∀ f ∈ files, ∀ place, dir.destination? = some place → place ++ [f.filename] ∈ spare) :
    Keeps (Untouched spare) (writeFiles dir files) := by
  refine (lasting_untouched spare).forM fun f hf => ?_
  refine (lasting_untouched spare).bind (untouched_writeText ?_ _) fun _ => untouched_printLine _
  intro q hq
  have hdestination : (dir.child f.filename).destination? = some q := by
    rw [(hnames f hf).1] at hq
    exact hq
  rw [Workspace.destination?_child (hnames f hf).2, Option.map_eq_some_iff] at hdestination
  obtain ⟨place, hplace, rfl⟩ := hdestination
  exact hspare f hf place hplace

theorem place?_join {w : Workspace} {name : String} (hname : IsEntryName name)
    (hplace : w.place? dir = some place) (hdir : w.kindAt place = some .directory) :
    w.place? (dir.join (Path.ofString name)) = some (place ++ [name]) := by
  rw [hname.1]
  exact Workspace.place?_child hplace hdir hname.2

/-- **Writing succeeds** in a directory, as far as no directory has the name of a file. -/
theorem run_writeFiles (hplace : h.workspace.place? dir = some place)
    (hdir : h.workspace.kindAt place = some .directory)
    (hnames : ∀ f ∈ files, IsEntryName f.filename)
    (hfree : ∀ f ∈ files, h.workspace.kindAt (place ++ [f.filename]) ≠ some .directory) :
    ∃ h', h.run (writeFiles dir files) = (.ok (), h') := by
  induction files generalizing h with
  | nil => exact ⟨h, rfl⟩
  | cons f fs ih =>
    obtain ⟨hname, hnames⟩ := List.forall_mem_cons.mp hnames
    obtain ⟨hkind, hkinds⟩ := List.forall_mem_cons.mp hfree
    have hparent : h.workspace.kindAt (place ++ [f.filename]).dropLast = some .directory := by
      rw [List.dropLast_concat]
      exact hdir
    obtain ⟨h₁, hworkspace, hfirst⟩ := run_writeFiles_cons_ok
      (Workspace.write_of_place? (place?_join hname hplace hdir) hkind hparent) fs
    have hholds : h.workspace.Holds h₁.workspace := hworkspace ▸ Workspace.holds_put hkind
    obtain ⟨h', hrest⟩ := ih (hholds.place? hplace) (hholds place hdir) hnames
      fun g hg hdirectory => hkinds g hg (Workspace.directory_of_put (hworkspace ▸ hdirectory))
    exact ⟨h', hfirst.trans hrest⟩

/-- **Where writing succeeds, the files are there.** -/
theorem added_of_writeFiles (hplace : h.workspace.place? dir = some place)
    (hdir : h.workspace.kindAt place = some .directory)
    (hnames : ∀ f ∈ files, IsEntryName f.filename) (hnodup : (files.map (·.filename)).Nodup)
    (hrun : h.run (writeFiles dir files) = (.ok (), h')) :
    Added place files h.workspace h'.workspace := by
  induction files generalizing h with
  | nil =>
    obtain rfl : h = h' := (Prod.mk.inj hrun).2
    exact .nil place _
  | cons f fs ih =>
    obtain ⟨hname, hnames⟩ := List.forall_mem_cons.mp hnames
    rw [List.map_cons, List.nodup_cons] at hnodup
    cases hwrite : h.workspace.write (dir.join (Path.ofString f.filename)) f.content with
    | error e =>
      rw [run_writeFiles_cons_error hwrite] at hrun
      exact absurd (Prod.mk.inj hrun).1 (by simp)
    | ok w =>
      obtain ⟨q, hq, hkind, rfl⟩ := Workspace.write_eq_ok hwrite
      obtain rfl : q = place ++ [f.filename] :=
        Option.some.inj (hq.symm.trans (place?_join hname hplace hdir))
      obtain ⟨h₁, hworkspace, hfirst⟩ := run_writeFiles_cons_ok hwrite fs
      have hholds : h.workspace.Holds h₁.workspace := hworkspace ▸ Workspace.holds_put hkind
      rw [hfirst] at hrun
      have hadded := ih (hholds.place? hplace) (hholds place hdir) hnames hnodup.2 hrun
      rw [hworkspace] at hadded
      exact .cons hkind hnodup.1 hadded

/-- Nothing is written where no directory is. -/
theorem run_writeFiles_nowhere {f : GeneratedFile} (hname : IsEntryName f.filename)
    (hdir : h.workspace.kind? dir ≠ some .directory) (fs : List GeneratedFile) :
    ∃ e, h.run (writeFiles dir (f :: fs)) = (.error e, h) := by
  have hnone : h.workspace.place? (dir.join (Path.ofString f.filename)) = none := by
    rw [hname.1]
    exact Workspace.place?_child_eq_none hdir
  cases hwrite : h.workspace.write (dir.join (Path.ofString f.filename)) f.content with
  | error e => exact ⟨_, run_writeFiles_cons_error hwrite fs⟩
  | ok w =>
    obtain ⟨q, hq, -, -⟩ := Workspace.write_eq_ok hwrite
    rw [hnone] at hq
    exact absurd hq (by simp)

/-- Placing is writing, and then the command is done. -/
theorem placeMigrations_eq (dir : Path) (files : List GeneratedFile) :
    (placeMigrations dir files : Action (StateM Session) Outcome) = (do
      writeFiles dir files
      printLine ("✓ Generated " ++ toString files.length ++ " migration files")
      return .done) := rfl

end Writing

end Crowsfoot.Command
