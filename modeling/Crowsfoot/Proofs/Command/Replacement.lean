import Crowsfoot.Proofs.Command.Existing
import Crowsfoot.Proofs.Command.Filing
import Crowsfoot.Proofs.Migration.FileNames

/-!
# Replacing migrations

Generated migrations take the place of those that create the same tables. What is there of these is
in the way (`inTheWay`): it is removed, and then the files are written (`run_clear`). What this
leaves is `Replaced`.

`ending_replaceMigrations`: a replacement that is refused changes no file, and one that is done has
replaced the migrations of its tables and nothing else. It only fails half way where a migration
that is there belongs to two tables, or where a directory is named like one (`Replaceable`).
-/

namespace Crowsfoot.Command

open Crowsfoot.Files Crowsfoot.Host Crowsfoot.Migration Session

/-! ## What a replacement leaves -/

/-- The places in a directory of files that create one of some tables. -/
def migrationsOf (dir : Place) (tables : List String) : Set Place :=
  {q | ∃ name, q = dir ++ [name] ∧ ∃ table ∈ tables, Creates table name}

/-- The places of the migrations of some tables in the directory that a path leads to. -/
def migrationsAt (dir : Path) (tables : List String) : Set Place :=
  {q | ∃ place, dir.destination? = some place ∧ q ∈ migrationsOf place tables}

/-- What replacing the migrations in a directory leaves. The files at some places may have changed
before. -/
structure Replaced (dir : Place) (files : List GeneratedFile) (spare : Set Place)
    (w w' : Workspace) : Prop where
  /-- Every generated file is there with its content. -/
  placed : ∀ f ∈ files, w'.file? (dir ++ [f.filename]) = some (.text f.content)
  /-- No other file creates one of the tables. -/
  removed : ∀ q ∈ migrationsOf dir (files.map (·.table)),
    (∀ f ∈ files, q ≠ dir ++ [f.filename]) → w'.file? q = none
  /-- All other files are as they were. -/
  confined : w.Confined (spare ∪ migrationsOf dir (files.map (·.table))) w'

/-- What was changed before does not count where it may, or where it is replaced. -/
theorem Replaced.after {dir : Place} {files : List GeneratedFile} {spare more : Set Place}
    {w w₁ w' : Workspace}
    (hbefore : w.Confined (more ∪ migrationsOf dir (files.map (·.table))) w₁)
    (h : Replaced dir files spare w₁ w') (hspare : spare ⊆ more) : Replaced dir files more w w' :=
  ⟨h.placed, h.removed, hbefore.trans (h.confined.mono (Set.union_subset_union_left _ hspare))⟩

/-- The migrations of tables can be replaced: no file that is there belongs to two of them, and in the
end no directory is named like one. Directories stay, so none was before. -/
structure Replaceable (dir : Path) (tables : List String) (w w' : Workspace) : Prop where
  apart : ∀ q t u, t ∈ tables → u ∈ tables → q ∈ migrationsAt dir [t] → q ∈ migrationsAt dir [u] →
    w.file? q ≠ none → t = u
  free : ∀ q ∈ migrationsAt dir tables, w'.kindAt q ≠ some .directory

/-- What generated files are like. -/
structure Generated (files : List GeneratedFile) : Prop where
  nonempty : files ≠ []
  plain : ∀ f ∈ files, IsPlain f.table.toList
  named : ∀ f ∈ files, ∃ at_, f.filename = filename f.table at_
  nodup : (files.map (·.filename)).Nodup

section Files

variable {files : List GeneratedFile} {f : GeneratedFile} {place : Place}

theorem Generated.creates (h : Generated files) (hf : f ∈ files) : Creates f.table f.filename := by
  obtain ⟨at_, hname⟩ := h.named f hf
  rw [hname]
  exact creates_filename f.table at_

theorem Generated.isEntryName (h : Generated files) (hf : f ∈ files) : IsEntryName f.filename := by
  obtain ⟨at_, hname⟩ := h.named f hf
  have hslash : '/' ∉ f.filename.toList := by
    rw [hname]
    unfold filename
    simp only [String.toList_append, List.mem_append, not_or]
    refine ⟨⟨⟨fun hmem => ?_, by decide⟩, (h.plain f hf).not_mem rfl⟩, by decide⟩
    rcases Timestamp.isDigit_of_mem_stamp hmem with hc | hc <;> exact absurd hc (by decide)
  have hunder : '_' ∈ f.filename.toList := by
    rw [hname]
    unfold filename
    simp
  refine ⟨Path.ofString_plain hslash ?_ ?_, (h.creates hf).ne_up⟩
  · intro heq
    rw [heq] at hunder
    exact absurd hunder (by decide)
  · intro heq
    rw [heq] at hunder
    exact absurd hunder (by decide)

theorem Generated.mem_migrationsOf (h : Generated files) (hf : f ∈ files) :
    place ++ [f.filename] ∈ migrationsOf place (files.map (·.table)) :=
  ⟨f.filename, rfl, f.table, List.mem_map_of_mem hf, h.creates hf⟩

end Files

/-! ## What is in the way -/

/-- The migrations that are there for tables. -/
def inTheWay (w : Workspace) (dir : Path) (tables : List String) : List Path :=
  tables.eraseDups.flatMap (creating w dir)

section InTheWay

variable {w w₁ w' : Workspace} {dir : Path} {place : Place} {files : List GeneratedFile}

/-- The paths of existing migrations lead to their places. -/
theorem mem_inTheWay (hfiles : Generated files) (hplace : w.place? dir = some place)
    (hdir : w.kindAt place = some .directory) {p : Path} :
    p ∈ inTheWay w dir (files.map (·.table))
      ↔ ∃ name, p = dir.child name ∧ (∃ table ∈ files.map (·.table), Creates table name)
        ∧ w.kindAt (place ++ [name]) ≠ none := by
  have hcreating : ∀ table ∈ files.map (·.table), p ∈ creating w dir table
      ↔ ∃ name, p = dir.child name ∧ Creates table name ∧ w.kindAt (place ++ [name]) ≠ none := by
    intro table htable
    obtain ⟨f, hf, rfl⟩ := List.mem_map.mp htable
    exact mem_creating (hfiles.plain f hf) hplace hdir
  unfold inTheWay
  rw [List.mem_flatMap]
  constructor
  · rintro ⟨table, htable, hp⟩
    rw [List.mem_eraseDups] at htable
    obtain ⟨name, hp, hcreates, hthere⟩ := (hcreating table htable).mp hp
    exact ⟨name, hp, ⟨table, htable, hcreates⟩, hthere⟩
  · rintro ⟨name, hp, ⟨table, htable, hcreates⟩, hthere⟩
    exact ⟨table, List.mem_eraseDups.mpr htable,
      (hcreating table htable).mpr ⟨name, hp, hcreates, hthere⟩⟩

theorem name_child (dir : Path) (name : String) : (dir.child name).name = name := by
  unfold Path.child Path.name
  simp

section Spots

variable (hfiles : Generated files) (hplace : w.place? dir = some place)
  (hdir : w.kindAt place = some .directory)
include hfiles hplace hdir

/-- What is in the way is at a place of a migration. -/
theorem place?_of_mem_inTheWay {p : Path} (hp : p ∈ inTheWay w dir (files.map (·.table))) :
    w.place? p = some (place ++ [p.name])
      ∧ place ++ [p.name] ∈ migrationsOf place (files.map (·.table)) := by
  obtain ⟨name, rfl, hcreates, -⟩ := (mem_inTheWay hfiles hplace hdir).mp hp
  rw [name_child]
  obtain ⟨table, htable, hname⟩ := hcreates
  exact ⟨Workspace.place?_child hplace hdir hname.ne_up, name, rfl, table, htable, hname⟩

/-- **What has been cleared and written is replaced.** -/
theorem replaced_of_cleared
    (hcleared : Cleared ((inTheWay w dir (files.map (·.table))).map fun p => place ++ [p.name])
      w w₁)
    (hadded : Added place files w₁ w') : Replaced place files ∅ w w' := by
  refine ⟨hadded.placed, fun q hq hnew => ?_,
    (hcleared.confined.mono fun q hq => ?_).trans (hadded.confined.mono fun q hq => ?_)⟩
  · rw [hadded.confined.file? q fun ⟨f, hf, heq⟩ => hnew f hf heq]
    by_cases hmem : q ∈ (inTheWay w dir (files.map (·.table))).map fun p => place ++ [p.name]
    · exact hcleared.gone q hmem
    · -- it was not in the way, so nothing was there
      obtain ⟨name, rfl, hcreates⟩ := hq
      rw [hcleared.confined.file? _ hmem]
      apply Workspace.file?_eq_none
      by_contra hthere
      refine hmem (List.mem_map.mpr ⟨dir.child name, ?_, by rw [name_child]⟩)
      exact (mem_inTheWay hfiles hplace hdir).mpr ⟨name, rfl, hcreates, hthere⟩
  · obtain ⟨p, hp, rfl⟩ := List.mem_map.mp hq
    exact Or.inr (place?_of_mem_inTheWay hfiles hplace hdir hp).2
  · obtain ⟨f, hf, rfl⟩ := hq
    exact Or.inr (hfiles.mem_migrationsOf hf)

/-- **Everything in the way is a file that is in the way once**, if no file belongs to two
tables and no directory is named like a migration. -/
theorem removable (hreplaceable : Replaceable dir (files.map (·.table)) w w)  :
    (∀ p ∈ inTheWay w dir (files.map (·.table)), w.kindAt (place ++ [p.name]) = some .file)
      ∧ ((inTheWay w dir (files.map (·.table))).map fun p => place ++ [p.name]).Nodup := by
  have hdestination := Workspace.destination?_of_place? hplace
  have hkind : ∀ p ∈ inTheWay w dir (files.map (·.table)),
      w.kindAt (place ++ [p.name]) = some .file := by
    intro p hp
    have hnot := hreplaceable.free _
      ⟨place, hdestination, (place?_of_mem_inTheWay hfiles hplace hdir hp).2⟩
    obtain ⟨name, rfl, -, hthere⟩ := (mem_inTheWay hfiles hplace hdir).mp hp
    rw [name_child] at hnot ⊢
    cases hkind : w.kindAt (place ++ [name]) with
    | none => exact absurd hkind hthere
    | some kind =>
      cases kind with
      | file => rfl
      | directory => exact absurd hkind hnot
  refine ⟨hkind, List.Nodup.map_on ?_ ?_⟩
  · intro p hp q hq heq
    obtain ⟨name, rfl, -, -⟩ := (mem_inTheWay hfiles hplace hdir).mp hp
    obtain ⟨name', rfl, -, -⟩ := (mem_inTheWay hfiles hplace hdir).mp hq
    rw [name_child, name_child] at heq
    rw [show name = name' by simpa using heq]
  · unfold inTheWay
    rw [List.nodup_flatMap]
    refine ⟨fun table _ => nodup_found w dir _, ?_⟩
    refine (nodup_eraseDups _).imp_of_mem fun {t u} ht hu hne p hpt hpu => hne ?_
    have hp : p ∈ inTheWay w dir (files.map (·.table)) := List.mem_flatMap.mpr ⟨t, ht, hpt⟩
    rw [List.mem_eraseDups] at ht hu
    obtain ⟨f, hf, rfl⟩ := List.mem_map.mp ht
    obtain ⟨g, hg, rfl⟩ := List.mem_map.mp hu
    obtain ⟨name, rfl, hcreates, -⟩ := (mem_creating (hfiles.plain f hf) hplace hdir).mp hpt
    obtain ⟨name', heq, hcreates', -⟩ := (mem_creating (hfiles.plain g hg) hplace hdir).mp hpu
    obtain rfl : name = name' := by rw [← name_child dir name, heq, name_child]
    have hfile := hkind _ hp
    rw [name_child, Workspace.kindAt_eq_file] at hfile
    refine hreplaceable.apart (place ++ [name]) _ _ ht hu ?_ ?_ (Option.isSome_iff_ne_none.mp hfile)
    · exact ⟨place, hdestination, name, rfl, _, List.mem_singleton_self _, hcreates⟩
    · exact ⟨place, hdestination, name, rfl, _, List.mem_singleton_self _, hcreates'⟩

end Spots

end InTheWay

/-! ## Replacing -/

/-- The answer in the lines that will be typed, if there is one. -/
def answer? (h : Session) : Option Bool :=
  h.input.findSome? answerOf?

theorem ask_answer (question complaint : String) (understand : String → Option Bool)
    (input : List String) (output : String) :
    (Session.ask question understand complaint input output).1 = input.findSome? understand := by
  induction input generalizing output with
  | nil => rfl
  | cons line rest ih =>
    unfold Session.ask
    rw [List.findSome?_cons]
    cases understand line with
    | none => exact ih _
    | some answer => rfl

/-- Only force or a yes lets existing migrations be replaced. -/
theorem run_mayReplace (force : Bool) (h : Session) :
    ∃ answer h', h.run (mayReplace force) = (.ok answer, h') ∧ h'.workspace = h.workspace
      ∧ (answer = some true → force = true ∨ answer? h = some true) := by
  cases force with
  | true => exact ⟨some true, h, rfl, rfl, fun _ => Or.inl rfl⟩
  | false =>
    refine ⟨_, _, rfl, rfl, fun hanswer => Or.inr ?_⟩
    rw [answer?, ← ask_answer]
    exact hanswer

/-- Showing names changes nothing but what is shown. -/
theorem run_printNames (names : List String) (h : Session) :
    ∃ output, h.run (printNames names) = (.ok (), { h with output }) := by
  induction names generalizing h with
  | nil => exact ⟨h.output, rfl⟩
  | cons name names ih =>
    obtain ⟨output, hrest⟩ := ih { h with output := h.output ++ (" - " ++ name ++ "\n") }
    exact ⟨output, hrest⟩

/-- How a replacement ends. -/
inductive Ending (dir : Path) (force : Bool) (files : List GeneratedFile) (h h' : Session) :
    Except Failure Outcome → Prop where
  /-- It is refused and changes no file. -/
  | refused (hsame : h.workspace.Confined ∅ h'.workspace) :
      Ending dir force files h h' (.ok .refused)
  /-- It is done; what was in the way was replaced by force or after a yes. -/
  | done (place : Place) (hplace : dir.destination? = some place)
      (hreplaced : Replaced place files ∅ h.workspace h'.workspace)
      (hallowed : force = true ∨ answer? h = some true
        ∨ ∀ q ∈ migrationsOf place (files.map (·.table)), h.workspace.file? q = none) :
      Ending dir force files h h' (.ok .done)
  /-- It fails, and leaves all but the migrations of its tables alone; it changes no file if these
  could be replaced. -/
  | failed (e : Failure)
      (hconfined : h.workspace.Confined (migrationsAt dir (files.map (·.table))) h'.workspace)
      (hreplaceable : Replaceable dir (files.map (·.table)) h.workspace h'.workspace →
        h.workspace.Confined ∅ h'.workspace) :
      Ending dir force files h h' (.error e)

section Replacement

variable {dir : Path} {place : Place} {files : List GeneratedFile} {force : Bool} {h h' : Session}
  {r : Except Failure Outcome}

theorem Replaceable.of_holds {tables : List String} {w w₁ w₂ w' : Workspace}
    (h : Replaceable dir tables w w') (hfile : ∀ q, w₁.file? q = w.file? q) (hholds : w₂.Holds w') :
    Replaceable dir tables w₁ w₂ :=
  ⟨fun q t u ht hu hqt hqu hthere => h.apart q t u ht hu hqt hqu (hfile q ▸ hthere),
    fun q hq hkind => h.free q hq (hholds q hkind)⟩

section Clearing

variable {e : Failure} (hfiles : Generated files)
include hfiles

theorem untouched_writing (dir : Path) :
    Keeps (Untouched (migrationsAt dir (files.map (·.table)))) (writeFiles dir files) :=
  untouched_writeFiles (fun _ hf => hfiles.isEntryName hf) fun _ hf q hq =>
    ⟨q, hq, hfiles.mem_migrationsOf hf⟩

variable (hplace : h.workspace.place? dir = some place)
  (hdir : h.workspace.kindAt place = some .directory)
include hplace hdir

theorem untouched_clearing :
    Keeps (Untouched (migrationsAt dir (files.map (·.table))))
      (removeMigrations (inTheWay h.workspace dir (files.map (·.table)))) := by
  refine untouched_removeMigrations fun p hp q hq => ?_
  obtain ⟨hp, hmem⟩ := place?_of_mem_inTheWay hfiles hplace hdir hp
  rw [Workspace.destination?_of_place? hp] at hq
  exact Option.some.inj hq ▸ ⟨place, Workspace.destination?_of_place? hplace, hmem⟩

/-- Clearing fails only where the migrations cannot be replaced. -/
theorem not_replaceable_of_clearing
    (hrun : h.run (removeMigrations (inTheWay h.workspace dir (files.map (·.table))))
      = (.error e, h')) :
    ¬Replaceable dir (files.map (·.table)) h.workspace h'.workspace := by
  intro hreplaceable
  have hcleared := (untouched_clearing hfiles hplace hdir h).confined
  rw [hrun] at hcleared
  obtain ⟨hkind, hnodup⟩ := removable hfiles hplace hdir
    (hreplaceable.of_holds (fun _ => rfl) hcleared.holds)
  obtain ⟨h₁, hsuccess⟩ := run_removeMigrations
    (fun p hp => (place?_of_mem_inTheWay hfiles hplace hdir hp).1) hkind hnodup
  rw [hrun] at hsuccess
  exact absurd (Prod.mk.inj hsuccess).1 (by simp)

/-- Writing fails only where the migrations cannot be replaced. -/
theorem not_replaceable_of_writing (hrun : h.run (writeFiles dir files) = (.error e, h'))
    (w : Workspace) : ¬Replaceable dir (files.map (·.table)) w h'.workspace := by
  intro hreplaceable
  have hwritten := (untouched_writing hfiles dir h).confined
  rw [hrun] at hwritten
  obtain ⟨h₁, hsuccess⟩ := run_writeFiles hplace hdir (fun f hf => hfiles.isEntryName hf)
    fun f hf hkind => hreplaceable.free _
      ⟨place, Workspace.destination?_of_place? hplace, hfiles.mem_migrationsOf hf⟩
      (hwritten.holds _ hkind)
  rw [hrun] at hsuccess
  exact absurd (Prod.mk.inj hsuccess).1 (by simp)

/-- **What is in the way is removed and the files are written**, or this fails because the
migrations cannot be replaced. -/
theorem run_clear (hrun : h.run (do
        removeMigrations (inTheWay h.workspace dir (files.map (·.table)))
        placeMigrations dir files) = (r, h')) :
    (r = .ok .done ∧ Replaced place files ∅ h.workspace h'.workspace)
      ∨ ∃ e, r = .error e
        ∧ h.workspace.Confined (migrationsAt dir (files.map (·.table))) h'.workspace
        ∧ ¬Replaceable dir (files.map (·.table)) h.workspace h'.workspace := by
  rcases run_bind_cases hrun with ⟨e, hclear, rfl⟩ | ⟨_, h₁, hclear, hrun⟩
  · have hremoved := ((untouched_clearing hfiles hplace hdir).of_run hclear).confined
    exact Or.inr ⟨e, rfl, hremoved, not_replaceable_of_clearing hfiles hplace hdir hclear⟩
  have hremoved := ((untouched_clearing hfiles hplace hdir).of_run hclear).confined
  have hplace₁ := hremoved.holds.place? hplace
  have hdir₁ := hremoved.holds place hdir
  rw [placeMigrations_eq] at hrun
  rcases run_bind_cases hrun with ⟨e, hwrite, rfl⟩ | ⟨_, h₂, hwrite, hrun⟩
  · have hwritten := ((untouched_writing hfiles dir).of_run hwrite).confined
    exact Or.inr ⟨e, rfl, hremoved.trans hwritten,
      not_replaceable_of_writing hfiles hplace₁ hdir₁ hwrite _⟩
  · obtain ⟨rfl, rfl⟩ := Prod.mk.inj hrun
    have hcleared := cleared_of_removeMigrations
      (fun p hp => (place?_of_mem_inTheWay hfiles hplace hdir hp).1) hclear
    have hadded := added_of_writeFiles hplace₁ hdir₁ (fun f hf => hfiles.isEntryName hf)
      hfiles.nodup hwrite
    exact Or.inl ⟨rfl, replaced_of_cleared hfiles hplace hdir hcleared hadded⟩

end Clearing

/-- What goes before a replacement, and touches no file, does not count. -/
theorem Ending.after {h₁ : Session} (hbefore : Untouched ∅ h h₁)
    (hending : Ending dir force files h₁ h' r) : Ending dir force files h h' r := by
  have hfile : ∀ q, h₁.workspace.file? q = h.workspace.file? q :=
    fun q => hbefore.confined.file? q (Set.notMem_empty q)
  cases hending with
  | refused hsame => exact .refused (hbefore.confined.trans hsame)
  | done place hplace hreplaced hallowed =>
    refine .done place hplace
      (hreplaced.after (hbefore.confined.mono (Set.empty_subset _)) (Set.empty_subset ∅)) ?_
    unfold answer? at hallowed ⊢
    rw [hbefore.input] at hallowed
    exact hallowed.imp_right (Or.imp_right fun hnone q hq => hfile q ▸ hnone q hq)
  | failed e hconfined hreplaceable =>
    refine .failed e ((hbefore.confined.mono (Set.empty_subset _)).trans hconfined) fun hall => ?_
    exact hbefore.confined.trans (hreplaceable (hall.of_holds hfile (.refl _)))

/-- What is asked where something is in the way, and what follows from the answer. -/
theorem ending_of_asking (hfiles : Generated files) (hplace : h.workspace.place? dir = some place)
    (hdir : h.workspace.kindAt place = some .directory)
    (hrun : h.run (do
        match ← mayReplace force with
        | some true =>
          removeMigrations (inTheWay h.workspace dir (files.map (·.table)))
          placeMigrations dir files
        | some false =>
          printLine "Operation cancelled."
          return .refused
        | none =>
          printError "Aborted.\n"
          return .refused) = (r, h')) : Ending dir force files h h' r := by
  obtain ⟨answer, h₁, hmay, hworkspace, hallowed⟩ := run_mayReplace force h
  rw [run_bind_ok hmay] at hrun
  have hsame : h.workspace.Confined ∅ h₁.workspace := hworkspace ▸ .refl ∅ h.workspace
  match answer with
  | some true =>
    dsimp only at hrun
    rw [← hworkspace] at hrun hplace hdir
    rcases run_clear hfiles hplace hdir hrun with ⟨rfl, hreplaced⟩ | ⟨e, rfl, hconfined, hnot⟩
    · rw [hworkspace] at hreplaced
      exact .done place (Workspace.destination?_of_place? hplace) hreplaced
        ((hallowed rfl).imp_right Or.inl)
    · rw [hworkspace] at hconfined hnot
      exact .failed e hconfined fun hreplaceable => absurd hreplaceable hnot
  | some false =>
    obtain ⟨rfl, rfl⟩ := Prod.mk.inj hrun
    exact .refused hsame
  | none =>
    obtain ⟨rfl, rfl⟩ := Prod.mk.inj hrun
    exact .refused hsame

/-- Where nothing is in the way, nothing is asked. -/
theorem ending_of_placing (hfiles : Generated files) (hplace : h.workspace.place? dir = some place)
    (hdir : h.workspace.kindAt place = some .directory)
    (hnone : inTheWay h.workspace dir (files.map (·.table)) = [])
    (hrun : h.run (placeMigrations dir files) = (r, h')) : Ending dir force files h h' r := by
  have hclear : h.run (do
      removeMigrations (inTheWay h.workspace dir (files.map (·.table)))
      placeMigrations dir files) = (r, h') := by
    rw [hnone]
    exact hrun
  rcases run_clear hfiles hplace hdir hclear with ⟨rfl, hreplaced⟩ | ⟨e, rfl, hconfined, hnot⟩
  · refine .done place (Workspace.destination?_of_place? hplace) hreplaced (Or.inr (Or.inr ?_))
    rintro q ⟨name, rfl, hcreates⟩
    apply Workspace.file?_eq_none
    by_contra hthere
    have hmem := (mem_inTheWay hfiles hplace hdir).mpr ⟨name, rfl, hcreates, hthere⟩
    rw [hnone] at hmem
    exact absurd hmem List.not_mem_nil
  · exact .failed e hconfined fun hreplaceable => absurd hreplaceable hnot

/-- Nothing is replaced in what is no directory. -/
theorem ending_of_nowhere (hfiles : Generated files)
    (hdir : h.workspace.kind? dir ≠ some .directory)
    (hrun : h.run (placeMigrations dir files) = (r, h')) : Ending dir force files h h' r := by
  obtain ⟨f, fs, rfl⟩ := List.exists_cons_of_ne_nil hfiles.nonempty
  obtain ⟨e, hwrite⟩ := run_writeFiles_nowhere (hfiles.isEntryName List.mem_cons_self) hdir fs
  rw [placeMigrations_eq, run_bind_error hwrite] at hrun
  obtain ⟨rfl, rfl⟩ := Prod.mk.inj hrun
  exact .failed e (.refl _ _) fun _ => .refl _ _

/-- **A replacement is refused or done as a whole**, and fails half way only where the migrations
cannot be replaced. -/
theorem ending_replaceMigrations (hfiles : Generated files)
    (hrun : h.run (replaceMigrations dir force files) = (r, h')) :
    Ending dir force files h h' r := by
  rcases run_bind_cases hrun with ⟨e, hmake, rfl⟩ | ⟨_, h₁, hmake, hrun⟩
  · have hmaking : Untouched ∅ h h' := (untouched_makeDirectory dir).of_run hmake
    exact .failed e (hmaking.confined.mono (Set.empty_subset _)) fun _ => hmaking.confined
  refine .after ((untouched_makeDirectory dir).of_run hmake) ?_
  rw [run_bind_ok (run_existingMigrations hfiles.plain h₁ dir)] at hrun
  by_cases hdir : h₁.workspace.kind? dir = some .directory
  · obtain ⟨place, hplace, hkind⟩ := Option.bind_eq_some_iff.mp hdir
    cases hempty : (existing h₁.workspace dir (files.map (·.table))).isEmpty with
    | true =>
      rw [hempty] at hrun
      refine ending_of_placing hfiles hplace hkind ?_ hrun
      rw [inTheWay, ← paths_existing, List.isEmpty_iff.mp hempty]
      rfl
    | false =>
      rw [hempty] at hrun
      simp only [Bool.false_eq_true, if_false] at hrun
      rw [paths_existing, run_bind_ok (run_printLine h₁ _)] at hrun
      obtain ⟨output, hnames⟩ := run_printNames _ { h₁ with output := _ }
      rw [run_bind_ok hnames] at hrun
      have hasking := ending_of_asking (h := { h₁ with output }) hfiles hplace hkind hrun
      have hshown : Untouched ∅ h₁ { h₁ with output } := ⟨rfl, rfl, .refl ∅ h₁.workspace⟩
      exact hasking.after hshown
  · refine ending_of_nowhere hfiles hdir ?_
    rw [isEmpty_existing hdir] at hrun
    exact hrun

end Replacement

end Crowsfoot.Command
