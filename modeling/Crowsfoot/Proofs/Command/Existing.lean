import Crowsfoot.Command.Run
import Crowsfoot.Proofs.Files.Patterns
import Crowsfoot.Proofs.Host.Runs

/-!
# The migrations that are there already

`Creates` is what the name of a migration says. The command that writes migrations looks for those
of its tables by a pattern; what it finds are exactly the entries of the directory whose names say
so, each once for each table (`mem_found`, `nodup_found`, `run_existingMigrations`).
-/

namespace Crowsfoot.Command

open Crowsfoot.Files Crowsfoot.Host Session

/-! ## Names of migrations -/

/-- What the name of a migration that creates a table ends in. -/
def creationEnding (table : String) : String :=
  "_create_" ++ table ++ "_table.php"

/-- Whether the name of a file says that it creates a table. -/
def Creates (table name : String) : Prop :=
  ∃ lead, name = lead ++ creationEnding table

theorem creates_filename (table : String) (at_ : Timestamp) :
    Creates table (Migration.filename table at_) :=
  ⟨at_.stamp, by unfold Migration.filename creationEnding; simp only [String.append_assoc]⟩

theorem creationEnding_ne_empty (table : String) : creationEnding table ≠ "" := by
  intro h
  have := congrArg String.toList h
  unfold creationEnding at this
  simp at this

theorem isPlain_creationEnding {table : String} (h : IsPlain table.toList) :
    IsPlain (creationEnding table).toList := by
  have hbegin : IsPlain "_create_".toList := by decide
  have hend : IsPlain "_table.php".toList := by decide
  unfold creationEnding
  rw [String.toList_append, String.toList_append]
  exact (hbegin.append h).append hend

/-- No name of a migration leads upwards. -/
theorem Creates.ne_up {table name : String} (h : Creates table name) : name ≠ ".." := by
  obtain ⟨lead, rfl⟩ := h
  intro heq
  have hlast := congrArg (fun s : String => s.toList.getLast?) heq
  unfold creationEnding at hlast
  have hp : "_table.php".toList.getLast? = some 'p' := by decide
  have hdot : "..".toList.getLast? = some '.' := by decide
  simp only [String.toList_append, List.getLast?_append, hp, hdot] at hlast
  exact absurd hlast (by simp)

/-! ## What is found in a directory -/

/-- The entries of a directory that fit a pattern, in order. -/
def found (w : Workspace) (dir : Path) (pattern : Pattern) : List Path :=
  if w.kind? dir = some .directory then
    ((((w.entries dir).filter fun name => pattern.accepts name.toList).map
      dir.child).eraseDups.filter fun p => (w.kind? p).isSome).mergeSort Path.le
  else []

theorem run_find (h : Session) (dir : Path) (pattern : Pattern) :
    h.run (find dir [.fitting pattern]) = (.ok (found h.workspace dir pattern), h) := by
  have hcandidates : h.run (candidates (.fitting pattern) dir) = (.ok
      (((h.workspace.entries dir).filter fun name => pattern.accepts name.toList).map dir.child),
      h) := rfl
  unfold find found
  rw [run_bind_ok (run_isDirectory h dir)]
  by_cases hdir : h.workspace.kind? dir = some .directory
  · rw [hdir, if_pos rfl]
    simp only [beq_self_eq_true, if_true]
    have hall : h.run (List.mapM (candidates (.fitting pattern)) [dir]) = (.ok [_], h) :=
      run_mapM (g := fun _ => _) fun p hp => by rw [List.mem_singleton.mp hp]; exact hcandidates
    have hkept : ∀ ps : List Path, h.run (ps.filterM fun p =>
        if ([] : Glob).isEmpty then isThere p else isDirectory p)
        = (.ok (ps.filter fun p => (h.workspace.kind? p).isSome), h) :=
      fun ps => run_filterM (fun p => run_isThere h p) ps
    have hfind : h.run (findFrom [dir] [.fitting pattern]) = (.ok
        ((((h.workspace.entries dir).filter fun name => pattern.accepts name.toList).map
          dir.child).eraseDups.filter fun p => (h.workspace.kind? p).isSome), h) := by
      unfold findFrom
      rw [run_bind_ok hall, run_bind_ok (hkept _)]
      simp only [List.flatten_cons, List.flatten_nil, List.append_nil]
      rfl
    rw [run_bind_ok hfind]
    rfl
  · rw [if_neg hdir]
    have hfalse : (h.workspace.kind? dir == some .directory) = false :=
      beq_eq_false_iff_ne.mpr hdir
    rw [hfalse]
    rfl

theorem nodup_eraseDups [BEq α] [LawfulBEq α] (as : List α) : as.eraseDups.Nodup := by
  induction hlength : as.length using Nat.strongRecOn generalizing as with
  | ind n ih =>
    cases as with
    | nil => exact .nil
    | cons a as =>
      rw [List.eraseDups_cons, List.nodup_cons]
      refine ⟨?_, ih _ ?_ _ rfl⟩
      · rw [List.mem_eraseDups]
        simp
      · rw [← hlength, List.length_cons]
        exact Nat.lt_succ_of_le (List.length_filter_le _ _)

section Found

variable {w : Workspace} {dir : Path} {place : Place} {pattern : Pattern}

theorem nodup_found (w : Workspace) (dir : Path) (pattern : Pattern) :
    (found w dir pattern).Nodup := by
  unfold found
  split_ifs
  · exact (List.mergeSort_perm _ _).nodup_iff.mpr ((nodup_eraseDups _).filter _)
  · exact .nil

/-- **What is found is what is there under a name that fits.** -/
theorem mem_found (hplace : w.place? dir = some place) (hdir : w.kindAt place = some .directory)
    (hup : ∀ name, pattern.accepts name.toList = true → name ≠ "..") {p : Path} :
    p ∈ found w dir pattern ↔ ∃ name, p = dir.child name ∧ pattern.accepts name.toList = true
      ∧ w.kindAt (place ++ [name]) ≠ none := by
  have hkind : w.kind? dir = some .directory := by
    rw [Workspace.kind?, hplace, Option.bind_some, hdir]
  unfold found
  rw [if_pos hkind, List.mem_mergeSort, List.mem_filter, List.mem_eraseDups, List.mem_map]
  constructor
  · rintro ⟨⟨name, hname, rfl⟩, -⟩
    obtain ⟨hentry, haccepts⟩ := List.mem_filter.mp hname
    exact ⟨name, rfl, haccepts, (Workspace.mem_entries hplace hdir).mp hentry⟩
  · rintro ⟨name, rfl, haccepts, hthere⟩
    refine ⟨⟨name, List.mem_filter.mpr ⟨(Workspace.mem_entries hplace hdir).mpr hthere, haccepts⟩,
      rfl⟩, ?_⟩
    rw [Workspace.kind?, Workspace.place?_child hplace hdir (hup name haccepts), Option.bind_some]
    exact Option.isSome_iff_ne_none.mpr hthere

end Found

/-! ## The migrations of tables -/

/-- The entries of a directory that create a table. -/
def creating (w : Workspace) (dir : Path) (table : String) : List Path :=
  found w dir (Pattern.ofString ("*" ++ creationEnding table))

theorem mem_creating {w : Workspace} {dir : Path} {place : Place} {table : String} {p : Path}
    (hplain : IsPlain table.toList) (hplace : w.place? dir = some place)
    (hdir : w.kindAt place = some .directory) :
    p ∈ creating w dir table
      ↔ ∃ name, p = dir.child name ∧ Creates table name ∧ w.kindAt (place ++ [name]) ≠ none := by
  have haccepts : ∀ name : String, (Pattern.ofString ("*" ++ creationEnding table)).accepts
      name.toList = true ↔ Creates table name :=
    Pattern.accepts_star (isPlain_creationEnding hplain)
  unfold creating
  rw [mem_found hplace hdir fun name h => ((haccepts name).mp h).ne_up]
  simp only [haccepts]

theorem creating_eq_nil {w : Workspace} {dir : Path} (h : w.kind? dir ≠ some .directory)
    (table : String) : creating w dir table = [] := by
  unfold creating found
  rw [if_neg h]

theorem run_migrationsCreating {table : String} (hplain : IsPlain table.toList) (h : Session)
    (dir : Path) :
    h.run (migrationsCreating dir table) = (.ok (creating h.workspace dir table), h) := by
  have hpattern : "*_create_" ++ table ++ "_table.php" = "*" ++ creationEnding table := by
    unfold creationEnding
    rw [← String.append_assoc, ← String.append_assoc]
    rfl
  unfold migrationsCreating
  rw [hpattern, glob_star (isPlain_creationEnding hplain) (creationEnding_ne_empty table),
    run_bind_ok (run_orFail h .glob _)]
  exact run_find h dir _

/-- The migrations that are there for tables. -/
def existing (w : Workspace) (dir : Path) (tables : List String) : List (String × List Path) :=
  (tables.eraseDups.map fun table => (table, creating w dir table)).filter fun f => !f.2.isEmpty

/-- **Looking for existing migrations changes nothing.** -/
theorem run_existingMigrations {files : List Migration.GeneratedFile}
    (hplain : ∀ f ∈ files, IsPlain f.table.toList) (h : Session) (dir : Path) :
    h.run (existingMigrations dir files)
      = (.ok (existing h.workspace dir (files.map (·.table))), h) := by
  unfold existingMigrations
  rw [run_bind_ok (run_mapM (g := fun table => (table, creating h.workspace dir table)) ?_)]
  · rfl
  · intro table htable
    obtain ⟨f, hf, rfl⟩ := List.mem_map.mp (List.mem_eraseDups.mp htable)
    rw [run_bind_ok (run_migrationsCreating (hplain f hf) h dir)]
    rfl

/-- The paths of existing migrations, table by table. -/
theorem paths_existing (w : Workspace) (dir : Path) (tables : List String) :
    (existing w dir tables).flatMap Prod.snd = tables.eraseDups.flatMap (creating w dir) := by
  unfold existing
  induction tables.eraseDups with
  | nil => rfl
  | cons table rest ih =>
    rw [List.map_cons, List.filter_cons, List.flatMap_cons]
    cases hempty : (creating w dir table).isEmpty with
    | true =>
      rw [List.isEmpty_iff.mp hempty, List.nil_append, ← ih]
      simp
    | false => simp [ih]

/-- Where no directory is, there are no migrations. -/
theorem isEmpty_existing {w : Workspace} {dir : Path} (h : w.kind? dir ≠ some .directory)
    (tables : List String) : (existing w dir tables).isEmpty = true := by
  unfold existing
  rw [List.isEmpty_iff, List.filter_eq_nil_iff]
  intro f hf
  obtain ⟨table, -, rfl⟩ := List.mem_map.mp hf
  simp [creating_eq_nil h]

end Crowsfoot.Command
