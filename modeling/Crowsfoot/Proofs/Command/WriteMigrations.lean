import Crowsfoot.Proofs.Command.Replacement
import Crowsfoot.Proofs.Host.Project
import Crowsfoot.Proofs.Inference.StorageNames
import Crowsfoot.Proofs.Inference.Written
import Mathlib.Logic.Relation

/-!
# Writing migrations

The command that writes migrations, from the start-up to its end. Up to the replacement it only
touches its log: the diagram is found, read and rendered as a whole before the first file is
(`leadsTo_writeMigrations`), and what is rendered can be placed in a directory
(`generated_of_migrationsOfDiagram`).

`keeps_or_replaces`: a run changes no file, or it replaces exactly the migrations of its tables. So
runs on one diagram never accumulate files.

The log is a file like any other, and may even be named like a migration. Its place is left out
(`MigrationRun.logs`), and whether the migrations that are there belong to two tables counts once
the log is open.
-/

namespace Crowsfoot.Command

open Crowsfoot.Files Crowsfoot.Host Crowsfoot.Migration Session

/-! ## The files of a diagram -/

theorem isPlain_of_spelled {name : String} (h : SpelledName name) : IsPlain name.toList := by
  intro c hc
  have hfour : ∀ c, isSpecial c = true → c = '*' ∨ c = '?' ∨ c = '[' ∨ c = '/' := by
    intro c hspecial
    simpa [isSpecial, or_assoc] using hspecial
  by_contra hspecial
  rcases hfour c (Bool.eq_true_of_not_eq_false hspecial) with rfl | rfl | rfl | rfl <;>
    exact absurd (h _ hc) (by decide)

/-- The names of the tables of a diagram; there are none where it cannot be read. -/
def storedTables (text : String) : List String :=
  match schemaOfDiagram text with
  | .ok s => s.tables.map Table.storageName
  | .error _ => []

/-- The files of a diagram are those of its tables. -/
theorem tables_of_migrationsOfDiagram {o : Options} {at_ : Timestamp} {text : String}
    {files : List GeneratedFile} (h : migrationsOfDiagram o at_ text = .ok files) :
    files.map (·.table) = storedTables text := by
  obtain ⟨s, hs, hfiles⟩ := Inference.writeTables_of_migrationsOfDiagram h
  rw [storedTables, hs]
  exact Inference.tables_of_writeTables hfiles

theorem migrationsOfDiagram_of_writeAll {o : Options} {at_ : Timestamp} {text : String} {s : Schema}
    {files : List GeneratedFile} (hs : schemaOfDiagram text = .ok s)
    (hwrite : writeAll o at_ s = .ok files) : migrationsOfDiagram o at_ text = .ok files := by
  unfold migrationsOfDiagram
  rw [hs]
  exact congrArg (Except.mapError ConversionError.write) hwrite

/-- **What is rendered are generated files**: named after spelled tables, with no name twice. -/
theorem generated_of_migrationsOfDiagram {o : Options} {at_ : Timestamp} {text : String}
    {files : List GeneratedFile} (h : migrationsOfDiagram o at_ text = .ok files)
    (hne : files ≠ []) : Generated files := by
  obtain ⟨s, hs, hfiles⟩ := Inference.writeTables_of_migrationsOfDiagram h
  obtain ⟨hnames, hnodup⟩ := names_of_writeTables hfiles
  refine ⟨hne, fun f hf => ?_, fun f hf => ?_, hnodup⟩
  · have hmem : f.table ∈ s.tables.map Table.storageName :=
      Inference.tables_of_writeTables hfiles ▸ List.mem_map_of_mem hf
    obtain ⟨t, ht, hname⟩ := List.mem_map.mp hmem
    exact hname ▸ isPlain_of_spelled (Inference.spelled_storageName hs ht)
  · obtain ⟨_, t, -, hname, -⟩ := hnames f hf
    exact ⟨t, hname⟩

/-! ## The command up to the replacement -/

/-- The text of the diagram that a command finds. -/
def FindsText (settings : Settings) (diagram : Option String) (d : Directories) (h : Session)
    (text : String) : Prop :=
  (h.run (do readText (← findDiagram diagram (d.diagrams.getD settings.diagramsDirectory)))).1
    = .ok text

/-- Without its replacement, an action leaves all but some places alone and is not done; or it ends
with the replacement of files that are as required. -/
def LeadsTo (spare : Set Place) (dir : Path) (force : Bool) (required : List GeneratedFile → Prop)
    (x : Action (StateM Session) Outcome) (h : Session) : Prop :=
  ∀ r h', h.run x = (r, h') →
    (Untouched spare h h' ∧ r ≠ .ok .done)
      ∨ ∃ files h₁, required files ∧ Untouched spare h h₁
        ∧ h₁.run (replaceMigrations dir force files) = (r, h')

section LeadsTo

variable {spare : Set Place} {dir : Path} {force : Bool} {required : List GeneratedFile → Prop}
  {h : Session}

theorem LeadsTo.bind {x : Action (StateM Session) α} {f : α → Action (StateM Session) Outcome}
    (hx : Keeps (Untouched spare) x)
    (hf : ∀ a h₁, h.run x = (.ok a, h₁) → Untouched spare h h₁ →
      LeadsTo spare dir force required (f a) h₁) :
    LeadsTo spare dir force required (x >>= f) h := by
  intro r h' hrun
  rcases run_bind_cases hrun with ⟨e, hfirst, rfl⟩ | ⟨a, h₁, hfirst, hrest⟩
  · exact Or.inl ⟨hx.of_run hfirst, by simp⟩
  · have hkept := hx.of_run hfirst
    rcases hf a h₁ hfirst hkept r h' hrest with ⟨hrest, hnot⟩ | ⟨files, h₂, hfiles, hrest, hlast⟩
    · exact Or.inl ⟨(lasting_untouched spare).trans hkept hrest, hnot⟩
    · exact Or.inr ⟨files, h₂, hfiles, (lasting_untouched spare).trans hkept hrest, hlast⟩

theorem leadsTo_refuse (reason : String) (h : Session) :
    LeadsTo spare dir force required (refuse reason) h := by
  rintro r h' hrun
  obtain ⟨rfl, rfl⟩ := Prod.mk.inj hrun
  exact Or.inl ⟨⟨rfl, rfl, .refl spare h.workspace⟩, by simp⟩

theorem leadsTo_throw (e : Failure) (h : Session) :
    LeadsTo spare dir force required (throw e) h := by
  rintro r h' hrun
  obtain ⟨rfl, rfl⟩ := Prod.mk.inj hrun
  exact Or.inl ⟨(lasting_untouched spare).refl h, by simp⟩

theorem leadsTo_replaceMigrations {files : List GeneratedFile} (hfiles : required files)
    (h : Session) : LeadsTo spare dir force required (replaceMigrations dir force files) h :=
  fun _ _ hrun => Or.inr ⟨files, h, hfiles, (lasting_untouched spare).refl h, hrun⟩

end LeadsTo

section Preparation

variable {settings : Settings} {log : OpenLog} {diagram : Option String} {d : Directories}
  {force : Bool} {h : Session}

/-- A schema is rendered as a whole before anything is replaced. -/
theorem leadsTo_rendering (hlog : log.file = settings.logFile) {dir : Path}
    {required : List GeneratedFile → Prop} {s : Schema}
    (hrequired : ∀ files, writeAll settings.options h.clock s = .ok files → required files) :
    LeadsTo (logPlaces settings) dir force required (do
      let now ← now
      report log (diagnosticsOfWriting settings.options now s)
      match writeAll settings.options now s with
      | .ok files => replaceMigrations dir force files
      | .error e => if isSchemaFault e then refuse e.message else throw (.write e)) h := by
  refine .bind (x := now) (fun h => (lasting_untouched _).refl h) fun clock h₁ hnow _ => ?_
  obtain ⟨hclock, rfl⟩ := Prod.mk.inj hnow
  obtain rfl := Except.ok.inj hclock
  refine .bind (untouched_report hlog _) fun _ h₂ _ _ => ?_
  split
  · rename_i files hfiles
    exact leadsTo_replaceMigrations (hrequired files hfiles) h₂
  · split_ifs
    · exact leadsTo_refuse _ h₂
    · exact leadsTo_throw _ h₂

/-- A diagram is read from its file. -/
theorem schema_of_readDiagram {o : Options} {path : Path} {s : Schema} {h' : Session}
    (hrun : h.run (readDiagram log o path) = (.ok s, h')) :
    ∃ text, (h.run (readText path)).1 = .ok text ∧ schemaOfDiagram text = .ok s := by
  rcases run_bind_cases hrun with ⟨e, -, herror⟩ | ⟨text, h₁, hread, hrun⟩
  · exact absurd herror (by simp)
  rcases run_bind_cases hrun with ⟨e, -, herror⟩ | ⟨_, h₂, -, hrun⟩
  · exact absurd herror (by simp)
  refine ⟨text, by rw [hread], ?_⟩
  rw [run_orFail] at hrun
  cases hschema : schemaOfDiagram text with
  | error e =>
    rw [hschema] at hrun
    exact absurd (Prod.mk.inj hrun).1 (by simp [Except.mapError])
  | ok s' =>
    rw [hschema] at hrun
    exact congrArg Except.ok (Except.ok.inj (Prod.mk.inj hrun).1)

theorem untouched_readDiagram (hlog : log.file = settings.logFile) (o : Options) (path : Path) :
    Keeps (Untouched (logPlaces settings)) (readDiagram log o path) := by
  have hR := lasting_untouched (logPlaces settings)
  exact hR.bind (hR.of_looks (looks_readText path)) fun text =>
    hR.bind (untouched_report hlog _) fun _ => hR.orFail .read _

theorem untouched_printNames {spare : Set Place} (names : List String) :
    Keeps (Untouched spare) (printNames names : Action (StateM Session) Unit) :=
  (lasting_untouched spare).forM fun _ _ => untouched_printLine _

/-- **The command refuses or fails and touches nothing but the log, or it replaces what it has
rendered**, all at once. -/
theorem leadsTo_writeMigrations (hlog : log.file = settings.logFile) :
    LeadsTo (logPlaces settings) (d.migrations.getD settings.migrationsDirectory) force
      (fun files => files ≠ [] ∧ ∃ text, FindsText settings diagram d h text
        ∧ migrationsOfDiagram settings.options h.clock text = .ok files)
      (writeMigrations settings log diagram force d) h := by
  have hR := lasting_untouched (logPlaces settings)
  have hlooks := looks_observing
    (looks_findDiagram diagram (d.diagrams.getD settings.diagramsDirectory))
  unfold writeMigrations
  refine .bind (hR.of_looks hlooks) fun found h₁ hfound _ => ?_
  obtain rfl : h = h₁ := hlooks.of_run hfound
  split
  · exact leadsTo_throw _ h
  · exact leadsTo_refuse _ h
  · rename_i path
    refine .bind (untouched_printLine _) fun _ h₁ hprint hprinted => ?_
    refine .bind (untouched_readDiagram hlog _ path) fun s h₂ hread hreported => ?_
    obtain ⟨text, htext, hs⟩ := schema_of_readDiagram hread
    have hfinds : FindsText settings diagram d h text := by
      have hworkspace : h₁.workspace = h.workspace :=
        congrArg (fun run : Except Failure Unit × Session => run.2.workspace) hprint.symm
      rw [FindsText, run_bind_ok (run_of_observing hfound), ← htext, fst_run_readText hworkspace]
    split
    · exact leadsTo_refuse _ h₂
    rename_i hempty
    refine .bind (untouched_printLine _) fun _ h₃ _ hregular => ?_
    refine .bind (untouched_printNames _) fun _ h₄ _ hdomain => ?_
    have hclock : h₄.clock = h.clock := by
      rw [hdomain.clock, hregular.clock, hreported.clock, hprinted.clock]
    have hrequired : ∀ clock files, clock = h₄.clock →
        writeAll settings.options clock s = .ok files → files ≠ []
          ∧ ∃ text, FindsText settings diagram d h text
            ∧ migrationsOfDiagram settings.options h.clock text = .ok files := by
      rintro _ files rfl hwrite
      rw [hclock] at hwrite
      have hfiles := migrationsOfDiagram_of_writeAll hs hwrite
      refine ⟨fun hnil => hempty ?_, text, hfinds, hfiles⟩
      have htables := tables_of_migrationsOfDiagram hfiles
      rw [storedTables, hs, hnil] at htables
      simpa using htables.symm
    dsimp only
    split
    · refine .bind (untouched_printLine _) fun _ h₅ _ hpivot => ?_
      refine .bind (untouched_printNames _) fun _ h₆ _ hpivots => ?_
      exact leadsTo_rendering hlog fun files =>
        hrequired _ files (hpivots.clock.trans hpivot.clock)
    · exact leadsTo_rendering hlog fun files => hrequired _ files rfl

end Preparation

/-! ## Whole runs -/

/-- The outcome of a command that has been performed. -/
def outcomeOf : Except Failure Outcome → Outcome
  | .ok outcome => outcome
  | .error f => .failed f

theorem outcomeOf_eq_done {r : Except Failure Outcome} : outcomeOf r = .done ↔ r = .ok .done := by
  cases r <;> simp [outcomeOf]

theorem outcomeOf_eq_refused {r : Except Failure Outcome} :
    outcomeOf r = .refused ↔ r = .ok .refused := by
  cases r <;> simp [outcomeOf]

/-- Runs a command line on a session. -/
def runOn (h : Session) (args : List String) : Outcome × Session :=
  (run args : StateM Session Outcome) h

theorem runOn_eq {args : List String} {request : Request}
    (hargs : Request.parse args = some request) (h : Session) :
    runOn h args = (outcomeOf (h.run (perform request)).1, (h.run (perform request)).2) := by
  have hrun : runOn h args = StateT.run (ExceptT.run (perform request) >>= fun r =>
      (pure (outcomeOf r) : StateM Session Outcome)) h := by
    unfold runOn run
    rw [hargs]
    refine congrArg (fun f => StateT.run (ExceptT.run (perform request) >>= f) h) ?_
    funext r
    cases r <;> rfl
  rw [hrun, StateT.run_bind]
  rfl

/-- A command begins with its start. -/
theorem perform_eq (diagram : Option String) (force : Bool) (d : Directories) :
    (perform (.writeMigrations diagram force d) : Action (StateM Session) Outcome)
      = startUp >>= fun started => writeMigrations started.1 started.2 diagram force d := by
  unfold perform startUp
  simp only [bind_assoc, pure_bind]

/-- A run of the command that writes migrations, from its start to its end. -/
structure MigrationRun where
  args : List String
  diagram : Option String
  force : Bool
  directories : Directories
  requests : Request.parse args = some (.writeMigrations diagram force directories)
  start : Session
  settings : Settings
  log : OpenLog
  /-- The session once the settings are loaded and the log is open. -/
  ready : Session
  opens : start.run startUp = (.ok (settings, log), ready)
  outcome : Outcome
  finish : Session
  ends : runOn start args = (outcome, finish)

namespace MigrationRun

/-- The directory of migrations. -/
def dir (r : MigrationRun) : Path :=
  r.directories.migrations.getD r.settings.migrationsDirectory

/-- The place of the log. -/
def logs (r : MigrationRun) : Set Place :=
  logPlaces r.settings

/-- The text of the diagram. -/
def Draws (r : MigrationRun) (text : String) : Prop :=
  FindsText r.settings r.diagram r.directories r.ready text

/-- The files that the diagram is rendered to. -/
def Renders (r : MigrationRun) (files : List GeneratedFile) : Prop :=
  ∃ text, r.Draws text ∧ migrationsOfDiagram r.settings.options r.start.clock text = .ok files

variable (r : MigrationRun)

/-- The run of a command line, if the command starts. -/
theorem exists_or_failed {args : List String} {diagram : Option String} {force : Bool}
    {d : Directories} (hargs : Request.parse args = some (.writeMigrations diagram force d))
    (h : Session) :
    (∃ r : MigrationRun, r.args = args ∧ r.start = h)
      ∨ (∃ f, (runOn h args).1 = .failed f)
        ∧ h.workspace.Confined ∅ (runOn h args).2.workspace := by
  cases hstart : h.run startUp with
  | mk started h₀ =>
    cases started with
    | ok opened =>
      exact Or.inl ⟨⟨args, diagram, force, d, hargs, h, opened.1, opened.2, h₀, hstart, _, _, rfl⟩,
        rfl, rfl⟩
    | error e =>
      rw [runOn_eq hargs, perform_eq, run_bind_error hstart]
      exact Or.inr ⟨⟨e, rfl⟩, (untouched_of_startUp_error hstart).confined⟩

/-- How a run ends: it leaves all files but the log alone, or as a replacement ends. -/
theorem ending :
    (r.start.workspace.Confined r.logs r.finish.workspace ∧ r.outcome ≠ .done)
      ∨ ∃ files h₁ e, r.Renders files ∧ files ≠ [] ∧ Untouched r.logs r.start h₁
        ∧ (∀ q, h₁.workspace.file? q ≠ none → r.ready.workspace.file? q ≠ none)
        ∧ Ending r.dir r.force files h₁ r.finish e ∧ r.outcome = outcomeOf e := by
  have hends := r.ends
  rw [runOn_eq r.requests] at hends
  obtain ⟨hstarted, hlog, hthere⟩ := untouched_startUp r.opens
  rw [perform_eq, run_bind_ok r.opens] at hends
  cases hwrite : r.ready.run (writeMigrations r.settings r.log r.diagram r.force r.directories) with
  | mk e h' =>
    rw [hwrite] at hends
    obtain ⟨houtcome, rfl⟩ := Prod.mk.inj hends
    rcases leadsTo_writeMigrations hlog e _ hwrite with
      ⟨hkept, hnot⟩ | ⟨files, h₁, ⟨hne, text, hdraws, hfiles⟩, hkept, hreplace⟩
    · refine Or.inl ⟨hstarted.confined.trans hkept.confined, fun hdone => hnot ?_⟩
      exact outcomeOf_eq_done.mp (houtcome.trans hdone)
    · rw [hstarted.clock] at hfiles
      have hgenerated := generated_of_migrationsOfDiagram hfiles hne
      refine Or.inr ⟨files, h₁, e, ⟨text, hdraws, hfiles⟩, hne,
        (lasting_untouched _).trans hstarted hkept, fun q hq => ?_,
        ending_replaceMigrations hgenerated hreplace, houtcome.symm⟩
      -- the log is there once it is open, so reports add no file
      by_cases hmem : q ∈ logPlaces r.settings
      · exact hthere q hmem
      · rwa [hkept.confined.file? q hmem] at hq

/-- A run that is refused changes no file but the log. -/
theorem confined_of_refused (h : r.outcome = .refused) :
    r.start.workspace.Confined r.logs r.finish.workspace := by
  rcases r.ending with ⟨hkept, -⟩ | ⟨files, h₁, e, -, -, hbefore, -, hending, houtcome⟩
  · exact hkept
  obtain rfl := outcomeOf_eq_refused.mp (houtcome.symm.trans h)
  cases hending with
  | refused hsame => exact hbefore.confined.trans (hsame.mono (Set.empty_subset _))

/-- Nor does any that is not done, if the migrations could have been replaced. -/
theorem confined_of_replaceable (h : r.outcome ≠ .done)
    (hreplaceable : ∀ files, r.Renders files →
      Replaceable r.dir (files.map (·.table)) r.ready.workspace r.finish.workspace) :
    r.start.workspace.Confined r.logs r.finish.workspace := by
  rcases r.ending with ⟨hkept, -⟩ | ⟨files, h₁, e, hfiles, -, hbefore, hthere, hending, houtcome⟩
  · exact hkept
  cases hending with
  | refused hsame => exact hbefore.confined.trans (hsame.mono (Set.empty_subset _))
  | done => exact absurd houtcome h
  | failed e _ hunless =>
    obtain ⟨hapart, hfree⟩ := hreplaceable files hfiles
    have hsame := hunless ⟨fun q t u ht hu hqt hqu hq => hapart q t u ht hu hqt hqu (hthere q hq),
      hfree⟩
    exact hbefore.confined.trans (hsame.mono (Set.empty_subset _))

/-- What a run that is done leaves. -/
theorem replaced_of_done (h : r.outcome = .done) :
    ∃ files place, r.Renders files ∧ files ≠ [] ∧ (files.map (·.filename)).Nodup
      ∧ r.dir.destination? = some place
      ∧ Replaced place files r.logs r.start.workspace r.finish.workspace
      ∧ (r.force = true ∨ answer? r.start = some true
        ∨ ∀ q ∈ migrationsOf place (files.map (·.table)), q ∉ r.logs →
          r.start.workspace.file? q = none) := by
  rcases r.ending with ⟨-, hnot⟩ | ⟨files, h₁, e, hfiles, hne, hbefore, -, hending, houtcome⟩
  · exact absurd h hnot
  obtain rfl := outcomeOf_eq_done.mp (houtcome.symm.trans h)
  cases hending with
  | done place hplace hreplaced hallowed =>
    obtain ⟨text, hdraws, hrendered⟩ := hfiles
    refine ⟨files, place, ⟨text, hdraws, hrendered⟩, hne,
      (generated_of_migrationsOfDiagram hrendered hne).nodup, hplace,
      hreplaced.after (hbefore.confined.mono Set.subset_union_left) (Set.empty_subset _), ?_⟩
    unfold answer? at hallowed ⊢
    rw [hbefore.input] at hallowed
    exact hallowed.imp_right (Or.imp_right fun hnone q hq hlog =>
      hbefore.confined.file? q hlog ▸ hnone q hq)

/-! ## Runs after runs -/

variable {r} {text : String} {dir : Path} {logs : Set Place} {w w' : Workspace}

theorem tables_of_renders {files : List GeneratedFile} (hdraws : r.Draws text)
    (hfiles : r.Renders files) : files.map (·.table) = storedTables text := by
  obtain ⟨text', hdraws', hrendered⟩ := hfiles
  obtain rfl : text' = text := Except.ok.inj (hdraws'.symm.trans hdraws)
  exact tables_of_migrationsOfDiagram hrendered

/-- However a run ends, it leaves all but the log and the migrations of its tables alone. -/
theorem confined_of_draws (hdraws : r.Draws text) :
    r.start.workspace.Confined (r.logs ∪ migrationsAt r.dir (storedTables text))
      r.finish.workspace := by
  rcases r.ending with ⟨hkept, -⟩ | ⟨files, h₁, e, hfiles, -, hbefore, -, hending, -⟩
  · exact hkept.mono Set.subset_union_left
  rw [← tables_of_renders hdraws hfiles]
  refine (hbefore.confined.mono Set.subset_union_left).trans ?_
  cases hending with
  | refused hsame => exact hsame.mono (Set.empty_subset _)
  | done place hplace hreplaced =>
    exact hreplaced.confined.mono
      (Set.union_subset_union (Set.empty_subset _) fun q hq => ⟨place, hplace, hq⟩)
  | failed e hconfined => exact hconfined.mono Set.subset_union_right

/-- A run by force on a diagram, in a directory and with a log. -/
structure ForcedOn (r : MigrationRun) (text : String) (dir : Path) (logs : Set Place) : Prop where
  force : r.force = true
  draws : r.Draws text
  dir : r.dir = dir
  logs : r.logs = logs

/-- One workspace becomes the other by a run by force, however this ends. -/
def Rerun (text : String) (dir : Path) (logs : Set Place) (w w' : Workspace) : Prop :=
  ∃ r : MigrationRun, r.ForcedOn text dir logs ∧ r.start.workspace = w ∧ r.finish.workspace = w'

theorem Rerun.confined (h : Rerun text dir logs w w') :
    w.Confined (logs ∪ migrationsAt dir (storedTables text)) w' := by
  obtain ⟨r, ⟨-, hdraws, rfl, rfl⟩, rfl, rfl⟩ := h
  exact confined_of_draws hdraws

theorem confined_of_reruns (h : Relation.ReflTransGen (Rerun text dir logs) w w') :
    w.Confined (logs ∪ migrationsAt dir (storedTables text)) w' := by
  induction h with
  | refl => exact .refl _ w
  | tail _ hlast ih => exact ih.trans hlast.confined

/-- **Runs do not accumulate**: what a run leaves that is done does not depend on the runs before
it. -/
theorem replaced_of_reruns
    (hbefore : Relation.ReflTransGen (Rerun text dir logs) w r.start.workspace)
    (hon : r.ForcedOn text dir logs) (hdone : r.outcome = .done) :
    ∃ files place, r.Renders files ∧ dir.destination? = some place
      ∧ Replaced place files logs w r.finish.workspace := by
  obtain ⟨-, hdraws, rfl, rfl⟩ := hon
  obtain ⟨files, place, hfiles, -, -, hplace, hreplaced, -⟩ := r.replaced_of_done hdone
  refine ⟨files, place, hfiles, hplace, hreplaced.after ?_ subset_rfl⟩
  have hconfined := confined_of_reruns hbefore
  rw [← tables_of_renders hdraws hfiles] at hconfined
  refine hconfined.mono (Set.union_subset_union_right _ ?_)
  rintro q ⟨place', hplace', hq⟩
  exact Option.some.inj (hplace'.symm.trans hplace) ▸ hq

end MigrationRun

/-- **Writing migrations changes nothing or replaces exactly the migrations of its tables.**

A command that does not start changes no file. A run that is refused changes no file, and neither
does any other that is not done, as far as no migration belongs to two of its tables and no
directory is named like one. A run that is done has rendered its diagram to files of different
names, which are there with their contents; no other file creates one of their tables, and all other
files are as they were. It has replaced migrations by force or after a yes only. The log is left out
of account.

Hence runs by force on one diagram do not accumulate files: after any number of them, however they
ended, a run that is done leaves what it alone would have left. -/
theorem keeps_or_replaces :
    (∀ (args : List String) (diagram : Option String) (force : Bool) (d : Directories)
        (h : Session),
      Request.parse args = some (.writeMigrations diagram force d) →
      (∃ r : MigrationRun, r.args = args ∧ r.start = h)
        ∨ (∃ f, (runOn h args).1 = .failed f)
          ∧ h.workspace.Confined ∅ (runOn h args).2.workspace)
    ∧ (∀ r : MigrationRun,
      (r.outcome = .refused → r.start.workspace.Confined r.logs r.finish.workspace)
      ∧ (r.outcome ≠ .done →
          (∀ files, r.Renders files →
            Replaceable r.dir (files.map (·.table)) r.ready.workspace r.finish.workspace) →
          r.start.workspace.Confined r.logs r.finish.workspace)
      ∧ (r.outcome = .done →
          ∃ files place, r.Renders files ∧ files ≠ [] ∧ (files.map (·.filename)).Nodup
            ∧ r.dir.destination? = some place
            ∧ Replaced place files r.logs r.start.workspace r.finish.workspace
            ∧ (r.force = true ∨ answer? r.start = some true
              ∨ ∀ q ∈ migrationsOf place (files.map (·.table)), q ∉ r.logs →
                r.start.workspace.file? q = none)))
    ∧ ∀ (text : String) (dir : Path) (logs : Set Place) (w : Workspace) (r : MigrationRun),
        Relation.ReflTransGen (MigrationRun.Rerun text dir logs) w r.start.workspace →
        r.ForcedOn text dir logs → r.outcome = .done →
        ∃ files place, r.Renders files ∧ dir.destination? = some place
          ∧ Replaced place files logs w r.finish.workspace :=
  ⟨fun _ _ _ _ h hargs => MigrationRun.exists_or_failed hargs h,
    fun r => ⟨r.confined_of_refused, r.confined_of_replaceable, r.replaced_of_done⟩,
    fun _ _ _ _ _ hbefore hon hdone => MigrationRun.replaced_of_reruns hbefore hon hdone⟩

/-- A diagram of one table. -/
def userDiagram : String := "entity User \x7b\n* id\n\x7d\n"

/-- Arguments that name a diagram and force replacement. -/
def forcedArguments : List String :=
  ["gen-migration", "user.puml", "--force", "--diagrams-dir", "."]

theorem eq_mk_of_fst {p : α × β} {a : α} (h : p.1 = a) : p = (a, p.2) :=
  Prod.ext h rfl

/-- The run with these arguments in a project without settings. -/
def forcedRun (start : Session) (outcome : Outcome)
    (hstart : (start.run startUp).1 = .ok ({}, ⟨20, none⟩))
    (hends : (runOn start forcedArguments).1 = outcome) : MigrationRun where
  args := forcedArguments
  diagram := some "user.puml"
  force := true
  directories := { diagrams := some { parts := [] } }
  requests := by decide +kernel
  start := start
  settings := {}
  log := ⟨20, none⟩
  ready := (start.run startUp).2
  opens := eq_mk_of_fst hstart
  outcome := outcome
  finish := (runOn start forcedArguments).2
  ends := eq_mk_of_fst hends

/-- A run that finds no diagram. -/
def refusedRun : MigrationRun :=
  forcedRun { clock := ⟨2024, 3, 5, 14, 7, 9⟩ } .refused (by decide +kernel) (by decide +kernel)

/-- A project with nothing but the diagram. -/
def userProject : Session where
  workspace := { files := [(["user.puml"], .text userDiagram)] }
  clock := ⟨2024, 3, 5, 14, 7, 9⟩

def firstRun : MigrationRun :=
  forcedRun userProject .done (by decide +kernel) (by decide +kernel)

/-- The session with another time. -/
def laterOn (h : Session) (clock : Timestamp) : Session :=
  { h with clock }

theorem workspace_laterOn (h : Session) (clock : Timestamp) :
    (laterOn h clock).workspace = h.workspace := rfl

/-- The run in the same project on the next day. -/
def nextRun : MigrationRun :=
  forcedRun (laterOn firstRun.finish ⟨2024, 3, 6, 8, 0, 0⟩) .done (by decide +kernel)
    (by decide +kernel)

theorem keeps_or_replaces_userProject :
    refusedRun.start.workspace.Confined refusedRun.logs refusedRun.finish.workspace
      ∧ (∃ files place, firstRun.Renders files ∧ firstRun.dir.destination? = some place
        ∧ Replaced place files firstRun.logs firstRun.start.workspace firstRun.finish.workspace)
      ∧ nextRun.start.workspace = firstRun.finish.workspace
      ∧ ∃ files place, nextRun.Renders files
        ∧ Path.destination? { parts := ["database", "migrations"] } = some place
        ∧ Replaced place files (logPlaces {}) userProject.workspace nextRun.finish.workspace := by
  obtain ⟨files, place, hfiles, -, -, hplace, hreplaced, -⟩ :=
    (keeps_or_replaces.2.1 firstRun).2.2 rfl
  have hfirst : firstRun.ForcedOn userDiagram { parts := ["database", "migrations"] }
      (logPlaces {}) :=
    ⟨rfl, by unfold MigrationRun.Draws FindsText; decide +kernel, by decide +kernel, rfl⟩
  have hnext : nextRun.ForcedOn userDiagram { parts := ["database", "migrations"] }
      (logPlaces {}) :=
    ⟨rfl, by unfold MigrationRun.Draws FindsText; decide +kernel, by decide +kernel, rfl⟩
  have hstart : nextRun.start.workspace = firstRun.finish.workspace := workspace_laterOn _ _
  have hrerun : MigrationRun.Rerun userDiagram { parts := ["database", "migrations"] }
      (logPlaces {}) userProject.workspace nextRun.start.workspace :=
    ⟨firstRun, hfirst, rfl, hstart.symm⟩
  exact ⟨(keeps_or_replaces.2.1 refusedRun).1 rfl, ⟨files, place, hfiles, hplace, hreplaced⟩,
    hstart, keeps_or_replaces.2.2 _ _ _ _ nextRun (.single hrerun) hnext rfl⟩

end Crowsfoot.Command
