import Crowsfoot.Proofs.Host.Runs

/-!
# What the actions of a project leave alone

Looking for a diagram changes nothing (`looks_findDiagram`). The start of a command and its reports
only touch the file of the log (`untouched_startUp`, `untouched_report`); once the log is open, its
file is there (`file?_of_openLog`).
-/

namespace Crowsfoot

open Crowsfoot.Files Crowsfoot.Host

namespace Session

/-! ## Looking for a diagram -/

theorem looks_firstThere (ps : List Path) :
    Keeps Eq (firstThere ps : Action (StateM Session) (Option Path)) := by
  induction ps with
  | nil => exact lasting_eq.pure none
  | cons p ps ih =>
    refine lasting_eq.bind (looks_isThere p) fun there => ?_
    cases there with
    | true => exact lasting_eq.pure (some p)
    | false => exact ih

/-- Looking for the diagram changes nothing. -/
theorem looks_findDiagram (name : Option String) (directory : Path) :
    Keeps Eq (findDiagram name directory : Action (StateM Session) Path) := by
  unfold findDiagram
  split
  · refine lasting_eq.bind (looks_firstThere _) fun found => ?_
    cases found with
    | some p => exact lasting_eq.pure p
    | none => exact lasting_eq.throw _
  · rename_i named _
    dsimp only
    generalize (if (Path.ofString named).isSingle = true then directory.join (Path.ofString named)
      else Path.ofString named) = path
    have hthere : ∀ path, Keeps Eq (do
        if ← isThere path then return path else throw (.missingDiagram path) :
          Action (StateM Session) Path) := by
      intro path
      refine lasting_eq.bind (looks_isThere path) fun there => ?_
      cases there with
      | true => exact lasting_eq.pure path
      | false => exact lasting_eq.throw _
    split
    · exact lasting_eq.bind (lasting_eq.pure path) hthere
    · split
      · rename_i extended _
        exact lasting_eq.bind (lasting_eq.pure extended) hthere
      · exact lasting_eq.bind (lasting_eq.throw _) hthere

/-! ## The start of a command -/

/-- What every command begins with: the settings, and the open log. -/
def startUp : Action (StateM Session) (Settings × OpenLog) := do
  let settings ← loadSettings
  return (settings, ← openLog settings)

/-- The place of the log, if there is one. -/
def logPlaces (settings : Settings) : Set Place :=
  {place | settings.logFile.bind Path.destination? = some place}

section Start

variable {settings : Settings} {log : OpenLog} {h h₀ : Session}

theorem untouched_loadEnvironmentFile : Keeps (Untouched ∅) loadEnvironmentFile := by
  have hR := lasting_untouched ∅
  refine hR.bind (hR.of_looks (looks_firstThere _)) fun found => ?_
  cases found with
  | none => exact hR.pure ()
  | some p =>
    refine hR.bind (hR.of_looks (looks_isDirectory p)) fun directory => ?_
    cases directory with
    | true => exact hR.pure ()
    | false =>
      refine hR.bind (hR.of_looks (looks_readText p)) fun text =>
        hR.bind (hR.of_looks fun _ => rfl) fun env => ?_
      exact fun h => ⟨rfl, rfl, .refl ∅ h.workspace⟩

theorem untouched_loadSettings : Keeps (Untouched ∅) loadSettings := by
  have hR := lasting_untouched ∅
  refine hR.bind untouched_loadEnvironmentFile fun _ =>
    hR.bind (hR.of_looks fun _ => rfl) fun env =>
      hR.bind (hR.orFail .settings _) fun settings => ?_
  cases settings.logFile with
  | none => exact hR.pure settings
  | some p => exact hR.bind (untouched_makeDirectory p.parent) fun _ => hR.pure settings

theorem mem_logPlaces {p : Path} (hlog : settings.logFile = some p) {place : Place}
    (hplace : p.destination? = some place) : place ∈ logPlaces settings := by
  rw [logPlaces, hlog]
  exact hplace

theorem untouched_openLog (settings : Settings) :
    Keeps (Untouched (logPlaces settings)) (openLog settings) := by
  have hR := lasting_untouched (logPlaces settings)
  refine hR.bind (hR.orFail .level _) fun level => ?_
  cases hlog : settings.logFile with
  | none => exact hR.pure _
  | some p =>
    dsimp only
    rw [← bind_assoc]
    exact hR.bind (untouched_append (fun _ => mem_logPlaces hlog) "") fun _ => hR.pure _

/-- Once the log is open, its file is there. -/
theorem file?_of_openLog (hopen : h.run (openLog settings) = (.ok log, h₀)) :
    log.file = settings.logFile
      ∧ ∀ place ∈ logPlaces settings, h₀.workspace.file? place ≠ none := by
  rcases run_bind_cases hopen with ⟨e, -, herror⟩ | ⟨level, h₁, hlevel, hopen⟩
  · exact absurd herror (by simp)
  cases hlog : settings.logFile with
  | none =>
    rw [hlog] at hopen
    obtain ⟨hopened, rfl⟩ := Prod.mk.inj hopen
    obtain rfl := Except.ok.inj hopened
    refine ⟨rfl, fun place hplace => ?_⟩
    rw [logPlaces, hlog] at hplace
    exact absurd hplace (by simp)
  | some p =>
    rw [hlog] at hopen
    dsimp only at hopen
    rw [← bind_assoc] at hopen
    rcases run_bind_cases hopen with ⟨e, -, herror⟩ | ⟨_, h₂, happend, hopen⟩
    · exact absurd herror (by simp)
    obtain ⟨hopened, rfl⟩ := Prod.mk.inj hopen
    obtain rfl := Except.ok.inj hopened
    refine ⟨rfl, fun place hplace => ?_⟩
    rw [run_append, changed_eq_ok] at happend
    obtain ⟨w, happend, rfl⟩ := happend
    obtain ⟨q, content, hq, -, rfl⟩ := Workspace.append_eq_ok happend
    rw [logPlaces, hlog] at hplace
    obtain rfl : q = place :=
      Option.some.inj ((Workspace.destination?_of_place? hq).symm.trans hplace)
    show (h₁.workspace.put q content).file? q ≠ none
    rw [Workspace.file?_put, if_pos rfl]
    exact Option.some_ne_none content

/-- **The start of a command touches nothing but the log**, which is there from then on. -/
theorem untouched_startUp (hstart : h.run startUp = (.ok (settings, log), h₀)) :
    Untouched (logPlaces settings) h h₀ ∧ log.file = settings.logFile
      ∧ ∀ place ∈ logPlaces settings, h₀.workspace.file? place ≠ none := by
  rcases run_bind_cases hstart with ⟨e, -, herror⟩ | ⟨settings', h₁, hload, hstart⟩
  · exact absurd herror (by simp)
  rcases run_bind_cases hstart with ⟨e, -, herror⟩ | ⟨log', h₂, hopen, hstart⟩
  · exact absurd herror (by simp)
  obtain ⟨hstarted, rfl⟩ := Prod.mk.inj hstart
  obtain ⟨rfl, rfl⟩ := Prod.mk.inj (Except.ok.inj hstarted)
  have hloaded :=
    (untouched_loadSettings.of_run hload).mono (Set.empty_subset (logPlaces settings'))
  exact ⟨(lasting_untouched _).trans hloaded ((untouched_openLog settings').of_run hopen),
    file?_of_openLog hopen⟩

/-- A log that cannot be opened is left alone. -/
theorem untouched_of_openLog_error {e : Failure}
    (hopen : h.run (openLog settings) = (.error e, h₀)) : Untouched ∅ h h₀ := by
  have hR := lasting_untouched ∅
  rcases run_bind_cases hopen with ⟨_, hlevel, -⟩ | ⟨level, h₁, hlevel, hopen⟩
  · exact (hR.orFail .level _).of_run hlevel
  refine hR.trans ((hR.orFail .level _).of_run hlevel) ?_
  cases hlog : settings.logFile with
  | none =>
    rw [hlog] at hopen
    exact absurd (Prod.mk.inj hopen).1 (by simp)
  | some p =>
    rw [hlog] at hopen
    dsimp only at hopen
    rw [← bind_assoc] at hopen
    rcases run_bind_cases hopen with ⟨_, happend, -⟩ | ⟨_, h₂, -, hopen⟩
    · rw [run_append] at happend
      exact eq_of_changed_error happend ▸ hR.refl h₁
    · exact absurd (Prod.mk.inj hopen).1 (by simp)

/-- Where a command does not start, it has touched nothing. -/
theorem untouched_of_startUp_error {e : Failure} (hstart : h.run startUp = (.error e, h₀)) :
    Untouched ∅ h h₀ := by
  have hR := lasting_untouched ∅
  rcases run_bind_cases hstart with ⟨_, hload, -⟩ | ⟨settings, h₁, hload, hstart⟩
  · exact untouched_loadSettings.of_run hload
  refine hR.trans (untouched_loadSettings.of_run hload) ?_
  rcases run_bind_cases hstart with ⟨_, hopen, -⟩ | ⟨log, h₂, -, hstart⟩
  · exact untouched_of_openLog_error hopen
  · exact absurd (Prod.mk.inj hstart).1 (by simp)

end Start

/-- Reports go to the log. -/
theorem untouched_report {settings : Settings} {log : OpenLog} (hlog : log.file = settings.logFile)
    (ds : Diagnostics) :
    Keeps (Untouched (logPlaces settings)) (report log ds : Action (StateM Session) Unit) := by
  have hR := lasting_untouched (logPlaces settings)
  refine hR.forM fun line _ => hR.bind (fun h => ⟨rfl, rfl, .refl _ h.workspace⟩) fun _ => ?_
  cases hfile : log.file with
  | none => exact hR.pure ()
  | some p => exact untouched_append (fun _ => mem_logPlaces (hlog ▸ hfile)) line

end Session

end Crowsfoot
