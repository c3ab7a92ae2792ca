import Crowsfoot.Host.Project
import Crowsfoot.Host.Session
import Crowsfoot.Proofs.Files.Workspace

/-!
# Actions on sessions

`Session.run` is how an action ends on a host made of values, with the session after it. A sequence
goes on with the session that its first part leaves (`run_bind_ok`) or ends where that fails
(`run_bind_error`); the operations on files are those of the workspace (`run_writeText`,
`run_makeDirectory`, `run_remove`).
-/

namespace Crowsfoot

open Crowsfoot.Files Crowsfoot.Host

namespace Session

/-- Runs an action: how it ends, and the session after it. -/
def run (h : Session) (x : Action (StateM Session) α) : Except Failure α × Session :=
  StateT.run (ExceptT.run x) h

section Sequences

variable {h h₁ : Session} {x : Action (StateM Session) α} {f : α → Action (StateM Session) β}
  {a : α} {e : Failure}

theorem run_pure (h : Session) (a : α) : h.run (pure a) = (.ok a, h) := rfl

theorem run_bind_ok (hx : h.run x = (.ok a, h₁)) : h.run (x >>= f) = h₁.run (f a) := by
  unfold run at hx ⊢
  rw [ExceptT.run_bind, StateT.run_bind, hx]
  rfl

theorem run_bind_error (hx : h.run x = (.error e, h₁)) :
    h.run (x >>= f) = (.error e, h₁) := by
  unfold run at hx ⊢
  rw [ExceptT.run_bind, StateT.run_bind, hx]
  rfl

/-- A sequence fails where its first part does, or goes on. -/
theorem run_bind_cases {r : Except Failure β} {h' : Session} (hrun : h.run (x >>= f) = (r, h')) :
    (∃ e, h.run x = (.error e, h') ∧ r = .error e)
      ∨ ∃ a h₁, h.run x = (.ok a, h₁) ∧ h₁.run (f a) = (r, h') := by
  cases hx : h.run x with
  | mk r₁ h₁ =>
    cases r₁ with
    | error e =>
      rw [run_bind_error hx] at hrun
      obtain ⟨rfl, rfl⟩ := Prod.mk.inj hrun
      exact Or.inl ⟨e, rfl, rfl⟩
    | ok a =>
      rw [run_bind_ok hx] at hrun
      exact Or.inr ⟨a, h₁, rfl, hrun⟩

/-- An error that is observed is a result. -/
theorem run_observing {r : Except Failure α} {h' : Session} (hrun : h.run x = (r, h')) :
    h.run (observing x) = (.ok r, h') := by
  have hinner : h.run (do let a ← x; pure (Except.ok a : Except Failure α)) = (r.map .ok, h') := by
    cases r with
    | ok a => exact run_bind_ok hrun
    | error e => exact run_bind_error hrun
  unfold observing
  unfold run at hinner ⊢
  rw [ExceptT.run_tryCatch, StateT.run_bind, hinner]
  cases r <;> rfl

theorem run_of_observing {r : Except Failure α} {h' : Session}
    (hrun : h.run (observing x) = (.ok r, h')) : h.run x = (r, h') := by
  cases hx : h.run x with
  | mk r₁ h₁ =>
    rw [run_observing hx] at hrun
    obtain ⟨hr, rfl⟩ := Prod.mk.inj hrun
    rw [Except.ok.inj hr]

theorem run_orFail (h : Session) (failure : ε → Failure) (r : Except ε α) :
    h.run (orFail failure r) = (r.mapError failure, h) := by
  cases r <;> rfl

end Sequences

/-! ## Operations on files -/

/-- What an operation that changes the workspace comes to. -/
def changed (h : Session) (op : Workspace → Except FileError Workspace) :
    Except Failure Unit × Session :=
  match op h.workspace with
  | .ok w => (.ok (), { h with workspace := w })
  | .error e => (.error (.file e), h)

theorem changed_ok {h : Session} {op : Workspace → Except FileError Workspace} {w : Workspace}
    (hop : op h.workspace = .ok w) : h.changed op = (.ok (), { h with workspace := w }) := by
  unfold changed
  rw [hop]

theorem changed_error {h : Session} {op : Workspace → Except FileError Workspace} {e : FileError}
    (hop : op h.workspace = .error e) : h.changed op = (.error (.file e), h) := by
  unfold changed
  rw [hop]

theorem changed_eq_ok {h h' : Session} {op : Workspace → Except FileError Workspace} :
    h.changed op = (.ok (), h')
      ↔ ∃ w, op h.workspace = .ok w ∧ h' = { h with workspace := w } := by
  cases hop : op h.workspace with
  | ok w => simp [changed_ok hop, eq_comm]
  | error e => simp [changed_error hop]

/-- An operation that fails leaves the session as it was. -/
theorem eq_of_changed_error {h h' : Session} {op : Workspace → Except FileError Workspace}
    {e : Failure} (hrun : h.changed op = (.error e, h')) : h = h' := by
  cases hop : op h.workspace with
  | ok w =>
    rw [changed_ok hop] at hrun
    exact absurd (Prod.mk.inj hrun).1 (by simp)
  | error _ =>
    rw [changed_error hop] at hrun
    exact (Prod.mk.inj hrun).2

/-- An operation of the host that is changing the workspace, as an action. -/
theorem run_change {h : Session} {op : Workspace → Except FileError Workspace}
    {x : Action (StateM Session) (Except FileError Unit)}
    (hx : h.run x = (.ok (change op h).1, (change op h).2)) :
    h.run (do orFail .file (← x)) = h.changed op := by
  rw [run_bind_ok hx, run_orFail]
  unfold change
  cases hop : op h.workspace with
  | ok w => rw [changed_ok hop]; rfl
  | error e => rw [changed_error hop]; rfl

theorem run_writeText (h : Session) (p : Path) (text : String) :
    h.run (writeText p text) = h.changed (·.write p text) :=
  run_change rfl

theorem run_makeDirectory (h : Session) (p : Path) :
    h.run (makeDirectory p) = h.changed (·.makeDirectories p) :=
  run_change rfl

theorem run_remove (h : Session) (p : Path) :
    h.run (do orFail .file (← Host.remove p)) = h.changed (·.remove p) :=
  run_change rfl

theorem run_append (h : Session) (p : Path) (text : String) :
    h.run (do orFail .file (← Host.append p text)) = h.changed (·.append p text) :=
  run_change rfl

/-- Reading a file leaves the session as it is. -/
theorem run_readText {h : Session} {p : Path} {content : Content}
    (hread : h.workspace.read p = .ok content) :
    h.run (readText p) = (content.readText.mapError .encoding, h) := by
  have hfirst : h.run (Host.read p) = (.ok (h.workspace.read p), h) := rfl
  unfold readText
  rw [run_bind_ok hfirst, hread, run_bind_ok (run_orFail h .file (.ok content)), run_orFail]

/-- What is read depends on the files only. -/
theorem fst_run_readText {h h' : Session} (hworkspace : h'.workspace = h.workspace) (p : Path) :
    (h'.run (readText p)).1 = (h.run (readText p)).1 := by
  have hfirst : ∀ h : Session, h.run (Host.read p) = (.ok (h.workspace.read p), h) := fun _ => rfl
  unfold readText
  rw [run_bind_ok (hfirst h), run_bind_ok (hfirst h'), hworkspace]
  cases h.workspace.read p with
  | error e => rfl
  | ok content =>
    rw [run_bind_ok (run_orFail h .file (.ok content)),
      run_bind_ok (run_orFail h' .file (.ok content)), run_orFail, run_orFail]

theorem run_isThere (h : Session) (p : Path) :
    h.run (isThere p) = (.ok (h.workspace.kind? p).isSome, h) := rfl

theorem run_isDirectory (h : Session) (p : Path) :
    h.run (isDirectory p) = (.ok (h.workspace.kind? p == some .directory), h) := rfl

theorem run_printLine (h : Session) (line : String) :
    h.run (printLine line) = (.ok (), { h with output := h.output ++ (line ++ "\n") }) := rfl

/-! ## Lists of actions that only look -/

section Lists

variable {h : Session}

theorem run_mapM {f : α → Action (StateM Session) β} {g : α → β} {as : List α}
    (hf : ∀ a ∈ as, h.run (f a) = (.ok (g a), h)) : h.run (as.mapM f) = (.ok (as.map g), h) := by
  induction as with
  | nil => rfl
  | cons a as ih =>
    rw [List.mapM_cons, run_bind_ok (hf a List.mem_cons_self),
      run_bind_ok (ih fun b hb => hf b (List.mem_cons_of_mem a hb))]
    rfl

theorem run_filterM {f : α → Action (StateM Session) Bool} {g : α → Bool}
    (hf : ∀ a, h.run (f a) = (.ok (g a), h)) (as : List α) :
    h.run (as.filterM f) = (.ok (as.filter g), h) := by
  have hloop : ∀ acc, h.run (as.filterAuxM f acc) = (.ok ((as.filter g).reverse ++ acc), h) := by
    induction as with
    | nil => exact fun acc => rfl
    | cons a as ih =>
      intro acc
      rw [List.filterAuxM, run_bind_ok (hf a), ih, List.filter_cons]
      cases g a <;> simp
  unfold List.filterM
  rw [run_bind_ok (hloop []), List.append_nil, run_pure, List.reverse_reverse]

end Lists

/-! ## What actions keep -/

/-- A relation that holds when nothing happens, and over steps that it holds over. -/
structure Lasting (R : Session → Session → Prop) : Prop where
  refl : ∀ h, R h h
  trans : ∀ {h h₁ h'}, R h h₁ → R h₁ h' → R h h'

/-- However an action ends, the session after it is related to that before. -/
def Keeps (R : Session → Session → Prop) (x : Action (StateM Session) α) : Prop :=
  ∀ h, R h (h.run x).2

theorem Keeps.of_run {R : Session → Session → Prop} {x : Action (StateM Session) α}
    (hx : Keeps R x) {h h' : Session} {r : Except Failure α} (hrun : h.run x = (r, h')) :
    R h h' := by
  have hkept := hx h
  rwa [hrun] at hkept

section Keeps

variable {R : Session → Session → Prop} (hR : Lasting R)
include hR

theorem Lasting.pure (a : α) : Keeps R (pure a) :=
  fun h => hR.refl h

theorem Lasting.throw (e : Failure) : Keeps R (throw e : Action (StateM Session) α) :=
  fun h => hR.refl h

theorem Lasting.orFail (failure : ε → Failure) (r : Except ε α) :
    Keeps R (orFail failure r) := by
  intro h
  rw [run_orFail]
  exact hR.refl h

theorem Lasting.bind {x : Action (StateM Session) α} {f : α → Action (StateM Session) β}
    (hx : Keeps R x) (hf : ∀ a, Keeps R (f a)) : Keeps R (x >>= f) := by
  intro h
  have hfirst := hx h
  cases hrun : h.run x with
  | mk r h₁ =>
    rw [hrun] at hfirst
    cases r with
    | ok a =>
      rw [run_bind_ok hrun]
      exact hR.trans hfirst (hf a h₁)
    | error e =>
      rw [run_bind_error hrun]
      exact hfirst

theorem Lasting.forM {f : α → Action (StateM Session) Unit} {as : List α}
    (hf : ∀ a ∈ as, Keeps R (f a)) : Keeps R (as.forM f) := by
  induction as with
  | nil => exact hR.pure ()
  | cons a as ih =>
    obtain ⟨hfirst, hrest⟩ := List.forall_mem_cons.mp hf
    exact hR.bind hfirst fun _ => ih hrest

end Keeps

/-! ## Actions that only look -/

theorem lasting_eq : Lasting Eq where
  refl _ := rfl
  trans := Eq.trans

/-- What only looks keeps anything. -/
theorem Lasting.of_looks {R : Session → Session → Prop} (hR : Lasting R)
    {x : Action (StateM Session) α} (hx : Keeps Eq x) : Keeps R x :=
  fun h => hx h ▸ hR.refl h

theorem looks_observing {x : Action (StateM Session) α} (hx : Keeps Eq x) :
    Keeps Eq (observing x) := by
  intro h
  cases hrun : h.run x with
  | mk r h₁ =>
    obtain rfl : h = h₁ := hx.of_run hrun
    rw [run_observing hrun]

theorem looks_isThere (p : Path) : Keeps Eq (isThere p : Action (StateM Session) Bool) :=
  fun _ => rfl

theorem looks_isDirectory (p : Path) : Keeps Eq (isDirectory p : Action (StateM Session) Bool) :=
  fun _ => rfl

theorem looks_readText (p : Path) : Keeps Eq (readText p : Action (StateM Session) String) :=
  lasting_eq.bind (fun _ => rfl) fun found =>
    lasting_eq.bind (lasting_eq.orFail .file found) fun content =>
      lasting_eq.orFail .encoding content.readText

/-! ## What actions leave alone -/

/-- Only the files at some places and what is shown are changed; the clock stands still and nothing
is typed. -/
structure Untouched (spare : Set Place) (h h' : Session) : Prop where
  clock : h'.clock = h.clock
  input : h'.input = h.input
  confined : h.workspace.Confined spare h'.workspace

variable {spare : Set Place}

theorem lasting_untouched (spare : Set Place) : Lasting (Untouched spare) where
  refl h := ⟨rfl, rfl, .refl spare h.workspace⟩
  trans h h' := ⟨h'.clock.trans h.clock, h'.input.trans h.input, h.confined.trans h'.confined⟩

theorem Untouched.mono {more : Set Place} {h h' : Session} (hkept : Untouched spare h h')
    (hmore : spare ⊆ more) : Untouched more h h' :=
  ⟨hkept.clock, hkept.input, hkept.confined.mono hmore⟩

/-- A change of the workspace is confined where the operation is. -/
theorem untouched_changed {h : Session} {op : Workspace → Except FileError Workspace}
    (hop : ∀ w, op h.workspace = .ok w → h.workspace.Confined spare w) :
    Untouched spare h (h.changed op).2 := by
  cases hrun : op h.workspace with
  | error e =>
    rw [changed_error hrun]
    exact (lasting_untouched spare).refl h
  | ok w =>
    rw [changed_ok hrun]
    exact ⟨rfl, rfl, hop w hrun⟩

theorem untouched_makeDirectory (p : Path) : Keeps (Untouched spare) (makeDirectory p) := by
  intro h
  rw [run_makeDirectory]
  refine untouched_changed fun w hmake => ?_
  exact (Workspace.makeDirectories_eq_ok hmake).1.confined.mono (Set.empty_subset spare)

section Destinations

variable {p : Path} (hspare : ∀ place, p.destination? = some place → place ∈ spare)
include hspare

theorem untouched_append (text : String) :
    Keeps (Untouched spare) (do Crowsfoot.orFail .file (← Host.append p text)) := by
  intro h
  rw [run_append]
  refine untouched_changed fun w happend => ?_
  obtain ⟨place, content, hplace, hkind, rfl⟩ := Workspace.append_eq_ok happend
  exact (Workspace.confined_put hkind).mono
    (Set.singleton_subset_iff.mpr (hspare place (Workspace.destination?_of_place? hplace)))

theorem untouched_writeText (text : String) : Keeps (Untouched spare) (writeText p text) := by
  intro h
  rw [run_writeText]
  refine untouched_changed fun w hwrite => ?_
  obtain ⟨place, hplace, hkind, rfl⟩ := Workspace.write_eq_ok hwrite
  exact (Workspace.confined_put hkind).mono
    (Set.singleton_subset_iff.mpr (hspare place (Workspace.destination?_of_place? hplace)))

theorem untouched_remove :
    Keeps (Untouched spare) (do Crowsfoot.orFail .file (← Host.remove p)) := by
  intro h
  rw [run_remove]
  refine untouched_changed fun w hremove => ?_
  obtain ⟨place, hplace, -, rfl⟩ := Workspace.remove_eq_ok.mp hremove
  exact (Workspace.confined_without _ place).mono
    (Set.singleton_subset_iff.mpr (hspare place (Workspace.destination?_of_place? hplace)))

end Destinations

theorem untouched_printLine (line : String) :
    Keeps (Untouched spare) (printLine line : Action (StateM Session) Unit) :=
  fun h => ⟨rfl, rfl, .refl spare h.workspace⟩

end Session

end Crowsfoot
