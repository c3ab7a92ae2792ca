import Crowsfoot.Files.Workspace
import Crowsfoot.Proofs.Fallible
import Mathlib.Data.List.Basic
import Mathlib.Data.Set.Insert

/-!
# What operations leave in a workspace

A path can lead to one place only (`Path.destination?`); whether it does depends on the directories
that are there. Hence an operation that keeps all directories keeps what paths lead to
(`Workspace.Holds.place?`), and an operation on a path changes no file beside that at its
destination. `Workspace.Confined` says so of a change: it is confined to the files at some places.

* `file?_put`, `file?_without`: the files after one has been written or removed.
* `read_of_write`: a file that has been written is read as it was written.
* `makeDirectories_eq_ok`: making directories touches no file, and the directory is there.
* `mem_entries`: the names in a directory are those of what is there.
-/

namespace Crowsfoot.Files

/-! ## Where a path leads -/

/-- Where names lead to from a place, as far as all on the way are directories. -/
def destinationFrom (place : Place) : List String → Option Place
  | [] => some place
  | name :: rest =>
    if name = ".." then
      if place.isEmpty then none else destinationFrom place.dropLast rest
    else destinationFrom (place ++ [name]) rest

/-- The only place that a path can lead to. -/
def Path.destination? (p : Path) : Option Place :=
  if p.isAbsolute then none else destinationFrom [] p.parts

namespace Workspace

variable {w w' : Workspace} {p : Path} {place dir : Place} {name : String}

theorem destinationFrom_of_follow {names : List String} (h : w.follow place names = some dir) :
    destinationFrom place names = some dir := by
  induction names generalizing place with
  | nil => exact h
  | cons name rest ih =>
    unfold follow at h
    unfold destinationFrom
    split_ifs at h ⊢ with hkind hup hroot
    · exact ih h
    · exact ih h

/-- **A path leads to its destination**, if it leads anywhere. -/
theorem destination?_of_place? (h : w.place? p = some place) : p.destination? = some place := by
  unfold place? at h
  unfold Path.destination?
  split_ifs at h ⊢
  exact destinationFrom_of_follow h

theorem destinationFrom_append (names more : List String) :
    destinationFrom place (names ++ more)
      = (destinationFrom place names).bind fun q => destinationFrom q more := by
  induction names generalizing place with
  | nil => rfl
  | cons name rest ih =>
    rw [List.cons_append, destinationFrom, destinationFrom]
    split_ifs
    · rfl
    · exact ih
    · exact ih

/-- Below the destination of a path there is that of an entry. -/
theorem destination?_child (hname : name ≠ "..") :
    (p.child name).destination? = p.destination?.map (· ++ [name]) := by
  unfold Path.destination? Path.child
  split_ifs
  · rfl
  · rw [destinationFrom_append]
    cases destinationFrom [] p.parts with
    | none => rfl
    | some q => simp [destinationFrom, hname]

theorem follow_append (names more : List String) :
    w.follow place (names ++ more) = (w.follow place names).bind fun q => w.follow q more := by
  induction names generalizing place with
  | nil => rfl
  | cons name rest ih =>
    rw [List.cons_append, follow, follow]
    split_ifs
    · rfl
    · exact ih
    · exact ih
    · rfl

/-- An entry of a directory is at the place below it. -/
theorem place?_child (h : w.place? p = some dir) (hdir : w.kindAt dir = some .directory)
    (hname : name ≠ "..") : w.place? (p.child name) = some (dir ++ [name]) := by
  unfold place? at h ⊢
  unfold Path.child
  split_ifs at h ⊢
  rw [follow_append, h, Option.bind_some]
  simp [follow, hdir, hname]

/-- Nothing has a place in what is no directory. -/
theorem place?_child_eq_none (h : w.kind? p ≠ some .directory) :
    w.place? (p.child name) = none := by
  unfold kind? place? Path.child at *
  split_ifs at h ⊢
  · rfl
  · rw [follow_append]
    cases hfollow : w.follow [] p.parts with
    | none => rfl
    | some q =>
      rw [hfollow, Option.bind_some] at h
      rw [Option.bind_some, follow, if_neg h]

/-- What has a place lies in a directory. -/
theorem parent_of_place? (h : w.place? p = some place) (hne : p.parts ≠ []) :
    w.kind? p.parent = some .directory := by
  unfold kind? place? Path.parent at *
  split_ifs at h ⊢
  rw [← List.dropLast_append_getLast hne, follow_append] at h
  obtain ⟨dir, hdir, hlast⟩ := Option.bind_eq_some_iff.mp h
  dsimp only
  rw [hdir, Option.bind_some]
  unfold follow at hlast
  split_ifs at hlast with hkind
  · exact hkind
  · exact hkind

/-! ## Kinds -/

theorem kindAt_eq_file : w.kindAt place = some .file ↔ (w.file? place).isSome = true := by
  unfold kindAt
  split_ifs <;> simp_all

theorem kindAt_eq_directory : w.kindAt place = some .directory ↔
    w.file? place = none ∧ (place = [] ∨ place ∈ w.directories) := by
  unfold kindAt
  split_ifs with hfile hdir
  · simp [Option.isSome_iff_ne_none.mp hfile]
  · simpa [Option.not_isSome_iff_eq_none.mp hfile] using hdir
  · simpa [Option.not_isSome_iff_eq_none.mp hfile] using hdir

theorem file?_eq_none (h : w.kindAt place = none) : w.file? place = none := by
  by_contra hfile
  rw [kindAt_eq_file.mpr (Option.isSome_iff_ne_none.mpr hfile)] at h
  exact absurd h (by simp)

/-- All directories are still there. -/
def Holds (w w' : Workspace) : Prop :=
  ∀ place, w.kindAt place = some .directory → w'.kindAt place = some .directory

theorem Holds.refl (w : Workspace) : w.Holds w :=
  fun _ h => h

theorem Holds.trans {w'' : Workspace} (h : w.Holds w') (h' : w'.Holds w'') : w.Holds w'' :=
  fun place hplace => h' place (h place hplace)

theorem Holds.follow (h : w.Holds w') {names : List String}
    (hfollow : w.follow place names = some dir) : w'.follow place names = some dir := by
  induction names generalizing place with
  | nil => exact hfollow
  | cons name rest ih =>
    unfold Workspace.follow at hfollow ⊢
    split_ifs at hfollow with hkind hup hroot
    · rw [if_pos (h place hkind), if_pos hup, if_neg hroot]
      exact ih hfollow
    · rw [if_pos (h place hkind), if_neg hup]
      exact ih hfollow

/-- **Where directories stay, paths lead to where they led.** -/
theorem Holds.place? (h : w.Holds w') (hplace : w.place? p = some place) :
    w'.place? p = some place := by
  unfold Workspace.place? at hplace ⊢
  split_ifs at hplace ⊢
  exact h.follow hplace

/-! ## Confined changes -/

/-- All directories stay, and so do all files but those at some places. -/
structure Confined (spare : Set Place) (w w' : Workspace) : Prop where
  file? : ∀ place ∉ spare, w'.file? place = w.file? place
  holds : w.Holds w'

namespace Confined

variable {spare more : Set Place}

theorem refl (spare : Set Place) (w : Workspace) : Confined spare w w :=
  ⟨fun _ _ => rfl, .refl w⟩

theorem trans {w'' : Workspace} (h : Confined spare w w') (h' : Confined spare w' w'') :
    Confined spare w w'' :=
  ⟨fun place hplace => (h'.file? place hplace).trans (h.file? place hplace), h.holds.trans h'.holds⟩

theorem mono (h : Confined spare w w') (hspare : spare ⊆ more) : Confined more w w' :=
  ⟨fun place hplace => h.file? place fun hmem => hplace (hspare hmem), h.holds⟩

end Confined

/-! ## Writing a file -/

theorem lookup_replaced (files : List (Place × Content)) (place q : Place) (content : Content) :
    (files.map fun f => if f.1 = place then (place, content) else f).lookup q
      = if q = place then (files.lookup place).map fun _ => content else files.lookup q := by
  induction files with
  | nil => simp
  | cons f files ih =>
    obtain ⟨here, old⟩ := f
    rw [List.map_cons]
    by_cases hhere : here = place
    · subst hhere
      rw [if_pos rfl, List.lookup_cons, List.lookup_cons, List.lookup_cons, ih]
      by_cases hq : q = here
      · simp [hq]
      · simp [hq, beq_eq_false_iff_ne.mpr hq]
    · rw [if_neg hhere, List.lookup_cons, List.lookup_cons, List.lookup_cons, ih,
        beq_eq_false_iff_ne.mpr (Ne.symm hhere)]
      by_cases hq : q = place
      · rw [hq, beq_eq_false_iff_ne.mpr (Ne.symm hhere)]
      · simp [hq]

/-- **The files after one has been put somewhere.** -/
theorem file?_put (w : Workspace) (place q : Place) (content : Content) :
    (w.put place content).file? q = if q = place then some content else w.file? q := by
  unfold put file?
  dsimp only
  split_ifs with hsome hq hq
  · obtain ⟨old, hold⟩ := Option.isSome_iff_exists.mp hsome
    rw [lookup_replaced, if_pos hq, hold]
    rfl
  · rw [lookup_replaced, if_neg hq]
  · subst hq
    rw [List.lookup_append, Option.not_isSome_iff_eq_none.mp hsome]
    simp
  · rw [List.lookup_append, List.lookup_cons, beq_eq_false_iff_ne.mpr hq]
    simp

theorem put_put (w : Workspace) (place : Place) (content : Content) :
    (w.put place content).put place content = w.put place content := by
  have hsome : ((w.put place content).file? place).isSome = true := by
    rw [file?_put, if_pos rfl]
    rfl
  have hall : ∀ f ∈ (w.put place content).files, f.1 = place → f = (place, content) := by
    intro f hf hplace
    unfold put at hf
    dsimp only at hf
    split_ifs at hf with hold
    · obtain ⟨g, _, rfl⟩ := List.mem_map.mp hf
      split_ifs at hplace ⊢ with hg
      · rfl
      · exact absurd hplace hg
    · rcases List.mem_append.mp hf with hf | hf
      · refine absurd ?_ hold
        rw [file?, List.lookup_isSome_iff]
        exact ⟨f, hf, by simp [hplace]⟩
      · exact List.mem_singleton.mp hf
  have hsame : (w.put place content).files.map
      (fun f => if f.1 = place then (place, content) else f) = (w.put place content).files := by
    conv_rhs => rw [← List.map_id (w.put place content).files]
    refine List.map_congr_left fun f hf => ?_
    split_ifs with hplace
    · exact (hall f hf hplace).symm
    · rfl
  rw [put, if_pos hsome, hsame]

theorem holds_put {content : Content} (h : w.kindAt place ≠ some .directory) :
    w.Holds (w.put place content) := by
  intro q hq
  have hne : q ≠ place := by
    rintro rfl
    exact h hq
  rw [kindAt_eq_directory] at hq ⊢
  rw [file?_put, if_neg hne]
  exact hq

theorem confined_put {content : Content} (h : w.kindAt place ≠ some .directory) :
    w.Confined {place} (w.put place content) :=
  ⟨fun q hq => by rw [file?_put, if_neg (Set.mem_singleton_iff.not.mp hq)], holds_put h⟩

/-- A file never becomes a directory. -/
theorem directory_of_put {content : Content} {q : Place}
    (h : (w.put place content).kindAt q = some .directory) : w.kindAt q = some .directory := by
  rw [kindAt_eq_directory, file?_put] at h
  rw [kindAt_eq_directory]
  split_ifs at h
  · exact absurd h.1 (by simp)
  · exact h

theorem target_eq_ok {found : Place × Option Content} (h : w.target p = .ok found) :
    w.place? p = some found.1 ∧ w.kindAt found.1 ≠ some .directory := by
  unfold target at h
  split at h
  · rename_i q hq
    split at h
    · exact absurd h (by simp)
    · rename_i hkind
      cases h
      exact ⟨hq, by simp [hkind]⟩
    · rename_i hkind
      split_ifs at h
      cases h
      exact ⟨hq, by simp [hkind]⟩
  · exact absurd h (by simp)

/-- A file is written at the destination of the path. -/
theorem write_eq_ok {text : String} (h : w.write p text = .ok w') :
    ∃ place, w.place? p = some place ∧ w.kindAt place ≠ some .directory
      ∧ w' = w.put place (.text text) := by
  unfold write at h
  obtain ⟨found, htarget, h⟩ := bind_eq_ok.mp h
  obtain ⟨hplace, hkind⟩ := target_eq_ok htarget
  exact ⟨found.1, hplace, hkind, (Except.ok.inj h).symm⟩

theorem append_eq_ok {text : String} (h : w.append p text = .ok w') :
    ∃ place content, w.place? p = some place ∧ w.kindAt place ≠ some .directory
      ∧ w' = w.put place content := by
  unfold append at h
  obtain ⟨found, htarget, h⟩ := bind_eq_ok.mp h
  obtain ⟨hplace, hkind⟩ := target_eq_ok htarget
  exact ⟨found.1, _, hplace, hkind, (Except.ok.inj h).symm⟩

/-- A file can be written in a directory, unless a directory is in its place. -/
theorem write_of_place? {text : String} (hplace : w.place? p = some place)
    (hkind : w.kindAt place ≠ some .directory)
    (hparent : w.kindAt place.dropLast = some .directory) :
    w.write p text = .ok (w.put place (.text text)) := by
  unfold write target
  rw [hplace]
  dsimp only
  cases hhere : w.kindAt place with
  | none =>
    dsimp only
    rw [if_pos hparent]
    rfl
  | some kind =>
    cases kind with
    | file => rfl
    | directory => exact absurd hhere hkind

/-- **A file that has been written is read as it was written.** -/
theorem read_of_write {text : String} (h : w.write p text = .ok w') :
    w'.read p = .ok (.text text) := by
  obtain ⟨place, hplace, hkind, rfl⟩ := write_eq_ok h
  unfold read
  simp only [(holds_put hkind).place? hplace, file?_put, if_true]

/-- What has been written may be written again, which changes nothing. -/
theorem write_of_write {text : String} (h : w.write p text = .ok w') :
    w'.write p text = .ok w' := by
  obtain ⟨place, hplace, hkind, rfl⟩ := write_eq_ok h
  have hfile : (w.put place (.text text)).kindAt place = some .file := by
    rw [kindAt_eq_file, file?_put, if_pos rfl]
    rfl
  unfold write target
  simp only [(holds_put hkind).place? hplace, hfile]
  exact congrArg Except.ok (put_put w place (.text text))

/-! ## Removing a file -/

/-- The workspace without the file at a place. -/
def without (w : Workspace) (place : Place) : Workspace :=
  { w with files := w.files.filter fun f => f.1 != place }

/-- **The files after one has been removed.** -/
theorem file?_without (w : Workspace) (place q : Place) :
    (w.without place).file? q = if q = place then none else w.file? q := by
  unfold without file?
  dsimp only
  induction w.files with
  | nil => simp
  | cons f files ih =>
    rw [List.filter_cons]
    by_cases hhere : f.1 = place
    · rw [if_neg (by simp [hhere]), ih, List.lookup_cons]
      by_cases hq : q = place
      · simp [hq]
      · rw [hhere, beq_eq_false_iff_ne.mpr hq]
    · rw [if_pos (by simp [hhere]), List.lookup_cons, List.lookup_cons, ih]
      by_cases hq : q = f.1
      · simp [hq, hhere]
      · simp [beq_eq_false_iff_ne.mpr hq]

theorem holds_without (w : Workspace) (place : Place) : w.Holds (w.without place) := by
  intro q hq
  rw [kindAt_eq_directory] at hq ⊢
  rw [file?_without, hq.1]
  exact ⟨ite_self none, hq.2⟩

theorem confined_without (w : Workspace) (place : Place) : w.Confined {place} (w.without place) :=
  ⟨fun q hq => by rw [file?_without, if_neg (Set.mem_singleton_iff.not.mp hq)],
    w.holds_without place⟩

/-- A file is removed at the destination of the path. -/
theorem remove_eq_ok : w.remove p = .ok w' ↔
    ∃ place, w.place? p = some place ∧ w.kindAt place = some .file ∧ w' = w.without place := by
  unfold remove
  cases hplace : w.place? p with
  | none => simp
  | some place =>
    cases hkind : w.kindAt place with
    | none => simp [hkind]
    | some kind => cases kind <;> simp [hkind, without, eq_comm]

/-! ## Making directories -/

/-- Nothing but directories is added. -/
structure OnlyDirectories (w w' : Workspace) : Prop where
  files : w'.files = w.files
  directories : ∀ d ∈ w.directories, d ∈ w'.directories

namespace OnlyDirectories

theorem refl (w : Workspace) : OnlyDirectories w w :=
  ⟨rfl, fun _ h => h⟩

theorem trans {w'' : Workspace} (h : OnlyDirectories w w') (h' : OnlyDirectories w' w'') :
    OnlyDirectories w w'' :=
  ⟨h'.files.trans h.files, fun d hd => h'.directories d (h.directories d hd)⟩

theorem file? (h : OnlyDirectories w w') (place : Place) : w'.file? place = w.file? place := by
  unfold Workspace.file?
  rw [h.files]

theorem holds (h : OnlyDirectories w w') : w.Holds w' := by
  intro place hplace
  rw [kindAt_eq_directory] at hplace ⊢
  rw [h.file?]
  exact ⟨hplace.1, hplace.2.imp_right (h.directories place)⟩

theorem confined (h : OnlyDirectories w w') : w.Confined ∅ w' :=
  ⟨fun place _ => h.file? place, h.holds⟩

end OnlyDirectories

theorem makeDirectory_eq_ok (h : w.makeDirectory p = .ok w') :
    OnlyDirectories w w' ∧ w'.kind? p = some .directory := by
  unfold makeDirectory at h
  split at h
  · rename_i hkind
    cases h
    exact ⟨.refl w, hkind⟩
  · exact absurd h (by simp)
  · rename_i place hkind hplace
    split_ifs at h
    cases h
    have hadded : OnlyDirectories w { w with directories := w.directories ++ [place] } :=
      ⟨rfl, fun d hd => List.mem_append_left _ hd⟩
    refine ⟨hadded, Option.bind_eq_some_iff.mpr ⟨place, hadded.holds.place? hplace, ?_⟩⟩
    rw [kindAt_eq_directory, hadded.file?]
    rw [kind?, hplace, Option.bind_some] at hkind
    exact ⟨file?_eq_none hkind, Or.inr (List.mem_append_right _ (List.mem_singleton_self place))⟩
  · exact absurd h (by simp)

theorem makeDirectories_go_eq_ok {k : Nat} (h : makeDirectories.go p w k = .ok w') :
    OnlyDirectories w w'
      ∧ (k = 0 ∨ w'.kind? { p with parts := p.parts.take k } = some .directory) := by
  induction k generalizing w' with
  | zero =>
    cases h
    exact ⟨.refl w, Or.inl rfl⟩
  | succ k ih =>
    unfold makeDirectories.go at h
    dsimp only at h
    split at h
    · obtain ⟨above, hgo, h⟩ := bind_eq_ok.mp h
      obtain ⟨hmade, hkind⟩ := makeDirectory_eq_ok h
      exact ⟨(ih hgo).1.trans hmade, Or.inr hkind⟩
    · obtain ⟨hmade, hkind⟩ := makeDirectory_eq_ok h
      exact ⟨hmade, Or.inr hkind⟩

/-- **Making directories touches no file**, and the directory is there, unless the path has no
names. -/
theorem makeDirectories_eq_ok (h : w.makeDirectories p = .ok w') :
    OnlyDirectories w w' ∧ (p.parts = [] ∨ w'.kind? p = some .directory) := by
  obtain ⟨hmade, hkind⟩ := makeDirectories_go_eq_ok h
  rw [List.take_length] at hkind
  exact ⟨hmade, hkind.imp_left List.eq_nil_of_length_eq_zero⟩

/-- A directory that is there is not made again. -/
theorem makeDirectories_of_directory (h : p.parts = [] ∨ w.kind? p = some .directory) :
    w.makeDirectories p = .ok w := by
  unfold makeDirectories
  cases hlength : p.parts.length with
  | zero => rfl
  | succ k =>
    have hkind : w.kind? { p with parts := p.parts.take (k + 1) } = some .directory := by
      rw [← hlength, List.take_length]
      refine h.resolve_left fun hnil => ?_
      rw [hnil] at hlength
      exact absurd hlength (by simp)
    unfold makeDirectories.go
    simp only [makeDirectory, hkind]

/-! ## The names in a directory -/

theorem nameInside?_eq_some {q : Place} : nameInside? dir q = some name ↔ q = dir ++ [name] := by
  unfold nameInside?
  constructor
  · intro h
    split at h
    · rename_i last hlast
      split_ifs at h with hdir
      cases h
      rw [← hdir]
      exact (List.dropLast_append_getLast? name hlast).symm
    · exact absurd h (by simp)
  · rintro rfl
    simp

/-- **The names in a directory are those of what is there.** -/
theorem mem_entries (h : w.place? p = some dir) (hdir : w.kindAt dir = some .directory) :
    name ∈ w.entries p ↔ w.kindAt (dir ++ [name]) ≠ none := by
  unfold entries
  rw [h]
  dsimp only
  rw [if_pos hdir, List.mem_filterMap]
  have hmem : (∃ q ∈ w.files.map Prod.fst ++ w.directories, nameInside? dir q = some name)
      ↔ dir ++ [name] ∈ w.files.map Prod.fst ++ w.directories := by
    simp only [nameInside?_eq_some]
    exact ⟨fun ⟨q, hq, he⟩ => he ▸ hq, fun hq => ⟨_, hq, rfl⟩⟩
  rw [hmem, List.mem_append]
  have hfile : dir ++ [name] ∈ w.files.map Prod.fst ↔ (w.file? (dir ++ [name])).isSome = true := by
    rw [file?, List.lookup_isSome_iff, List.mem_map]
    exact exists_congr fun f => and_congr_right fun _ => by rw [beq_iff_eq, eq_comm]
  rw [hfile]
  unfold kindAt
  split_ifs with hsome hthere
  · simp [hsome]
  · simpa [hsome] using hthere
  · simpa [hsome] using hthere

end Workspace

end Crowsfoot.Files
