import Mathlib.Data.List.Forall2

/-!
# Computations that can fail

A sequence of steps succeeds if each of them does (`bind_eq_ok`) and fails with the first that does
not (`bind_eq_error`). So it is for the elements of a list: there is a result for each of them
(`mapM_eq_ok_iff`), or one of them fails (`exists_of_mapM_eq_error`).

Proofs take computations apart by these laws, from the last step to the first.
-/

namespace Crowsfoot

variable {ε α β : Type}

/-! ## Steps -/

section Steps

variable {x : Except ε α} {e : ε} {b : β}

/-- A computation that succeeds does so with what its first step gives. -/
theorem bind_eq_ok {f : α → Except ε β} :
    (x >>= f) = .ok b ↔ ∃ a, x = .ok a ∧ f a = .ok b := by
  cases x with
  | error e => exact ⟨fun h => (nomatch h), fun ⟨_, h, _⟩ => (nomatch h)⟩
  | ok a =>
    constructor
    · exact fun h => ⟨a, rfl, h⟩
    · rintro ⟨_, heq, h⟩
      rwa [← Except.ok.inj heq] at h

/-- A computation that fails does so at its first step or behind it. -/
theorem bind_eq_error {f : α → Except ε β} :
    (x >>= f) = .error e ↔ x = .error e ∨ ∃ a, x = .ok a ∧ f a = .error e := by
  cases x with
  | error d =>
    constructor
    · exact fun h => .inl (congrArg Except.error (Except.error.inj h))
    · rintro (h | ⟨_, h, _⟩)
      · exact congrArg Except.error (Except.error.inj h)
      · exact nomatch h
  | ok a =>
    constructor
    · exact fun h => .inr ⟨a, rfl, h⟩
    · rintro (h | ⟨_, heq, h⟩)
      · exact nomatch h
      · rwa [← Except.ok.inj heq] at h

theorem map_eq_ok {f : α → β} : x.map f = .ok b ↔ ∃ a, x = .ok a ∧ f a = b := by
  cases x with
  | error d => exact ⟨fun h => (nomatch h), fun ⟨_, h, _⟩ => (nomatch h)⟩
  | ok a =>
    constructor
    · exact fun h => ⟨a, rfl, Except.ok.inj h⟩
    · rintro ⟨_, heq, h⟩
      rw [Except.ok.inj heq, ← h]
      rfl

/-- What is done with a result fails only for want of it. -/
theorem map_eq_error {f : α → β} : x.map f = .error e ↔ x = .error e := by
  cases x with
  | error d =>
    exact ⟨fun h => congrArg Except.error (Except.error.inj h),
      fun h => congrArg Except.error (Except.error.inj h)⟩
  | ok a => exact ⟨fun h => (nomatch h), fun h => (nomatch h)⟩

/-- What is done with an error changes no success. -/
theorem mapError_eq_ok {δ : Type} {f : ε → δ} {a : α} : x.mapError f = .ok a ↔ x = .ok a := by
  cases x with
  | error d => exact ⟨fun h => (nomatch h), fun h => (nomatch h)⟩
  | ok a =>
    exact ⟨fun h => congrArg Except.ok (Except.ok.inj h),
      fun h => congrArg Except.ok (Except.ok.inj h)⟩

theorem mapError_eq_error {δ : Type} {f : ε → δ} {d : δ} :
    x.mapError f = .error d ↔ ∃ e, x = .error e ∧ f e = d := by
  cases x with
  | error e =>
    constructor
    · exact fun h => ⟨e, rfl, Except.error.inj h⟩
    · rintro ⟨_, heq, h⟩
      rw [Except.error.inj heq, ← h]
      rfl
  | ok a => exact ⟨fun h => (nomatch h), fun ⟨_, h, _⟩ => (nomatch h)⟩

end Steps

/-! ## Lists -/

section Lists

variable {f : α → Except ε β} {xs : List α} {ys : List β} {e : ε}

/-- **All succeed** with one result each. -/
theorem mapM_eq_ok_iff : xs.mapM f = .ok ys ↔ List.Forall₂ (fun x y => f x = .ok y) xs ys := by
  induction xs generalizing ys with
  | nil =>
    rw [List.mapM_nil, List.forall₂_nil_left_iff]
    exact ⟨fun h => (Except.ok.inj h).symm, fun h => h ▸ rfl⟩
  | cons x xs ih =>
    simp only [List.mapM_cons, bind_eq_ok, ih, List.forall₂_cons_left_iff]
    constructor
    · rintro ⟨y, hy, rest, hrest, h⟩
      exact ⟨y, rest, hy, hrest, (Except.ok.inj h).symm⟩
    · rintro ⟨y, rest, hy, hrest, rfl⟩
      exact ⟨y, hy, rest, hrest, rfl⟩

theorem mapM_eq_ok {g : α → β} (h : ∀ x ∈ xs, f x = .ok (g x)) : xs.mapM f = .ok (xs.map g) :=
  mapM_eq_ok_iff.mpr (List.forall₂_map_right_iff.mpr (List.forall₂_same.mpr h))

theorem mapM_id_eq_ok {xs : List (Except ε α)} {ys : List α} :
    xs.mapM id = .ok ys ↔ xs = ys.map .ok := by
  rw [mapM_eq_ok_iff, ← List.forall₂_eq_eq_eq, List.forall₂_map_right_iff]
  rfl

/-- What holds of each result holds of all results. -/
theorem forall_mem_of_mapM {P : β → Prop} (hf : ∀ x ∈ xs, ∀ y, f x = .ok y → P y)
    (h : xs.mapM f = .ok ys) : ∀ y ∈ ys, P y := by
  have hall := mapM_eq_ok_iff.mp h
  clear h
  induction hall with
  | nil => simp
  | cons hx _ ih =>
    exact List.forall_mem_cons.mpr
      ⟨hf _ List.mem_cons_self _ hx, ih fun x hx => hf x (List.mem_cons_of_mem _ hx)⟩

/-- **If all cannot be computed**, then neither can one of them. -/
theorem exists_of_mapM_eq_error (h : xs.mapM f = .error e) : ∃ x ∈ xs, f x = .error e := by
  induction xs with
  | nil => exact nomatch h
  | cons x xs ih =>
    rw [List.mapM_cons] at h
    rcases bind_eq_error.mp h with hx | ⟨y, -, h⟩
    · exact ⟨x, List.mem_cons_self, hx⟩
    · rcases bind_eq_error.mp h with hxs | ⟨ys, -, h⟩
      · obtain ⟨z, hz, hfz⟩ := ih hxs
        exact ⟨z, List.mem_cons_of_mem x hz, hfz⟩
      · exact nomatch h

/-- What every step commutes with, the run of all steps commutes with. -/
theorem foldlM_map {σ κ : Type} {step : σ → κ → Except ε σ} {f : σ → σ} {ks : List κ}
    (h : ∀ k ∈ ks, ∀ s, step (f s) k = (step s k).map f) (s : σ) :
    ks.foldlM step (f s) = (ks.foldlM step s).map f := by
  induction ks generalizing s with
  | nil => rfl
  | cons k ks ih =>
    rw [List.foldlM_cons, List.foldlM_cons, h k List.mem_cons_self]
    cases step s k with
    | error e => rfl
    | ok t => exact ih (fun l hl => h l (List.mem_cons_of_mem k hl)) t

end Lists

end Crowsfoot
