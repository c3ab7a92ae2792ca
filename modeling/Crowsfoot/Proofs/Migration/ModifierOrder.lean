import Crowsfoot.Proofs.Migration.Reading

/-!
# The order of modifiers

Modifiers of a chain mostly write different properties of the column. The order of two calls matters
only if they call the same method, or if one is `nullable` and the other `primary` or `useCurrent`,
which say that the column is not nullable (`staysInOrder`). In any other order of the calls that
keeps the order of those (`Rearranged`) they make the same column, and calls of other methods can
stand anywhere between them (`applyModifiers_rearranged`).

`unsigned` gives a column a minimum too, but only where it has none, and so it makes no difference
whether `min` comes before it or after (`Modifier.apply_comm`).

That a run of steps depends only on the order of those steps that do not commute is a fact about lists
(`foldl_eq_of_keepsOrder`): the first step of one run can be moved to the front of the other.
-/

namespace Crowsfoot

open Crowsfoot.Builder Crowsfoot.Migration

/-! ## Runs of steps that mostly commute -/

section Runs

variable {α κ σ : Type} [DecidableEq κ] {key : α → κ} {bound : κ → κ → Bool}

/-- Whether an element has one of two keys. -/
def hasKey (key : α → κ) (a b : κ) (x : α) : Bool :=
  key x == a || key x == b

theorem hasKey_left (b : κ) (x : α) : hasKey key (key x) b x = true := by
  rw [hasKey, beq_self_eq_true, Bool.true_or]

theorem hasKey_right (a : κ) (x : α) : hasKey key a (key x) x = true := by
  rw [hasKey, beq_self_eq_true, Bool.or_true]

/-- Two lists have the elements of two bound keys in the same order, for all such keys. -/
def KeepsOrder (key : α → κ) (bound : κ → κ → Bool) (xs ys : List α) : Prop :=
  ∀ a b, bound a b = true → xs.filter (hasKey key a b) = ys.filter (hasKey key a b)

/-- Only keys that the lists have count. -/
theorem KeepsOrder.of_keys (hself : ∀ a, bound a a = true) {xs ys : List α} {keys : List κ}
    (hkeys : ∀ x ∈ xs ++ ys, key x ∈ keys)
    (h : ∀ a ∈ keys, ∀ b ∈ keys, bound a b = true →
      xs.filter (hasKey key a b) = ys.filter (hasKey key a b)) :
    KeepsOrder key bound xs ys := by
  have hnot : ∀ a, a ∉ keys → ∀ x ∈ xs ++ ys, (key x == a) = false := by
    intro a ha x hx
    rw [beq_eq_false_iff_ne]
    rintro rfl
    exact ha (hkeys x hx)
  have hsame : ∀ {a b a' b' : κ}, (∀ x ∈ xs ++ ys, hasKey key a b x = hasKey key a' b' x) →
      xs.filter (hasKey key a' b') = ys.filter (hasKey key a' b') →
      xs.filter (hasKey key a b) = ys.filter (hasKey key a b) := by
    intro a b a' b' heq hboth
    rw [List.filter_congr fun x hx => heq x (List.mem_append_left ys hx),
      List.filter_congr fun x hx => heq x (List.mem_append_right xs hx), hboth]
  intro a b hab
  by_cases ha : a ∈ keys <;> by_cases hb : b ∈ keys
  · exact h a ha b hb hab
  · refine hsame (fun x hx => ?_) (h a ha a ha (hself a))
    rw [hasKey, hasKey, hnot b hb x hx, Bool.or_false, Bool.or_self]
  · refine hsame (fun x hx => ?_) (h b hb b hb (hself b))
    rw [hasKey, hasKey, hnot a ha x hx, Bool.false_or, Bool.or_self]
  · have hnone : ∀ x ∈ xs ++ ys, ¬hasKey key a b x = true := by
      intro x hx
      rw [hasKey, hnot a ha x hx, hnot b hb x hx]
      exact Bool.false_ne_true
    rw [List.filter_eq_nil_iff.mpr fun x hx => hnone x (List.mem_append_left ys hx),
      List.filter_eq_nil_iff.mpr fun x hx => hnone x (List.mem_append_right xs hx)]

theorem KeepsOrder.map {ι : Type} {f : ι → α} {xs ys : List ι}
    (h : KeepsOrder (fun i => key (f i)) bound xs ys) :
    KeepsOrder key bound (xs.map f) (ys.map f) := by
  intro a b hab
  have hboth : xs.filter (hasKey key a b ∘ f) = ys.filter (hasKey key a b ∘ f) := h a b hab
  rw [List.filter_map, List.filter_map, hboth]

/-- The first element of one list stands in the other, behind elements that it is not bound to. -/
theorem KeepsOrder.exists_split (hself : ∀ a, bound a a = true) {x : α} {xs ys : List α}
    (h : KeepsOrder key bound (x :: xs) ys) :
    ∃ pre post, ys = pre ++ x :: post ∧ ∀ y ∈ pre, bound (key x) (key y) = false := by
  have hfirst : ∀ b, bound (key x) b = true →
      ys.filter (hasKey key (key x) b) = x :: xs.filter (hasKey key (key x) b) := by
    intro b hb
    rw [← h (key x) b hb, List.filter_cons_of_pos (hasKey_left b x)]
  obtain ⟨pre, post, rfl, hpre, -, -⟩ := List.filter_eq_cons_iff.mp (hfirst _ (hself (key x)))
  refine ⟨pre, post, rfl, fun y hy => ?_⟩
  rw [← Bool.not_eq_true]
  intro hbound
  -- the first in `pre` with the key of `y` would come before `x`
  have hmem : y ∈ pre.filter (hasKey key (key x) (key y)) :=
    List.mem_filter.mpr ⟨hy, hasKey_right (key x) y⟩
  obtain ⟨z, zs, hzs⟩ := List.exists_cons_of_ne_nil (List.ne_nil_of_mem hmem)
  have hall := hfirst _ hbound
  rw [List.filter_append, hzs, List.cons_append] at hall
  have hz : z ∈ pre := (List.mem_filter.mp (hzs ▸ List.mem_cons_self)).1
  rw [(List.cons.inj hall).1] at hz
  exact hpre x hz (hasKey_left _ x)

/-- Without that element, the lists still have the others in the same order. -/
theorem KeepsOrder.tail (hself : ∀ a, bound a a = true) (hsymm : ∀ a b, bound a b = bound b a)
    {x : α} {xs pre post : List α} (h : KeepsOrder key bound (x :: xs) (pre ++ x :: post))
    (hpre : ∀ y ∈ pre, bound (key x) (key y) = false) : KeepsOrder key bound xs (pre ++ post) := by
  intro a b hab
  have hboth := h a b hab
  rw [List.filter_append] at hboth ⊢
  by_cases hx : hasKey key a b x = true
  · -- nothing before `x` has either key, since the key of `x` is one of them
    have hnone : pre.filter (hasKey key a b) = [] := by
      refine List.filter_eq_nil_iff.mpr fun y hy hkey => ?_
      have hfree := hpre y hy
      rw [hasKey, Bool.or_eq_true, beq_iff_eq, beq_iff_eq] at hx hkey
      rcases hx with rfl | rfl <;> rcases hkey with hkey | hkey <;> rw [hkey] at hfree
      · exact absurd (hfree.symm.trans (hself _)) (by decide)
      · exact absurd (hfree.symm.trans hab) (by decide)
      · exact absurd (hfree.symm.trans ((hsymm _ _).trans hab)) (by decide)
      · exact absurd (hfree.symm.trans (hself _)) (by decide)
    rw [hnone, List.filter_cons_of_pos hx, List.filter_cons_of_pos hx] at hboth
    rw [hnone]
    exact (List.cons.inj hboth).2
  · rwa [List.filter_cons_of_neg hx, List.filter_cons_of_neg hx] at hboth

/-- A step that commutes with all steps before it can be taken first. -/
theorem foldl_move_front {step : σ → α → σ} {x : α} {pre : List α}
    (h : ∀ y ∈ pre, ∀ s, step (step s y) x = step (step s x) y) (post : List α) (s : σ) :
    (pre ++ x :: post).foldl step s = (x :: (pre ++ post)).foldl step s := by
  induction pre generalizing s with
  | nil => rfl
  | cons y pre ih =>
    have hy := h y List.mem_cons_self
    have hpre := ih fun z hz => h z (List.mem_cons_of_mem y hz)
    rw [List.cons_append, List.foldl_cons, hpre, List.foldl_cons, List.foldl_cons, hy]
    rfl

/-- **A run depends only on the order of the steps that are bound to each other**, if all others
commute. -/
theorem foldl_eq_of_keepsOrder {step : σ → α → σ} (hself : ∀ a, bound a a = true)
    (hsymm : ∀ a b, bound a b = bound b a)
    (hcomm : ∀ x y, bound (key x) (key y) = false → ∀ s, step (step s y) x = step (step s x) y)
    {xs ys : List α} (h : KeepsOrder key bound xs ys) (s : σ) :
    ys.foldl step s = xs.foldl step s := by
  induction xs generalizing ys s with
  | nil =>
    have hnone : ys = [] := by
      refine List.eq_nil_iff_forall_not_mem.mpr fun y hy => ?_
      have hmem : y ∈ ys.filter (hasKey key (key y) (key y)) :=
        List.mem_filter.mpr ⟨hy, hasKey_left _ y⟩
      rw [← h (key y) (key y) (hself _)] at hmem
      exact nomatch hmem
    rw [hnone]
  | cons x xs ih =>
    obtain ⟨pre, post, rfl, hfree⟩ := h.exists_split hself
    rw [foldl_move_front fun y hy => hcomm x y (hfree y hy), List.foldl_cons, List.foldl_cons,
      ih (h.tail hself hsymm hfree)]

end Runs

/-! ## Modifiers that commute -/

/-- Whether one of two modifiers takes back what the other says. -/
def Modifier.opposes : Modifier → Modifier → Bool
  | .nullable, .primary | .nullable, .useCurrent | .primary, .nullable | .useCurrent, .nullable => true
  | _, _ => false

/-- What a modifier makes of a column, property by property. -/
theorem Modifier.apply_eq (m : Modifier) (call : Call) (c : Column) :
    m.apply call c =
      match m with
      | .minimum => { c with minimum := (call.argument 0).int?.or c.minimum }
      | .maximum => { c with maximum := (call.argument 0).int?.or c.maximum }
      | .comment => { c with comment := (call.argument 0).text?.or c.comment }
      | .pattern => { c with pattern := (call.argument 0).text?.or c.pattern }
      | m => m.apply call c := by
  cases m with
  | minimum | maximum =>
    simp only [Modifier.apply]
    cases (call.argument 0).int? <;> rfl
  | comment | pattern =>
    simp only [Modifier.apply]
    cases (call.argument 0).text? <;> rfl
  | _ => rfl

/-- **Different modifiers commute**, unless one takes back what the other says. -/
theorem Modifier.apply_comm {m n : Modifier} (hne : m ≠ n) (hopp : m.opposes n = false)
    (a b : Call) (c : Column) : m.apply a (n.apply b c) = n.apply b (m.apply a c) := by
  rw [m.apply_eq a, n.apply_eq b, n.apply_eq b, m.apply_eq a]
  cases m <;> cases n <;>
    first
    | exact absurd rfl hne
    | exact absurd hopp (by decide)
    | simp only [Modifier.apply, Option.or_assoc]

/-! ## Calls that commute -/

/-- Whether calls of two methods have to stay in order. -/
def staysInOrder (a b : String) : Bool :=
  a == b || (a == "nullable" && (b == "primary" || b == "useCurrent"))
    || (b == "nullable" && (a == "primary" || a == "useCurrent"))

theorem staysInOrder_self (a : String) : staysInOrder a a = true := by
  rw [staysInOrder, beq_self_eq_true, Bool.true_or, Bool.true_or]

theorem staysInOrder_comm (a b : String) : staysInOrder a b = staysInOrder b a := by
  rw [staysInOrder, staysInOrder, Bool.or_assoc, Bool.or_assoc, Bool.beq_comm (a := a) (b := b),
    Bool.or_comm (a == "nullable" && _)]

/-- The modifiers of methods that need not stay in order commute. -/
theorem free_of_staysInOrder : ∀ p ∈ modifierMethods, ∀ q ∈ modifierMethods,
    staysInOrder p.1 q.1 = false → p.2 ≠ q.2 ∧ p.2.opposes q.2 = false := by
  decide

/-- **Calls commute** if their methods need not stay in order. -/
theorem applyCall_comm {a b : Call} (h : staysInOrder a.method b.method = false) (c : Column) :
    applyCall (applyCall c b) a = applyCall (applyCall c a) b := by
  unfold applyCall
  cases hm : Modifier.ofMethod? a.method with
  | none => rfl
  | some m =>
    cases hn : Modifier.ofMethod? b.method with
    | none => rfl
    | some n =>
      obtain ⟨hne, hopp⟩ := free_of_staysInOrder _ (mem_of_ofMethod? hm) _ (mem_of_ofMethod? hn) h
      exact Modifier.apply_comm hne hopp a b c

/-! ## Chains in another order -/

/-- The calls of a chain in another order, which keeps the order of calls of the same method, and
that of `nullable` calls and calls of `primary` or `useCurrent`. -/
structure Rearranged (calls others : List Call) : Prop where
  perm : others.Perm calls
  order : KeepsOrder Call.method staysInOrder calls others

/-- Whether a call is a modifier. -/
def isModifier (call : Call) : Bool :=
  (Modifier.ofMethod? call.method).isSome

/-- Calls that are no modifiers have no effect. -/
theorem applyModifiers_filter (calls : List Call) (c : Column) :
    applyModifiers (calls.filter isModifier) c = applyModifiers calls c := by
  unfold applyModifiers
  rw [List.foldl_filter]
  congr 1
  funext d call
  unfold applyCall isModifier
  cases Modifier.ofMethod? call.method <;> rfl

/-- **The order of modifiers matters only where it should**: in any other order that keeps the order
of calls of the same method, and that of `nullable` with respect to `primary` and `useCurrent`, they
make the same column, with whatever other calls between them. -/
theorem applyModifiers_rearranged {calls others : List Call} (h : Rearranged calls others)
    (c : Column) :
    applyModifiers others c = applyModifiers calls c
      ∧ ∀ longer : List Call, longer.filter isModifier = others.filter isModifier →
        applyModifiers longer c = applyModifiers calls c := by
  have hsame : applyModifiers others c = applyModifiers calls c :=
    foldl_eq_of_keepsOrder staysInOrder_self staysInOrder_comm
      (fun _ _ hfree d => applyCall_comm hfree d) h.order c
  refine ⟨hsame, fun longer hlonger => ?_⟩
  rw [← applyModifiers_filter longer, hlonger, applyModifiers_filter, hsame]

/-- A chain of modifiers, `nullable()->unsigned()->min(3)->primary()`. -/
def ageModifiers : List Call :=
  [{ method := "nullable", rawArguments := "", arguments := [] },
    { method := "unsigned", rawArguments := "", arguments := [] },
    { method := "min", rawArguments := "3", arguments := [.int 3] },
    { method := "primary", rawArguments := "", arguments := [] }]

/-- The calls of this chain at the given places. -/
def ageModifiersAt (places : List Nat) : List Call :=
  places.map fun k => ageModifiers.getD k default

/-- `min(3)->nullable()->primary()->unsigned()` is a rearrangement. -/
theorem rearranged_ageModifiers : Rearranged ageModifiers (ageModifiersAt [2, 0, 3, 1]) := by
  have hall : ageModifiers = ageModifiersAt [0, 1, 2, 3] := rfl
  rw [hall]
  refine ⟨List.Perm.map _ (by decide), KeepsOrder.map ?_⟩
  have hmethods : ∀ place ∈ [0, 1, 2, 3] ++ [2, 0, 3, 1], (ageModifiers.getD place default).method
      ∈ ["nullable", "unsigned", "min", "primary"] := by
    decide
  exact KeepsOrder.of_keys staysInOrder_self hmethods (by decide)

theorem applyModifiers_rearranged_age :
    Rearranged ageModifiers (ageModifiersAt [2, 0, 3, 1])
      ∧ applyModifiers (ageModifiersAt [2, 0, 3, 1]) { name := "age", type := .int }
        = { name := "age", type := .int, nullable := false, primary := true, unsigned := true,
            minimum := some 3 } :=
  ⟨rearranged_ageModifiers,
    ((applyModifiers_rearranged rearranged_ageModifiers { name := "age", type := .int }).1).trans
      (by decide)⟩

/-- Where `nullable` comes behind `primary`, the column is nullable. -/
example :
    (applyModifiers ageModifiers.reverse { name := "age", type := .int }).nullable = true := by
  decide

end Crowsfoot
