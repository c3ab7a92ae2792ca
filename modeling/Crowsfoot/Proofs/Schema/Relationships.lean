import Crowsfoot.Proofs.Text.Words
import Crowsfoot.Schema.Relationship

/-!
# Keys of relationships

* `firstOfEachKey_concat`, `mem_firstOfEachKey_of_first`: a relationship is kept if none of its kind
  and key is there before it.
* `mem_of_mem_firstOfEachKey`, `exists_mem_firstOfEachKey`: no kind and key gets lost, and nothing
  else is kept.
* `ends_of_key`: where names have no hyphen, the key tells the ends, in this order or the other.
-/

namespace Crowsfoot.Relationship

open Crowsfoot.Text

/-! ## The first of each key -/

/-- Whether a relationship has the kind and the key of another. -/
def isLike (r s : Relationship) : Bool :=
  s.kind == r.kind && s.key == r.key

theorem isLike_iff {r s : Relationship} : isLike r s = true ↔ s.kind = r.kind ∧ s.key = r.key := by
  simp [isLike]

/-- The last relationship is kept if it is the first of its kind and key. -/
theorem firstOfEachKey_concat (rs : List Relationship) (r : Relationship) :
    firstOfEachKey (rs ++ [r])
      = if (firstOfEachKey rs).any (isLike r) then firstOfEachKey rs
        else firstOfEachKey rs ++ [r] := by
  unfold firstOfEachKey
  rw [List.foldl_append, List.foldl_cons, List.foldl_nil, List.any_reverse]
  unfold isLike
  split
  · rfl
  · rw [List.reverse_cons]

theorem mem_of_mem_firstOfEachKey {rs : List Relationship} {r : Relationship}
    (h : r ∈ firstOfEachKey rs) : r ∈ rs := by
  induction rs using List.reverseRecOn with
  | nil => exact h
  | append_singleton rs s ih =>
    rw [firstOfEachKey_concat] at h
    split at h
    · exact List.mem_append_left _ (ih h)
    · rcases List.mem_append.mp h with h | h
      · exact List.mem_append_left _ (ih h)
      · exact List.mem_append_right _ h

/-- Every relationship has one of its kind and key among those that are kept. -/
theorem exists_mem_firstOfEachKey {rs : List Relationship} {r : Relationship} (h : r ∈ rs) :
    ∃ s ∈ firstOfEachKey rs, s.kind = r.kind ∧ s.key = r.key := by
  induction rs using List.reverseRecOn with
  | nil => exact absurd h (by simp)
  | append_singleton rs u ih =>
    rw [firstOfEachKey_concat]
    by_cases hlike : (firstOfEachKey rs).any (isLike u) = true
    · rw [if_pos hlike]
      rcases List.mem_append.mp h with h | h
      · exact ih h
      · obtain ⟨s, hs, hsame⟩ := List.any_eq_true.mp hlike
        rw [List.mem_singleton.mp h]
        exact ⟨s, hs, isLike_iff.mp hsame⟩
    · rw [if_neg hlike]
      rcases List.mem_append.mp h with h | h
      · obtain ⟨s, hs, hsame⟩ := ih h
        exact ⟨s, List.mem_append_left _ hs, hsame⟩
      · exact ⟨r, List.mem_append_right _ h, rfl, rfl⟩

/-- What is kept stays kept where more relationships follow. -/
theorem mem_firstOfEachKey_append {rs : List Relationship} {r : Relationship}
    (h : r ∈ firstOfEachKey rs) (later : List Relationship) : r ∈ firstOfEachKey (rs ++ later) := by
  induction later using List.reverseRecOn with
  | nil => rwa [List.append_nil]
  | append_singleton later s ih =>
    rw [← List.append_assoc, firstOfEachKey_concat]
    split
    · exact ih
    · exact List.mem_append_left _ ih

/-- **A relationship is kept** if none of its kind and key is before it. -/
theorem mem_firstOfEachKey_of_first {before later : List Relationship} {r : Relationship}
    (h : ∀ s ∈ before, s.kind = r.kind → s.key ≠ r.key) :
    r ∈ firstOfEachKey (before ++ r :: later) := by
  have hconcat : r ∈ firstOfEachKey (before ++ [r]) := by
    rw [firstOfEachKey_concat, if_neg]
    · exact List.mem_append_right _ (List.mem_singleton_self r)
    · intro hlike
      obtain ⟨s, hs, hsame⟩ := List.any_eq_true.mp hlike
      obtain ⟨hkind, hkey⟩ := isLike_iff.mp hsame
      exact h s (mem_of_mem_firstOfEachKey hs) hkind hkey
  have hlater := mem_firstOfEachKey_append hconcat later
  rwa [List.append_assoc, List.singleton_append] at hlater

/-! ## Ends -/

/-- The names of the two entities. -/
def ends : Relationship → List String
  | .oneToOne parent child => [parent, child]
  | .oneToMany parent child => [parent, child]
  | .manyToMany first second _ => [first, second]

theorem hyphenated_inj {a b c d : String} (ha : '-' ∉ a.toList) (hb : '-' ∉ b.toList)
    (hc : '-' ∉ c.toList) (hd : '-' ∉ d.toList) (h : a ++ "-" ++ b = c ++ "-" ++ d) :
    a = c ∧ b = d := by
  have hpieces : ∀ {x y : String}, '-' ∉ x.toList → '-' ∉ y.toList →
      pieces '-' (x ++ "-" ++ y).toList = [x.toList, y.toList] := by
    intro x y hx hy
    have hlist : (x ++ "-" ++ y).toList = x.toList ++ '-' :: y.toList := by
      simp
    rw [hlist, pieces_append hx, pieces_eq_singleton hy]
  have heq := hpieces ha hb
  rw [h, hpieces hc hd] at heq
  obtain ⟨hfirst, hrest⟩ := List.cons.inj heq
  exact ⟨(String.toList_inj.mp hfirst).symm, (String.toList_inj.mp (List.cons.inj hrest).1).symm⟩

/-- A many-to-many relationship has the same key in either direction. -/
theorem key_manyToMany {first second first' second' : String}
    (h : [first, second].Perm [first', second']) (pivot pivot' : Option String) :
    (manyToMany first second pivot).key = (manyToMany first' second' pivot').key := by
  unfold key
  dsimp only
  rw [sorted_congr h]

/-- No name of an end has a hyphen. -/
def Unhyphenated (r : Relationship) : Prop :=
  ∀ name ∈ r.ends, '-' ∉ name.toList

section Keys

variable {r s : Relationship} (hr : r.Unhyphenated) (hs : s.Unhyphenated) (hkind : s.kind = r.kind)
  (hkey : s.key = r.key)
include hr hs hkind hkey

/-- A relationship with a parent is known by its kind and key. -/
theorem eq_of_key (hparent : r.kind ≠ .manyToMany) : s = r := by
  have hends : ∀ {p c p' c' : String}, (∀ name ∈ [p, c], '-' ∉ name.toList) →
      (∀ name ∈ [p', c'], '-' ∉ name.toList) → p ++ "-" ++ c = p' ++ "-" ++ c' → p = p' ∧ c = c' :=
    fun h h' heq => hyphenated_inj (h _ (by simp)) (h _ (by simp)) (h' _ (by simp)) (h' _ (by simp))
      heq
  cases r with
  | manyToMany => exact absurd rfl hparent
  | oneToOne parent child =>
    cases s with
    | oneToOne =>
      obtain ⟨rfl, rfl⟩ := hends hs hr hkey
      rfl
    | oneToMany | manyToMany => exact absurd hkind (by simp [kind])
  | oneToMany parent child =>
    cases s with
    | oneToMany =>
      obtain ⟨rfl, rfl⟩ := hends hs hr hkey
      rfl
    | oneToOne | manyToMany => exact absurd hkind (by simp [kind])

/-- The key tells the ends, in one order or the other. -/
theorem perm_ends_of_key : s.ends.Perm r.ends := by
  by_cases hparent : r.kind = .manyToMany
  · obtain ⟨a, b, custom, rfl⟩ : ∃ a b custom, r = .manyToMany a b custom := by
      cases r with
      | manyToMany a b custom => exact ⟨a, b, custom, rfl⟩
      | oneToOne | oneToMany => exact absurd hparent (by simp [kind])
    obtain ⟨c, d, other, rfl⟩ : ∃ c d other, s = .manyToMany c d other := by
      cases s with
      | manyToMany c d other => exact ⟨c, d, other, rfl⟩
      | oneToOne | oneToMany => exact absurd hkind (by simp [kind])
    -- the sorted names are the names, and the key tells them apart
    have hsorted : ∀ {x y : String}, (∀ name ∈ [x, y], '-' ∉ name.toList) →
        ∃ u v, sorted [x, y] = [u, v] ∧ [u, v].Perm [x, y] ∧ '-' ∉ u.toList ∧ '-' ∉ v.toList := by
      intro x y h
      rcases sorted_pair x y with heq | heq
      · exact ⟨x, y, heq, .refl _, h x (by simp), h y (by simp)⟩
      · exact ⟨y, x, heq, .swap x y [], h y (by simp), h x (by simp)⟩
    obtain ⟨u, v, huv, hperm, hu, hv⟩ := hsorted hr
    obtain ⟨u', v', huv', hperm', hu', hv'⟩ := hsorted hs
    dsimp only [key] at hkey
    rw [huv, huv', String.intercalate_cons_cons, String.intercalate_singleton,
      String.intercalate_cons_cons, String.intercalate_singleton] at hkey
    obtain ⟨rfl, rfl⟩ := hyphenated_inj hu' hv' hu hv hkey
    exact hperm'.symm.trans hperm
  · rw [eq_of_key hr hs hkind hkey hparent]

end Keys

end Crowsfoot.Relationship
