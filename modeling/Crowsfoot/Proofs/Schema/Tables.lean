import Mathlib.Data.List.Forall2
import Crowsfoot.Schema.Table

/-!
# Lists of tables and of columns

Tables are put in order (`order_append`, `order_map_order`), and columns are changed by their name
(`modifyColumn_eq_map`); neither adds or drops anything. Where a list is changed element by element,
changes go together (`forall₂_trans`).
-/

namespace Crowsfoot

namespace Table

theorem eq_of_parts {t u : Table} (name : t.name = u.name) (columns : t.columns = u.columns)
    (isPivot : t.isPivot = u.isPivot) : t = u := by
  obtain ⟨_, _, _⟩ := t
  obtain ⟨_, _, _⟩ := u
  exact Table.mk.injEq .. ▸ ⟨name, columns, isPivot⟩

theorem storageName_of_domain {t : Table} (h : t.isPivot = false) :
    t.storageName = Naming.tableName t.name := by
  unfold storageName
  rw [h, if_neg Bool.false_ne_true]

theorem column?_eq_some {t : Table} {name : String} {c : Column} (h : t.column? name = some c) :
    c ∈ t.columns ∧ c.name = name := by
  unfold column? findColumn? at h
  exact ⟨List.mem_of_find?_eq_some h, by simpa using List.find?_some h⟩

theorem exists_column? {t : Table} {name : String} (h : name ∈ t.columns.map Column.name) :
    ∃ c, t.column? name = some c := by
  obtain ⟨c, hc, hname⟩ := List.mem_map.mp h
  unfold column? findColumn?
  exact Option.isSome_iff_exists.mp (List.find?_isSome.mpr ⟨c, hc, by simpa using hname⟩)

/-! ## The order of tables -/

theorem mem_order {t : Table} {ts : List Table} : t ∈ order ts ↔ t ∈ ts := by
  unfold order
  rw [List.mem_append, List.mem_filter, List.mem_filter]
  cases t.isPivot <;> simp

theorem length_order (ts : List Table) : (order ts).length = ts.length := by
  unfold order
  rw [List.length_append, ← List.countP_eq_length_filter, ← List.countP_eq_length_filter,
    List.length_eq_countP_add_countP (fun t : Table => t.isPivot), Nat.add_comm]
  simp

/-- Domain tables with pivots behind them are told apart again. -/
theorem filter_append {ds ps : List Table} (hds : ∀ t ∈ ds, t.isPivot = false)
    (hps : ∀ t ∈ ps, t.isPivot = true) :
    (ds ++ ps).filter (fun t => !t.isPivot) = ds ∧ (ds ++ ps).filter (fun t => t.isPivot) = ps := by
  have hdomain : ds.filter (fun t => !t.isPivot) = ds := by
    rw [List.filter_eq_self]
    exact fun t ht => by rw [hds t ht]; rfl
  have hnone : ps.filter (fun t => !t.isPivot) = [] := by
    rw [List.filter_eq_nil_iff]
    exact fun t ht => by rw [hps t ht]; simp
  have hnot : ds.filter (fun t => t.isPivot) = [] := by
    rw [List.filter_eq_nil_iff]
    exact fun t ht => by rw [hds t ht]; simp
  have hpivots : ps.filter (fun t => t.isPivot) = ps := by
    rw [List.filter_eq_self]
    exact fun t ht => hps t ht
  rw [List.filter_append, List.filter_append, hdomain, hnone, hnot, hpivots, List.append_nil,
    List.nil_append]
  exact ⟨rfl, rfl⟩

/-- They are in order. -/
theorem order_append {ds ps : List Table} (hds : ∀ t ∈ ds, t.isPivot = false)
    (hps : ∀ t ∈ ps, t.isPivot = true) : order (ds ++ ps) = ds ++ ps := by
  obtain ⟨hdomain, hpivots⟩ := filter_append hds hps
  unfold order
  rw [hdomain, hpivots]

/-- What keeps pivots pivots keeps tables in order. -/
theorem order_map_order {g : Table → Table} {ts : List Table}
    (h : ∀ t ∈ ts, (g t).isPivot = t.isPivot) : order ((order ts).map g) = (order ts).map g := by
  unfold order
  rw [List.map_append]
  apply order_append
  · intro t ht
    obtain ⟨s, hs, rfl⟩ := List.mem_map.mp ht
    obtain ⟨hs, hp⟩ := List.mem_filter.mp hs
    rw [h s hs]
    simpa using hp
  · intro t ht
    obtain ⟨s, hs, rfl⟩ := List.mem_map.mp ht
    obtain ⟨hs, hp⟩ := List.mem_filter.mp hs
    rwa [h s hs]

theorem order_order (ts : List Table) : order (order ts) = order ts := by
  have hsame : order ((order ts).map id) = (order ts).map id := order_map_order fun _ _ => rfl
  rwa [List.map_id] at hsame

end Table

/-! ## Changing a column -/

theorem map_name_modifyColumn {name : String} {f : Column → Column}
    (hf : ∀ c, (f c).name = c.name) (columns : List Column) :
    (modifyColumn name f columns).map Column.name = columns.map Column.name := by
  induction columns with
  | nil => rfl
  | cons c columns ih =>
    unfold modifyColumn
    split
    · rw [List.map_cons, List.map_cons, hf]
    · rw [List.map_cons, List.map_cons, ih]

/-- What is looked for like what is changed is found changed. -/
theorem findColumn?_modifyColumn {name : String} {f : Column → Column}
    (hf : ∀ c, (f c).name = c.name) (columns : List Column) :
    findColumn? (modifyColumn name f columns) name = (findColumn? columns name).map f := by
  unfold findColumn?
  induction columns with
  | nil => rfl
  | cons c columns ih =>
    unfold modifyColumn
    by_cases hc : c.name = name
    · have hfound : (c.name == name) = true := beq_iff_eq.mpr hc
      rw [if_pos hc, List.find?_cons, List.find?_cons, hf, hfound]
      rfl
    · rw [if_neg hc, List.find?_cons, List.find?_cons, beq_eq_false_iff_ne.mpr hc, ih]

/-- Changing nothing about the column that is found changes nothing. -/
theorem modifyColumn_eq_self {name : String} {f : Column → Column} {columns : List Column}
    (h : ∀ c, findColumn? columns name = some c → f c = c) :
    modifyColumn name f columns = columns := by
  unfold findColumn? at h
  induction columns with
  | nil => rfl
  | cons c columns ih =>
    unfold modifyColumn
    rw [List.find?_cons] at h
    by_cases hc : c.name = name
    · rw [beq_iff_eq.mpr hc] at h
      rw [if_pos hc, h c rfl]
    · rw [beq_eq_false_iff_ne.mpr hc] at h
      rw [if_neg hc, ih h]

theorem nodup_modifyColumn {name : String} {f : Column → Column} {columns : List Column}
    (hf : ∀ c, (f c).name = c.name) (h : (columns.map Column.name).Nodup) :
    ((modifyColumn name f columns).map Column.name).Nodup := by
  rwa [map_name_modifyColumn hf]

theorem forall_mem_modifyColumn {P : Column → Prop} {name : String} {f : Column → Column}
    {columns : List Column} (h : ∀ c ∈ columns, P c) (hf : ∀ c, P c → P (f c)) :
    ∀ c ∈ modifyColumn name f columns, P c := by
  induction columns with
  | nil => exact h
  | cons d columns ih =>
    have hrest : ∀ c ∈ columns, P c := fun c hc => h c (List.mem_cons_of_mem d hc)
    have hd : P d := h d List.mem_cons_self
    unfold modifyColumn
    split
    · exact List.forall_mem_cons.mpr ⟨hf d hd, hrest⟩
    · exact List.forall_mem_cons.mpr ⟨hd, ih hrest⟩

/-- Where names are different, changing the first column of a name changes all of them. -/
theorem modifyColumn_eq_map {name : String} {f : Column → Column} {columns : List Column}
    (h : (columns.map Column.name).Nodup) :
    modifyColumn name f columns = columns.map fun c => if c.name = name then f c else c := by
  induction columns with
  | nil => rfl
  | cons c columns ih =>
    rw [List.map_cons, List.nodup_cons] at h
    unfold modifyColumn
    by_cases hc : c.name = name
    · have hothers : columns.map (fun d => if d.name = name then f d else d) = columns := by
        refine (List.map_congr_left fun d hd => ?_).trans (List.map_id columns)
        have hd' : d.name ≠ name := by
          intro he
          exact h.1 (List.mem_map.mpr ⟨d, hd, he.trans hc.symm⟩)
        rw [if_neg hd', id_eq]
      rw [if_pos hc, List.map_cons, hothers, if_pos hc]
    · rw [if_neg hc, List.map_cons, ih h.2, if_neg hc]

/-- What a change does to a column, it does to one column, and leaves the others. -/
theorem forall₂_modifyColumn {R : Column → Column → Prop} (hrefl : ∀ c, R c c) {name : String}
    {f : Column → Column} (hf : ∀ c, R c (f c)) (columns : List Column) :
    List.Forall₂ R columns (modifyColumn name f columns) := by
  induction columns with
  | nil => exact .nil
  | cons c columns ih =>
    unfold modifyColumn
    split
    · exact .cons (hf c) (List.forall₂_same.mpr fun d _ => hrefl d)
    · exact .cons (hrefl c) ih

/-! ## Changing all of a list -/

/-- What happens to each goes together for all. -/
theorem forall₂_trans {α : Type} {R : α → α → Prop} (hR : ∀ a b c, R a b → R b c → R a c)
    {as bs cs : List α} (h : List.Forall₂ R as bs) (h' : List.Forall₂ R bs cs) :
    List.Forall₂ R as cs := by
  induction h generalizing cs with
  | nil => exact h'
  | cons hab _ ih =>
    obtain ⟨c, cs, hbc, hcs, rfl⟩ := List.forall₂_cons_left_iff.mp h'
    exact .cons (hR _ _ _ hab hbc) (ih hcs)

/-- What happens to each happens at its position. -/
theorem exists_getElem?_of_forall₂ {α β : Type} {R : α → β → Prop} {as : List α} {bs : List β}
    (h : List.Forall₂ R as bs) {i : Nat} {a : α} (ha : as[i]? = some a) :
    ∃ b, bs[i]? = some b ∧ R a b := by
  induction h generalizing i with
  | nil => exact nomatch ha
  | cons hhead _ ih =>
    cases i with
    | zero => exact ⟨_, rfl, Option.some.inj ha ▸ hhead⟩
    | succ i => exact ih ha

/-- What happens to the elements of a concatenation happens to its parts. -/
theorem forall₂_append_left {α β : Type} {R : α → β → Prop} {as bs : List α} {cs : List β}
    (h : List.Forall₂ R (as ++ bs) cs) :
    ∃ kept added, cs = kept ++ added ∧ List.Forall₂ R as kept ∧ List.Forall₂ R bs added := by
  induction as generalizing cs with
  | nil => exact ⟨[], cs, rfl, .nil, h⟩
  | cons a as ih =>
    obtain ⟨c, cs, hac, hcs, rfl⟩ := List.forall₂_cons_left_iff.mp h
    obtain ⟨kept, added, rfl, hkept, hadded⟩ := ih hcs
    exact ⟨c :: kept, added, rfl, .cons hac hkept, hadded⟩

/-- What happens to each, with more behind them, goes together for all. -/
theorem exists_forall₂_trans {α : Type} {R : α → α → Prop} (hR : ∀ a b c, R a b → R b c → R a c)
    {as bs cs : List α} (h : ∃ kept added, bs = kept ++ added ∧ List.Forall₂ R as kept)
    (h' : ∃ kept added, cs = kept ++ added ∧ List.Forall₂ R bs kept) :
    ∃ kept added, cs = kept ++ added ∧ List.Forall₂ R as kept := by
  obtain ⟨kept, added, rfl, hkept⟩ := h
  obtain ⟨kept', added', rfl, hkept'⟩ := h'
  obtain ⟨first, second, rfl, hfirst, -⟩ := forall₂_append_left hkept'
  exact ⟨first, second ++ added', List.append_assoc first second added',
    forall₂_trans hR hkept hfirst⟩

end Crowsfoot
