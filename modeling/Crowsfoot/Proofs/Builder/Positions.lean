import Crowsfoot.Proofs.Builder.Groups

/-!
# Positions of closing brackets

`closingIndex` finds the bracket that closes the one at a position, counted from the beginning of
the text. `closingIndex_exact`: it finds the one closing bracket before which there are items
(`Closes`), and it finds none only where there is none. What is found depends on the text from the
one bracket to the other and on nothing else.
-/

namespace Crowsfoot.Builder

open Crowsfoot.Text

/-- The bracket at `stop` closes the one at `start`: it stands behind it, it is of the right kind, and
between the two there are items. -/
structure Closes (cs : List Char) (closing : Char) (start stop : Nat) : Prop where
  behind : start < stop
  bracket : cs[stop]? = some closing
  items : Items closing ((cs.take stop).drop (start + 1))

section Positions

variable {text : String} {opening closing : Char} {inside rest cs : List Char} {start stop : Nat}

/-- From an opening bracket on, the text is searched for the end of its group. -/
theorem closingIndex_eq (pair : closerOf? opening = some closing)
    (htext : text.toList.drop start = opening :: rest) :
    closingIndex text start
      = .ok ((group closing rest).map fun found => ((start + 1 + found.1.length : Nat) : Int)) := by
  have hback : (-(start : Int)).toNat = 0 := by omega
  unfold closingIndex
  simp only [hback, Nat.not_lt_zero, if_false, Nat.sub_zero, List.drop_length, List.nil_append,
    Int.toNat_natCast, htext, pair]
  rfl

/-- The closing bracket behind items is found, whatever follows it. -/
theorem closingIndex_append (pair : closerOf? opening = some closing) (h : Items closing inside)
    (htext : text.toList.drop start = opening :: (inside ++ closing :: rest)) :
    closingIndex text start = .ok (some ((start + 1 + inside.length : Nat) : Int)) := by
  rw [closingIndex_eq pair htext, h.group_append pair]
  rfl

/-! ## From one bracket to the other -/

/-- The opening bracket, the items and the closing bracket are what stands from the one position to
the other. -/
theorem Closes.slice_eq (h : Closes cs closing start stop) (hopening : cs[start]? = some opening) :
    (cs.take (stop + 1)).drop start = opening :: ((cs.take stop).drop (start + 1) ++ [closing]) := by
  have hbehind := h.behind
  obtain ⟨hstop, hclosing⟩ := List.getElem?_eq_some_iff.mp h.bracket
  have hstart : start < (cs.take stop).length := by
    rw [List.length_take]
    omega
  have hfirst : (cs.take stop)[start] = opening := by
    rw [List.getElem_take]
    exact (List.getElem?_eq_some_iff.mp hopening).2
  rw [List.take_succ_eq_append_getElem hstop, hclosing,
    List.drop_append_of_le_length (Nat.le_of_lt hstart), List.drop_eq_getElem_cons hstart, hfirst]
  rfl

/-- The closing bracket is found wherever the same text stands. -/
theorem Closes.closingIndex (h : Closes cs closing start stop)
    (hopening : cs[start]? = some opening) (pair : closerOf? opening = some closing) {place : Nat}
    (hslice : (cs.take (stop + 1)).drop start <+: text.toList.drop place) :
    Builder.closingIndex text place = .ok (some ((place + (stop - start) : Nat) : Int)) := by
  have hbehind := h.behind
  obtain ⟨hstop, -⟩ := List.getElem?_eq_some_iff.mp h.bracket
  obtain ⟨rest, htext⟩ := hslice
  rw [h.slice_eq hopening, List.cons_append, List.append_assoc, List.singleton_append] at htext
  rw [closingIndex_append pair h.items htext.symm, List.length_drop, List.length_take]
  congr 3
  omega

theorem Closes.closingIndex_self (h : Closes text.toList closing start stop)
    (hopening : text.toList[start]? = some opening) (pair : closerOf? opening = some closing) :
    Builder.closingIndex text start = .ok (some (stop : Int)) := by
  have hslice : (text.toList.take (stop + 1)).drop start <+: text.toList.drop start := by
    rw [List.drop_take]
    exact List.take_prefix _ _
  have hfound := h.closingIndex hopening pair hslice
  rwa [Nat.add_sub_cancel' (Nat.le_of_lt h.behind)] at hfound

/-- **A search for the closing bracket** finds one, or there is none. -/
theorem closingIndex_cases (hopening : text.toList[start]? = some opening)
    (pair : closerOf? opening = some closing) :
    (∃ stop, Closes text.toList closing start stop ∧ closingIndex text start = .ok (some ↑stop))
      ∨ (¬∃ stop, Closes text.toList closing start stop) ∧ closingIndex text start = .ok none := by
  obtain ⟨hstart, hfirst⟩ := List.getElem?_eq_some_iff.mp hopening
  have htext : text.toList.drop start = opening :: text.toList.drop (start + 1) := by
    rw [List.drop_eq_getElem_cons hstart, hfirst]
  have hindex := closingIndex_eq pair htext
  cases hgroup : group closing (text.toList.drop (start + 1)) with
  | none =>
    rw [hgroup] at hindex
    refine Or.inr ⟨?_, hindex⟩
    rintro ⟨stop, h⟩
    rw [h.closingIndex_self hopening pair] at hindex
    exact nomatch hindex
  | some found =>
    obtain ⟨inside, rest⟩ := found
    obtain ⟨hitems, hinside⟩ := (group_eq_some_iff pair).mp hgroup
    rw [hgroup] at hindex
    refine Or.inl ⟨start + 1 + inside.length, ⟨by omega, ?_, ?_⟩, hindex⟩
    · rw [← List.getElem?_drop, hinside, List.getElem?_append_right (Nat.le_refl _), Nat.sub_self]
      rfl
    · rw [List.drop_take, Nat.add_sub_cancel_left, hinside, List.take_left]
      exact hitems

end Positions

/-- **The closing bracket that is found** is the one behind items, of which there is no more than one,
and none is found only where there is none. It is found again wherever the text from the one bracket
to the other stands. -/
theorem closingIndex_exact {text : String} {opening closing : Char} {start : Nat}
    (hopening : text.toList[start]? = some opening) (pair : closerOf? opening = some closing) :
    (∀ stop : Nat, closingIndex text start = .ok (some ↑stop)
        ↔ Closes text.toList closing start stop)
      ∧ (∀ first second, Closes text.toList closing start first →
        Closes text.toList closing start second → first = second)
      ∧ (closingIndex text start = .ok none ↔ ¬∃ stop, Closes text.toList closing start stop)
      ∧ ∀ stop, Closes text.toList closing start stop → ∀ (other : String) (place : Nat),
        (text.toList.take (stop + 1)).drop start <+: other.toList.drop place →
          closingIndex other place = .ok (some ↑(place + (stop - start))) := by
  have honly : ∀ {first second : Nat}, closingIndex text start = .ok (some ↑first) →
      closingIndex text start = .ok (some ↑second) → first = second := by
    intro first second hfirst hsecond
    rw [hfirst] at hsecond
    exact Int.ofNat.inj (Option.some.inj (Except.ok.inj hsecond))
  refine ⟨fun stop => ⟨fun h => ?_, fun h => h.closingIndex_self hopening pair⟩,
    fun first second hfirst hsecond => honly (hfirst.closingIndex_self hopening pair)
      (hsecond.closingIndex_self hopening pair), ?_,
    fun stop h other place hslice => h.closingIndex hopening pair hslice⟩
  · rcases closingIndex_cases hopening pair with ⟨found, hfound, hindex⟩ | ⟨-, hindex⟩
    · exact honly hindex h ▸ hfound
    · rw [hindex] at h
      exact nomatch h
  · rcases closingIndex_cases hopening pair with ⟨found, hfound, hindex⟩ | ⟨hnone, hindex⟩
    · rw [hindex]
      exact iff_of_false (fun h => nomatch h) fun hnone => hnone ⟨found, hfound⟩
    · exact iff_of_true hindex hnone

/-- A closing bracket of another kind and those in literals and in a group are passed over. -/
theorem closingIndex_exact_nested :
    Closes "f(a], ')', [\"(\")])]".toList ')' 1 17
      ∧ closingIndex "(a], ')', [\"(\")])" 0 = .ok (some 16) := by
  have hopening : "f(a], ')', [\"(\")])]".toList[1]? = some '(' := by decide
  have h := closingIndex_exact hopening rfl
  have hcloses := (h.1 17).mp (by decide)
  exact ⟨hcloses, h.2.2.2 17 hcloses "(a], ')', [\"(\")])" 0 (by decide)⟩

end Crowsfoot.Builder
