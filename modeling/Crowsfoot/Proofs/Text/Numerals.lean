import Crowsfoot.Proofs.Text.Words
import Crowsfoot.Text.Integer

/-!
# Printed integers are read back

Sizes, precisions and scales are printed in decimal with ASCII digits. `readInteger?_toString` reads
every integer back; `readInteger_toString` is the form for a text that has to be a number.
`mem_toString` says which characters a printed integer has, which keeps it apart from all
punctuation around it. In ASCII there are no other digits than those (`isDigits_ascii`).
-/

namespace Crowsfoot.Text

/-! ## Natural numbers -/

theorem isAscii_of_isDigit {c : Char} (h : c.isDigit = true) : isAscii c = true := by
  have : c.val ≤ 57 := by simp only [Char.isDigit, Bool.and_eq_true, decide_eq_true_eq] at h; exact h.2
  have : c.toNat ≤ 57 := UInt32.le_iff_toNat_le.mp this
  simp only [isAscii, decide_eq_true_eq]
  omega

theorem isDigit_of_asciiDigit {c : Char} (h : c.isDigit = true) : isDigit c = true := by
  unfold isDigit
  rw [if_pos (isAscii_of_isDigit h)]
  exact h

theorem decimalValue?_of_isDigit {c : Char} (h : c.isDigit = true) :
    decimalValue? c = some (c.toNat - '0'.toNat) := by
  unfold decimalValue?
  rw [if_pos (isAscii_of_isDigit h), if_pos h]

/-- Reading ASCII digits is the positional value of the digits. -/
theorem readDigits_eq_ofDigitChars {cs : List Char} (h : ∀ c ∈ cs, c.isDigit = true) (acc : Nat) :
    readDigits acc cs = some (Nat.ofDigitChars 10 cs acc) := by
  induction cs generalizing acc with
  | nil => rfl
  | cons c cs ih =>
    unfold readDigits
    rw [decimalValue?_of_isDigit (h c List.mem_cons_self)]
    simp only
    rw [ih fun d hd => h d (List.mem_cons_of_mem c hd), Nat.mul_comm acc 10]
    rfl

theorem readNatural?_eq_ofDigitChars {cs : List Char} (hne : cs ≠ [])
    (h : ∀ c ∈ cs, c.isDigit = true) : readNatural? cs = some (Nat.ofDigitChars 10 cs 0) := by
  obtain ⟨c, rest, rfl⟩ := List.exists_cons_of_ne_nil hne
  exact readDigits_eq_ofDigitChars h 0

theorem isDigit_of_mem_repr {n : Nat} {c : Char} (h : c ∈ n.repr.toList) : c.isDigit = true := by
  rw [Nat.toList_repr] at h
  exact Nat.isDigit_of_mem_toDigits (by decide) (by decide) h

theorem repr_toList_ne_nil (n : Nat) : n.repr.toList ≠ [] := by
  rw [Nat.toList_repr]
  exact Nat.toDigits_ne_nil

theorem readNatural?_repr (n : Nat) : readNatural? n.repr.toList = some n := by
  rw [readNatural?_eq_ofDigitChars (repr_toList_ne_nil n) fun _ => isDigit_of_mem_repr,
    Nat.toList_repr, Nat.ofDigitChars_ten_toDigits]

/-! ## Integers -/

/-- Digits without a sign are a natural number. -/
theorem readInteger?_of_isDigit {cs : List Char} (h : ∀ c ∈ cs, c.isDigit = true) :
    readInteger? cs = (readNatural? cs).map fun n => (n : Int) := by
  unfold readInteger?
  split
  · exact absurd (h '-' List.mem_cons_self) (by decide)
  · rfl

theorem toList_toString_ofNat (n : Nat) : (toString (n : Int)).toList = n.repr.toList := by
  rw [Int.toString_eq_repr, Int.repr_eq_if, if_pos (Int.natCast_nonneg n), Int.toNat_natCast]

theorem toList_toString_neg {n : Nat} (h : 0 < n) :
    (toString (-(n : Int))).toList = '-' :: n.repr.toList := by
  rw [Int.toString_eq_repr, Int.repr_eq_if, if_neg (by omega), Int.neg_neg, Int.toNat_natCast]
  rw [String.toList_append]
  rfl

/-- A natural number or the negative of a positive one. -/
theorem int_cases (n : Int) : (∃ k : Nat, n = k) ∨ ∃ k : Nat, 0 < k ∧ n = -(k : Int) := by
  by_cases h : 0 ≤ n
  · exact Or.inl ⟨n.toNat, by omega⟩
  · exact Or.inr ⟨n.natAbs, by omega, by omega⟩

/-- A printed integer has digits and at most a minus sign. -/
theorem mem_toString {n : Int} {c : Char} (h : c ∈ (toString n).toList) :
    c = '-' ∨ c.isDigit = true := by
  rcases int_cases n with ⟨k, rfl⟩ | ⟨k, hk, rfl⟩
  · rw [toList_toString_ofNat] at h
    exact Or.inr (isDigit_of_mem_repr h)
  · rw [toList_toString_neg hk] at h
    rcases List.mem_cons.mp h with rfl | h
    · exact Or.inl rfl
    · exact Or.inr (isDigit_of_mem_repr h)

theorem toString_toList_ne_nil (n : Int) : (toString n).toList ≠ [] := by
  rcases int_cases n with ⟨k, rfl⟩ | ⟨k, hk, rfl⟩
  · rw [toList_toString_ofNat]; exact repr_toList_ne_nil k
  · rw [toList_toString_neg hk]; exact List.cons_ne_nil _ _

/-- No character beside the digits and the minus sign is in a printed integer. -/
theorem not_mem_toString {n : Int} {d : Char} (hsign : d ≠ '-') (hdigit : d.isDigit = false) :
    d ∉ (toString n).toList := by
  intro h
  rcases mem_toString h with h | h
  · exact hsign h
  · rw [hdigit] at h
    exact absurd h (by simp)

theorem isBlank_eq_false_of_isDigit {c : Char} (h : c.isDigit = true) : isBlank c = false := by
  cases hb : isBlank c with
  | false => rfl
  | true =>
    have := forall_isBlank (P := fun c => c.isDigit = false) (by decide) hb
    rw [h] at this
    exact absurd this (by simp)

theorem isLineEnd_eq_false_of_isDigit {c : Char} (h : c.isDigit = true) : isLineEnd c = false := by
  cases he : isLineEnd c with
  | false => rfl
  | true =>
    have := isBlank_of_isLineEnd he
    rw [isBlank_eq_false_of_isDigit h] at this
    exact absurd this (by simp)

theorem isBlank_eq_false_of_mem_toString {n : Int} {c : Char} (h : c ∈ (toString n).toList) :
    isBlank c = false := by
  rcases mem_toString h with rfl | h
  · decide
  · exact isBlank_eq_false_of_isDigit h

theorem trim_toString (n : Int) : trim (toString n).toList = (toString n).toList :=
  strip_eq_self (startsOutside_of_all fun _ hc => isBlank_eq_false_of_mem_toString hc)
    (endsOutside_of_all fun _ hc => isBlank_eq_false_of_mem_toString hc)

theorem isDigits_repr (n : Nat) : isDigits n.repr.toList = true := by
  unfold isDigits
  rw [Bool.and_eq_true]
  refine ⟨by simp, List.all_eq_true.mpr fun c hc => ?_⟩
  exact isDigit_of_asciiDigit (isDigit_of_mem_repr hc)

theorem dropWhile_minus_repr (n : Nat) : n.repr.toList.dropWhile (· == '-') = n.repr.toList := by
  apply dropWhile_eq_self_of_startsOutside
  apply startsOutside_of_all
  intro c hc
  have hd := isDigit_of_mem_repr hc
  simp only [beq_eq_false_iff_ne, ne_eq]
  rintro rfl
  exact absurd hd (by decide)

/-- A printed integer looks like a number. -/
theorem looksNumeric_toString (n : Int) : looksNumeric (toString n).toList = true := by
  unfold looksNumeric
  rcases int_cases n with ⟨k, rfl⟩ | ⟨k, hk, rfl⟩
  · rw [toList_toString_ofNat, dropWhile_minus_repr]
    exact isDigits_repr k
  · rw [toList_toString_neg hk, List.dropWhile_cons, if_pos (by decide), dropWhile_minus_repr]
    exact isDigits_repr k

/-- **Every printed integer is read back.** -/
theorem readInteger?_toString (n : Int) : readInteger? (toString n).toList = some n := by
  rcases int_cases n with ⟨k, rfl⟩ | ⟨k, hk, rfl⟩
  · rw [toList_toString_ofNat]
    rw [readInteger?_of_isDigit fun _ => isDigit_of_mem_repr, readNatural?_repr]
    rfl
  · rw [toList_toString_neg hk]
    simp only [readInteger?, readNatural?_repr]
    rfl

theorem readInteger_toString (n : Int) : readInteger (toString n).toList = .ok n := by
  unfold readInteger
  rw [readInteger?_toString]

theorem isDigits_toString {n : Int} (h : 0 ≤ n) : isDigits (toString n).toList = true := by
  obtain ⟨k, rfl⟩ := Int.eq_ofNat_of_zero_le h
  rw [toList_toString_ofNat]
  exact isDigits_repr k

/-! ## Digits in ASCII -/

/-- In ASCII, digits of any style are decimal digits. -/
theorem isDigits_ascii {cs : List Char} (h : isDigits cs = true)
    (hascii : ∀ c ∈ cs, isAscii c = true) : cs ≠ [] ∧ ∀ c ∈ cs, c.isDigit = true := by
  unfold isDigits at h
  rw [Bool.and_eq_true, Bool.not_eq_true', List.isEmpty_eq_false_iff, List.all_eq_true] at h
  refine ⟨h.1, fun c hc => ?_⟩
  have hdigit := h.2 c hc
  unfold isDigit at hdigit
  rwa [if_pos (hascii c hc)] at hdigit

end Crowsfoot.Text
