import Crowsfoot.Proofs.Builder.Values

/-!
# How reading builder code fails

Unbalanced brackets, open literals, blank arguments and unknown calls are no errors. The one error
there is names a token that looks like a number and is none, and this token stands in the text that
is read (`Blames`): `blames_of_parse` for an argument, `blames_of_parseAll` for the arguments of a
call and `blames_of_chain` for a statement. They rest on the fact that whatever a scanner cuts out
of a text stands in the text (`infix_strip`, `infix_of_mem_splitAt`, `infix_of_mem_links`).

`not_blames` says what it takes in ASCII: two minus signs before a digit.
-/

namespace Crowsfoot.Builder

open Crowsfoot.Text

/-! ## What scanners cut out -/

theorem infix_strip (p : Char → Bool) (cs : List Char) : strip p cs <:+: cs := by
  have hright : strip p cs <+: cs.dropWhile p := by
    have hdropped := List.dropWhile_suffix (l := (cs.dropWhile p).reverse) p
    have hback := List.reverse_prefix.mpr hdropped
    rwa [List.reverse_reverse] at hback
  exact hright.isInfix.trans (List.dropWhile_suffix p).isInfix

theorem infix_joinWith {sep p : List Char} {ps : List (List Char)} (h : p ∈ ps) :
    p <:+: joinWith sep ps := by
  induction ps with
  | nil => exact absurd h (by simp)
  | cons q ps ih =>
    cases ps with
    | nil =>
      rw [List.mem_singleton.mp h]
      exact List.infix_rfl
    | cons r rs =>
      rcases List.mem_cons.mp h with rfl | h
      · exact ⟨[], sep ++ joinWith sep (r :: rs), by simp [joinWith]⟩
      · exact (ih h).trans ⟨q ++ sep, [], by simp [joinWith]⟩

theorem infix_of_mem_splitAt {sep : Char} {p cs : List Char} (h : p ∈ splitAt sep cs) : p <:+: cs := by
  have hjoined := @infix_joinWith [sep] _ _ h
  rwa [joinWith_splitAt] at hjoined

/-- The arguments of a link stand in the text, and what follows the link ends it. -/
theorem infix_of_link? {cs rest : List Char} {method raw : String}
    (h : link? cs = some (method, raw, rest)) : raw.toList <:+: cs ∧ rest <:+ cs := by
  unfold link? at h
  split at h
  · rename_i named hnamed
    dsimp only at h
    split at h
    · rename_i opened hopened
      split at h
      · exact nomatch h
      · obtain ⟨⟨inside, after⟩, hgroup, he⟩ := Option.map_eq_some_iff.mp h
        obtain ⟨closer, hsplit⟩ := group_eq hgroup
        obtain ⟨-, rfl, rfl⟩ : _ ∧ String.ofList inside = raw ∧ after = rest := by simpa using he
        have hopening : '(' :: opened <:+ named := by
          rw [← hopened]
          exact (List.dropWhile_suffix isBlank).trans (List.dropWhile_suffix isWord)
        have hnaming : '-' :: '>' :: named <:+ cs := by
          rw [← hnamed]
          exact List.dropWhile_suffix isBlank
        have hinside : opened <:+ cs :=
          ((List.suffix_cons '(' opened).trans hopening).trans
            (((List.suffix_cons '>' named).trans (List.suffix_cons '-' _)).trans hnaming)
        rw [hsplit] at hinside
        rw [String.toList_ofList]
        exact ⟨(List.prefix_append inside _).isInfix.trans hinside.isInfix,
          ((List.suffix_cons closer after).trans (List.suffix_append inside _)).trans hinside⟩
    · exact nomatch h
  · exact nomatch h

theorem infix_of_mem_links {cs : List Char} :
    ∀ link ∈ links cs, link.2.toList <:+: cs := by
  induction cs using links.induct with
  | case1 cs method raw rest hlink _ ih =>
    obtain ⟨hraw, hrest⟩ := infix_of_link? hlink
    intro link h
    rw [links] at h
    split at h
    · rename_i method' raw' rest' hlink'
      rw [hlink] at hlink'
      cases hlink'
      rcases List.mem_cons.mp h with rfl | h
      · exact hraw
      · exact (ih link h).trans hrest.isInfix
    · exact absurd h (by simp)
  | case2 cs hlink =>
    intro link h
    rw [links] at h
    split at h
    · rename_i hlink'
      rw [hlink] at hlink'
      exact nomatch hlink'
    · exact absurd h (by simp)

/-! ## Whom an error blames -/

/-- An error blames a token of the text that looks like a number and is none. -/
def Blames (cs : List Char) : ReadError → Prop
  | .badInteger token =>
    token.toList <:+: cs ∧ looksNumeric token.toList = true ∧ readInteger? token.toList = none

theorem Blames.mono {part cs : List Char} {e : ReadError} (h : Blames part e)
    (hpart : part <:+: cs) : Blames cs e := by
  obtain ⟨token⟩ := e
  exact ⟨h.1.trans hpart, h.2⟩

theorem blames_of_readInteger {cs : List Char} {e : ReadError} (hlooks : looksNumeric cs = true)
    (h : readInteger cs = .error e) : Blames cs e := by
  unfold readInteger at h
  split at h
  · exact nomatch h
  · rename_i hnone
    rw [← Except.error.inj h]
    simp only [Blames, String.toList_ofList]
    exact ⟨List.infix_rfl, hlooks, hnone⟩

/-- **An argument** is read, or it has a token to blame in it. -/
theorem blames_of_parse {token : List Char} {e : ReadError} (h : Argument.parse token = .error e) :
    Blames token e := by
  induction hlength : token.length using Nat.strongRecOn generalizing token e with
  | ind n ih =>
    subst hlength
    rw [Argument.parse_eq] at h
    cases htrim : trim token with
    | nil =>
      rw [htrim] at h
      exact nomatch h
    | cons first more =>
      have hinside : first :: more <:+: token := htrim ▸ infix_strip isBlank token
      rw [htrim] at h
      dsimp only at h
      split at h
      · exact nomatch h
      · split at h
        · -- a list: one of its items cannot be read, and it is shorter for want of the brackets
          obtain ⟨item, hitem, he⟩ := exists_of_mapM_eq_error (map_eq_error.mp h)
          have hpiece : item <:+: more.dropLast := infix_of_mem_splitAt (List.mem_of_mem_filter hitem)
          have hmore : item <:+: more := hpiece.trans (List.dropLast_prefix more).isInfix
          have hshorter : item.length < token.length := by
            have hitemLength := hmore.length_le
            have htokenLength := hinside.length_le
            rw [List.length_cons] at htokenLength
            omega
          exact (ih item.length hshorter he rfl).mono
            ((hmore.trans (List.suffix_cons first more).isInfix).trans hinside)
        · split at h
          · rename_i hlooks
            exact (blames_of_readInteger hlooks (map_eq_error.mp h)).mono hinside
          · exact nomatch h

theorem blames_of_parseAll {raw : List Char} {e : ReadError}
    (h : Argument.parseAll raw = .error e) : Blames raw e := by
  unfold Argument.parseAll at h
  split at h
  · exact nomatch h
  · obtain ⟨token, htoken, he⟩ := exists_of_mapM_eq_error h
    exact (blames_of_parse he).mono (infix_of_mem_splitAt htoken)

/-- **A statement** is read, or it has a token to blame in it. -/
theorem blames_of_chain {statement : List Char} {e : ReadError} (h : chain statement = .error e) :
    Blames statement e := by
  unfold chain at h
  split at h
  · rename_i rest htrim
    obtain ⟨⟨method, raw⟩, hlink, he⟩ := exists_of_mapM_eq_error h
    have hrest : rest.dropWhile isWord <:+: statement := by
      have hvariable : '$' :: rest <:+: statement := htrim ▸ infix_strip isBlank statement
      exact ((List.dropWhile_suffix isWord).trans (List.suffix_cons '$' rest)).isInfix.trans
        hvariable
    rcases bind_eq_error.mp he with hread | ⟨arguments, -, he⟩
    · exact (blames_of_parseAll hread).mono ((infix_of_mem_links _ hlink).trans hrest)
    · exact nomatch he
  · exact nomatch h

/-! ## Minus signs -/

/-- Nowhere do two minus signs stand before a digit. -/
def SignsApart (cs : List Char) : Prop :=
  ∀ d ∈ cs, d.isDigit = true → ¬ ['-', '-', d] <:+: cs

instance (cs : List Char) : Decidable (SignsApart cs) :=
  inferInstanceAs (Decidable (∀ d ∈ cs, _))

theorem SignsApart.mono {part cs : List Char} (h : SignsApart cs) (hpart : part <:+: cs) :
    SignsApart part :=
  fun d hd hdigit hsigns => h d (hpart.subset hd) hdigit (hsigns.trans hpart)

/-- **In ASCII, what looks like a number is one**, unless two minus signs stand before a digit. -/
theorem readInteger?_of_looksNumeric {cs : List Char} (hascii : ∀ c ∈ cs, isAscii c = true)
    (hapart : SignsApart cs) (hlooks : looksNumeric cs = true) :
    ∃ n, readInteger? cs = some n := by
  have hsplit : cs.takeWhile (· == '-') ++ cs.dropWhile (· == '-') = cs :=
    List.takeWhile_append_dropWhile
  have hsigns : ∀ c ∈ cs.takeWhile (· == '-'), c = '-' := fun c hc =>
    beq_iff_eq.mp (List.all_eq_true.mp List.all_takeWhile c hc)
  unfold looksNumeric at hlooks
  generalize cs.takeWhile (· == '-') = signs at hsplit hsigns
  generalize cs.dropWhile (· == '-') = digits at hsplit hlooks
  subst hsplit
  obtain ⟨hne, hdigits⟩ := isDigits_ascii hlooks
    fun c hc => hascii c (List.mem_append_right signs hc)
  have hread := readNatural?_eq_ofDigitChars hne hdigits
  match signs, hsigns with
  | [], _ => exact ⟨_, by rw [List.nil_append, readInteger?_of_isDigit hdigits, hread]; rfl⟩
  | [sign], hsigns =>
    rw [hsigns sign List.mem_cons_self]
    exact ⟨_, by rw [List.singleton_append, readInteger?, hread]; rfl⟩
  | first :: second :: more, hsigns =>
    -- the last two of the signs stand before the first digit
    obtain ⟨d, ds, rfl⟩ := List.exists_cons_of_ne_nil hne
    have hall : first :: second :: more = List.replicate more.length '-' ++ ['-', '-'] := by
      rw [List.eq_replicate_of_mem hsigns]
      exact List.replicate_add more.length 2 '-'
    have hd := hdigits d List.mem_cons_self
    exact absurd ⟨List.replicate more.length '-', ds, by rw [hall]; simp⟩
      (hapart d (List.mem_append_right _ List.mem_cons_self) hd)

/-- In ASCII without two minus signs before a digit there is nothing to blame. -/
theorem not_blames {cs : List Char} (hascii : ∀ c ∈ cs, isAscii c = true) (hapart : SignsApart cs)
    (e : ReadError) : ¬ Blames cs e := by
  obtain ⟨token⟩ := e
  rintro ⟨htoken, hlooks, hnone⟩
  obtain ⟨n, hn⟩ := readInteger?_of_looksNumeric (fun c hc => hascii c (htoken.subset hc))
    (hapart.mono htoken) hlooks
  rw [hn] at hnone
  exact nomatch hnone

end Crowsfoot.Builder
