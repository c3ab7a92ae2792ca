import Crowsfoot.Json.Token
import Crowsfoot.Json.Writer
import Crowsfoot.Proofs.Text.Numerals

/-!
# Written JSON is cut into its tokens

A scanner reads a text one character at a time. `Reads` says that a text gives its tokens whatever
follows it; numbers and literals end only where something follows that is no part of them
(`ReadsBefore`). Texts are put together (`Reads.append`, `ReadsBefore.append`), and the pieces of
what is written are read: blanks and punctuation (`reads_blanks`, `reads_punctuation`), strings of
any characters (`reads_writeString`), and integers of any size (`readsBefore_toString`).
-/

namespace Crowsfoot.Json

open Crowsfoot.Text

/-! ## Texts that are read -/

/-- The characters that end a word. -/
def endsWord (c : Char) : Bool :=
  isJsonBlank c || c == '"' || (punctuation? c).isSome

/-- What follows a word is not part of it. -/
def Apart (rest : List Char) : Prop :=
  ∀ c ∈ rest.head?, endsWord c = true

/-- The tokens of a text before some rest. -/
def ReadsTo (text : List Char) (tokens : List Token) (rest : List Char) : Prop :=
  tokensFrom? .between (text ++ rest) = (tokensFrom? .between rest).map (tokens ++ ·)

/-- The tokens of a text, whatever follows it. -/
def Reads (text : List Char) (tokens : List Token) : Prop :=
  ∀ rest, ReadsTo text tokens rest

/-- The tokens of a text, if what follows is not part of a word at its end. -/
def ReadsBefore (text : List Char) (tokens : List Token) : Prop :=
  ∀ rest, Apart rest → ReadsTo text tokens rest

section Texts

variable {a b : List Char} {ts us : List Token}

theorem Reads.before (h : Reads a ts) : ReadsBefore a ts :=
  fun rest _ => h rest

theorem ReadsTo.append {rest : List Char} (ha : ReadsTo a ts (b ++ rest)) (hb : ReadsTo b us rest) :
    ReadsTo (a ++ b) (ts ++ us) rest := by
  unfold ReadsTo at ha hb ⊢
  rw [List.append_assoc, ha, hb, Option.map_map]
  congr 1
  funext more
  exact (List.append_assoc ts us more).symm

theorem Reads.append (ha : Reads a ts) (hb : Reads b us) : Reads (a ++ b) (ts ++ us) :=
  fun rest => (ha (b ++ rest)).append (hb rest)

/-- What has no tokens may follow. -/
theorem Reads.append_silent (ha : Reads a ts) (hb : Reads b []) : Reads (a ++ b) ts := by
  have hall := ha.append hb
  rwa [List.append_nil] at hall

theorem Reads.append_before (ha : Reads a ts) (hb : ReadsBefore b us) :
    ReadsBefore (a ++ b) (ts ++ us) :=
  fun rest hrest => (ha (b ++ rest)).append (hb rest hrest)

/-- Punctuation after a word ends it. -/
theorem ReadsBefore.append (ha : ReadsBefore a ts) (hb : Reads b us) (hne : b ≠ [])
    (hapart : Apart b) : Reads (a ++ b) (ts ++ us) := by
  intro rest
  refine (ha (b ++ rest) ?_).append (hb rest)
  cases b with
  | nil => exact absurd rfl hne
  | cons c cs => exact hapart

theorem reads_nil : Reads [] [] := by
  intro rest
  unfold ReadsTo
  simp

end Texts

/-! ## Blanks and punctuation -/

/-- A character gives its tokens before those of what follows. -/
theorem tokensFrom?_cons {a b : Lexing} {c : Char} {ts : List Token}
    (h : a.step c = some (ts, b)) (cs : List Char) :
    tokensFrom? a (c :: cs) = (tokensFrom? b cs).map (ts ++ ·) := by
  rw [tokensFrom?, h, Option.bind_eq_bind, Option.bind_some]
  dsimp only
  cases tokensFrom? b cs <;> rfl

theorem tokensFrom?_silent {a b : Lexing} {c : Char} (h : a.step c = some ([], b))
    (cs : List Char) : tokensFrom? a (c :: cs) = tokensFrom? b cs := by
  rw [tokensFrom?_cons h]
  simp

theorem reads_blank {c : Char} (h : isJsonBlank c = true) : Reads [c] [] := by
  intro rest
  refine tokensFrom?_cons (a := .between) (b := .between) ?_ rest
  simp [Lexing.step, Lexing.start, h]

theorem reads_blanks {cs : List Char} (h : ∀ c ∈ cs, isJsonBlank c = true) : Reads cs [] := by
  induction cs with
  | nil => exact reads_nil
  | cons c cs ih =>
    exact (reads_blank (h c List.mem_cons_self)).append
      (ih fun d hd => h d (List.mem_cons_of_mem c hd))

theorem reads_indentation (level : Nat) : Reads (indentation level).toList [] := by
  unfold indentation
  rw [String.toList_ofList]
  exact reads_blanks fun c hc => by rw [List.eq_of_mem_replicate hc]; rfl

theorem reads_punctuation {c : Char} {t : Token} (h : punctuation? c = some t)
    (hblank : isJsonBlank c = false) (hquote : c ≠ '"') : Reads [c] [t] := by
  intro rest
  refine tokensFrom?_cons (a := .between) (b := .between) ?_ rest
  simp [Lexing.step, Lexing.start, h, hblank, hquote]

/-! ## Strings -/

theorem hexValue?_hexDigit {n : Nat} (h : n < 16) : hexValue? (hexDigit n) = some n := by
  have hall : ∀ n < 16, hexValue? (hexDigit n) = some n := by decide
  exact hall n h

/-- A code unit below a hundred is read from its four digits. -/
theorem tokensFrom?_unit {c : Char} (h : c.toNat < 0x100) (read rest : List Char) :
    tokensFrom? (.unit read none 0 0) (hexDigits 4 c.toNat ++ rest)
      = tokensFrom? (.string (c :: read)) rest := by
  have hzero : c.toNat / 16 / 16 = 0 := by omega
  have hdigits : hexDigits 4 c.toNat
      = [hexDigit 0, hexDigit 0, hexDigit (c.toNat / 16 % 16), hexDigit (c.toNat % 16)] := by
    simp [hexDigits, hzero]
  have hvalue : c.toNat / 16 % 16 * 16 + c.toNat % 16 = c.toNat := by omega
  have hhigh : isHighSurrogate c.toNat = false := by
    unfold isHighSurrogate
    rw [decide_eq_false_iff_not]
    omega
  have hlow : isLowSurrogate c.toNat = false := by
    unfold isLowSurrogate
    rw [decide_eq_false_iff_not]
    omega
  rw [hdigits]
  simp only [List.cons_append, List.nil_append]
  rw [tokensFrom?_silent (b := .unit read none 1 0) (by simp [Lexing.step, hexValue?_hexDigit]),
    tokensFrom?_silent (b := .unit read none 2 0) (by simp [Lexing.step, hexValue?_hexDigit]),
    tokensFrom?_silent (b := .unit read none 3 (c.toNat / 16 % 16))
      (by simp [Lexing.step, hexValue?_hexDigit, Nat.mod_lt]),
    tokensFrom?_silent (b := .string (c :: read))]
  simp [Lexing.step, hexValue?_hexDigit, Nat.mod_lt, hvalue, afterUnit, hhigh, hlow,
    Char.ofNat_toNat]

/-- **A written character is read back.** -/
theorem tokensFrom?_writeChar (c : Char) (read rest : List Char) :
    tokensFrom? (.string read) (writeChar c ++ rest) = tokensFrom? (.string (c :: read)) rest := by
  have hescape : Lexing.step (.string read) '\\' = some ([], .escape read) := rfl
  -- a short escape is a backslash and a letter
  have hshort : ∀ letter, shortEscape? letter = some c → letter ≠ 'u' →
      tokensFrom? (.string read) (['\\', letter] ++ rest)
        = tokensFrom? (.string (c :: read)) rest := by
    intro letter hletter hunit
    rw [List.cons_append, List.singleton_append, tokensFrom?_silent hescape,
      tokensFrom?_silent (b := .string (c :: read))]
    simp [Lexing.step, hunit, hletter]
  unfold writeChar
  split_ifs with hquote hfeed hreturn htab hback hform hcontrol
  · simp only [Bool.or_eq_true, decide_eq_true_eq] at hquote
    rcases hquote with rfl | rfl
    · exact hshort '"' rfl (by decide)
    · exact hshort '\\' rfl (by decide)
  · exact hshort 'n' (by rw [hfeed]; rfl) (by decide)
  · exact hshort 'r' (by rw [hreturn]; rfl) (by decide)
  · exact hshort 't' (by rw [htab]; rfl) (by decide)
  · exact hshort 'b' (by rw [← Char.ofNat_toNat c, hback]; rfl) (by decide)
  · exact hshort 'f' (by rw [← Char.ofNat_toNat c, hform]; rfl) (by decide)
  · rw [List.cons_append, List.cons_append, tokensFrom?_silent hescape,
      tokensFrom?_silent (b := .unit read none 0 0) (by simp [Lexing.step])]
    exact tokensFrom?_unit (by omega) read rest
  · simp only [Bool.or_eq_true, decide_eq_true_eq, not_or] at hquote
    rw [List.singleton_append, tokensFrom?_silent]
    simp [Lexing.step, hquote, hcontrol]

theorem tokensFrom?_writeChars (cs read rest : List Char) :
    tokensFrom? (.string read) (cs.flatMap writeChar ++ rest)
      = tokensFrom? (.string (cs.reverse ++ read)) rest := by
  induction cs generalizing read with
  | nil => rfl
  | cons c cs ih =>
    rw [List.flatMap_cons, List.append_assoc, tokensFrom?_writeChar, ih, List.reverse_cons,
      List.append_assoc, List.singleton_append]

/-- **A written string is one token**, whatever its characters. -/
theorem reads_writeString (s : String) : Reads (writeString s).toList [.str s] := by
  intro rest
  have hend : Lexing.step (.string (s.toList.reverse ++ [])) '"' = some ([.str s], .between) := by
    simp [Lexing.step, String.ofList_toList]
  unfold ReadsTo writeString
  rw [String.toList_ofList, List.cons_append, List.cons_append, List.append_assoc,
    List.singleton_append, tokensFrom?_silent (a := .between) (b := .string []) rfl,
    tokensFrom?_writeChars, tokensFrom?_cons hend]

/-! ## Words -/

theorem tokensFrom?_word {word : List Char} (h : ∀ c ∈ word, endsWord c = false)
    (read rest : List Char) :
    tokensFrom? (.word read) (word ++ rest) = tokensFrom? (.word (word.reverse ++ read)) rest := by
  induction word generalizing read with
  | nil => rfl
  | cons c word ih =>
    have hc := h c List.mem_cons_self
    unfold endsWord at hc
    rw [List.cons_append, tokensFrom?_silent (b := .word (c :: read)),
      ih fun d hd => h d (List.mem_cons_of_mem c hd), List.reverse_cons, List.append_assoc,
      List.singleton_append]
    simp only [Bool.or_eq_false_iff, beq_eq_false_iff_ne] at hc
    simp [Lexing.step, hc]

/-- The end of a word gives its value. -/
theorem tokensFrom?_wordEnd {read rest : List Char} {v : Json} (hword : word? read.reverse = some v)
    (hrest : Apart rest) :
    tokensFrom? (.word read) rest = (tokensFrom? .between rest).map (.scalar v :: ·) := by
  cases rest with
  | nil => simp [tokensFrom?, hword]
  | cons c cs =>
    have hc : endsWord c = true := hrest c rfl
    unfold endsWord at hc
    have hstart : Lexing.step .between c = some (Lexing.start c) := rfl
    have hstep : Lexing.step (.word read) c
        = some (.scalar v :: (Lexing.start c).1, (Lexing.start c).2) := by
      simp only [Bool.or_eq_true, beq_iff_eq, or_assoc] at hc
      simp [Lexing.step, hc, or_assoc, hword]
    rw [tokensFrom?_cons hstep, tokensFrom?_cons hstart, Option.map_map]
    rfl

/-- **A word is one token**, if it has a value. -/
theorem readsBefore_word {w : List Char} {v : Json} (hword : word? w = some v)
    (hne : w ≠ []) (h : ∀ c ∈ w, endsWord c = false) : ReadsBefore w [.scalar v] := by
  intro rest hrest
  cases w with
  | nil => exact absurd rfl hne
  | cons c cs =>
    have hc := h c List.mem_cons_self
    unfold endsWord at hc
    simp only [Bool.or_eq_false_iff, beq_eq_false_iff_ne, Option.isSome_eq_false_iff,
      Option.isNone_iff_eq_none] at hc
    have hstep : Lexing.step .between c = some ([], .word [c]) := by
      simp [Lexing.step, Lexing.start, hc]
    unfold ReadsTo
    rw [List.cons_append, tokensFrom?_silent hstep,
      tokensFrom?_word fun d hd => h d (List.mem_cons_of_mem c hd)]
    apply tokensFrom?_wordEnd ?_ hrest
    rw [List.reverse_append, List.reverse_reverse]
    exact hword

/-! ## Numbers -/

theorem digitsValue_eq (cs : List Char) : digitsValue cs = Nat.ofDigitChars 10 cs 0 := by
  unfold digitsValue Nat.ofDigitChars
  congr 1
  funext n c
  rw [Nat.mul_comm]

/-- A printed natural number has no leading zero. -/
theorem head?_repr {n : Nat} (h : n.repr.toList.head? = some '0') : n.repr.toList.length = 1 := by
  rw [Nat.toList_repr] at h ⊢
  -- the first digit is that of the number without its last digit
  have hall : ∀ n, 0 < n → (Nat.toDigits 10 n).head? ≠ some '0' := by
    intro n
    induction n using Nat.strongRecOn with
    | ind n ih =>
      intro hpos
      by_cases hsmall : n < 10
      · have hdigits : ∀ n < 10, 0 < n → ([n.digitChar] : List Char).head? ≠ some '0' := by decide
        rw [Nat.toDigits_of_lt_base hsmall]
        exact hdigits n hsmall hpos
      · rw [Nat.toDigits_of_base_le (by decide) (by omega),
          List.head?_append_of_ne_nil _ Nat.toDigits_ne_nil]
        exact ih (n / 10) (by omega) (by omega)
  by_cases hpos : 0 < n
  · exact absurd h (hall n hpos)
  · rw [Nat.toDigits_of_lt_base (by omega)]
    rfl

theorem unsignedNumber?_repr (negative : Bool) (n : Nat) :
    unsignedNumber? negative n.repr.toList
      = some (.int (if negative then -(n : Int) else n)) := by
  have hall : ∀ c ∈ n.repr.toList, c.isDigit = true := fun c hc => isDigit_of_mem_repr hc
  have hdigits : digits n.repr.toList = (n.repr.toList, []) := by
    unfold digits
    have htake := takeWhile_run hall (startsOutside_nil (p := Char.isDigit))
    have hdrop := dropWhile_run hall (startsOutside_nil (p := Char.isDigit))
    rw [List.append_nil] at htake hdrop
    rw [htake, hdrop]
  have hvalue : digitsValue n.repr.toList = n := by
    rw [digitsValue_eq, Nat.toList_repr, Nat.ofDigitChars_ten_toDigits]
  have hlead : (n.repr.toList.isEmpty
      || (n.repr.toList.head? == some '0' && n.repr.toList.length != 1)) = false := by
    rw [Bool.or_eq_false_iff, Bool.and_eq_false_iff]
    refine ⟨by simp, ?_⟩
    by_cases hzero : n.repr.toList.head? = some '0'
    · exact Or.inr (by rw [head?_repr hzero]; rfl)
    · exact Or.inl (by simpa using hzero)
  unfold unsignedNumber?
  simp only [hdigits, hlead, hvalue, Bool.false_eq_true, if_false, List.isEmpty_nil, if_true]

/-- A text with a character that no number has is no printed integer. -/
theorem toString_ne {n : Int} {s : String} {d : Char} (hmem : d ∈ s.toList) (hsign : d ≠ '-')
    (hdigit : d.isDigit = false) : toString n ≠ s := by
  rintro rfl
  exact not_mem_toString hsign hdigit hmem

/-- **A printed integer is a word of its own value**, however large it is. -/
theorem word?_toString (n : Int) : word? (toString n).toList = some (.int n) := by
  unfold word?
  rw [String.ofList_toList]
  split
  · rename_i h; exact absurd h (toString_ne (d := 'n') (by decide) (by decide) rfl)
  · rename_i h; exact absurd h (toString_ne (d := 't') (by decide) (by decide) rfl)
  · rename_i h; exact absurd h (toString_ne (d := 'f') (by decide) (by decide) rfl)
  · rename_i h; exact absurd h (toString_ne (d := 'N') (by decide) (by decide) rfl)
  · rename_i h; exact absurd h (toString_ne (d := 'I') (by decide) (by decide) rfl)
  · rename_i h; exact absurd h (toString_ne (d := 'I') (by decide) (by decide) rfl)
  · rcases int_cases n with ⟨k, rfl⟩ | ⟨k, hk, rfl⟩
    · rw [toList_toString_ofNat]
      split
      · rename_i heq
        exact absurd (isDigit_of_mem_repr (n := k) (heq ▸ List.mem_cons_self)) (by decide)
      · exact unsignedNumber?_repr false k
    · rw [toList_toString_neg hk]
      exact unsignedNumber?_repr true k

/-- No character of a number ends a word. -/
theorem endsWord_eq_false_of_number {c : Char} (h : c = '-' ∨ c.isDigit = true) :
    endsWord c = false := by
  have hall : ∀ k < 10, endsWord (Char.ofNat (48 + k)) = false := by decide
  rcases h with rfl | h
  · rfl
  · have hlow : 48 ≤ c.toNat ∧ c.toNat ≤ 57 := by
      simp only [Char.isDigit, Bool.and_eq_true, decide_eq_true_eq] at h
      exact ⟨UInt32.le_iff_toNat_le.mp h.1, UInt32.le_iff_toNat_le.mp h.2⟩
    have hc := hall (c.toNat - 48) (by omega)
    rwa [Nat.add_sub_cancel' hlow.1, Char.ofNat_toNat] at hc

theorem readsBefore_toString (n : Int) : ReadsBefore (toString n).toList [.scalar (.int n)] :=
  readsBefore_word (word?_toString n) (toString_toList_ne_nil n)
    fun _ hc => endsWord_eq_false_of_number (mem_toString hc)

end Crowsfoot.Json
