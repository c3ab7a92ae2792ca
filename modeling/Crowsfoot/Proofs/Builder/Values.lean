import Crowsfoot.Builder.Call
import Crowsfoot.Proofs.Builder.Code
import Crowsfoot.Proofs.Fallible
import Crowsfoot.Proofs.Text.Numerals

/-!
# Written arguments and calls are read back

Generated code passes strings, integers and lists of strings (`Value`) in chains of calls (`Link`).
`parseAll_write` reads the values of a call back, and `chain_write` the calls of a chain. Both rest
on the fact that a value is code without a comma (`Value.code`), so that the commas between the
values are the only ones that separate.
-/

namespace Crowsfoot.Builder

open Crowsfoot.Text

/-! ## Values -/

/-- What generated code passes to a method. -/
inductive Value where
  | text (s : String)
  | int (n : Int)
  | texts (ss : List String)
  deriving Repr, DecidableEq

namespace Value

/-- A value in generated code. -/
def write : Value → String
  | text s => Argument.literal s
  | int n => toString n
  | texts ss => "[" ++ commaList (ss.map Argument.literal) ++ "]"

/-- The argument that a value is read as. -/
def argument : Value → Argument
  | text s => .text s
  | int n => .int n
  | texts ss => .list (ss.map .text)

/-- The strings in a value. -/
def strings : Value → List String
  | text s => [s]
  | int _ => []
  | texts ss => ss

end Value

/-! ## Reading one argument -/

theorem unescape_cons {c : Char} (h : c ≠ '\\') (cs : List Char) :
    Argument.unescape (c :: cs) = c :: Argument.unescape cs := by
  rw [Argument.unescape]
  · rintro rfl -
    exact absurd rfl h
  · rintro d ds rfl -
    exact absurd rfl h

theorem unescape_escaped (cs : List Char) : Argument.unescape (escaped cs) = cs := by
  induction cs with
  | nil => rfl
  | cons c cs ih =>
    rcases escaped_cons c cs with ⟨h, -⟩ | ⟨h, hslash, -⟩
    · rw [h, Argument.unescape, ih]
    · rw [h, unescape_cons hslash, ih]

/-- What an argument is, by its trimmed text. -/
theorem Argument.parse_eq (token : List Char) :
    Argument.parse token = match trim token with
      | [] => .ok .missing
      | first :: more =>
        if isQuote first && (first :: more).getLast (List.cons_ne_nil _ _) == first && !more.isEmpty then
          .ok (.text (String.ofList (Argument.unescape more.dropLast)))
        else if first = '[' && (first :: more).getLast (List.cons_ne_nil _ _) == ']' then
          (((splitAt ',' more.dropLast).filter fun item => !item.all isBlank).mapM
            Argument.parse).map Argument.list
        else if looksNumeric (first :: more) then
          (readInteger (first :: more)).map Argument.int
        else .ok (.bare (String.ofList (first :: more))) := by
  have hitems : ∀ cs : List Char,
      ((splitAt ',' cs).attach.filter fun item => !item.1.all isBlank).mapM
          (fun item => Argument.parse item.1)
        = ((splitAt ',' cs).filter fun item => !item.all isBlank).mapM Argument.parse := by
    intro cs
    have hvals : (splitAt ',' cs).filter (fun item => !item.all isBlank)
        = ((splitAt ',' cs).attach.filter fun item => !item.1.all isBlank).map Subtype.val := by
      conv => lhs; rw [← List.attach_map_subtype_val (splitAt ',' cs)]
      rw [List.filter_map]
      rfl
    rw [hvals, List.mapM_map]
    rfl
  rw [Argument.parse]
  split
  · rename_i h
    rw [h]
  · rename_i first more h
    rw [h]
    dsimp only
    rw [hitems]
    rfl

/-- A literal in quotes of either kind stands for a string. -/
def Spells (text s : String) : Prop :=
  ∃ quote inside, IsLiteral quote inside text.toList ∧ s = String.ofList (Argument.unescape inside)

theorem spells_literal (s : String) : Spells (Argument.literal s) s := by
  refine ⟨'\'', escaped s.toList, isLiteral_literal s, ?_⟩
  rw [unescape_escaped, String.ofList_toList]

namespace Spells

variable {text s : String} (h : Spells text s)
include h

theorem trim : trim text.toList = text.toList := by
  obtain ⟨quote, inside, ⟨hquote, -, -, htext⟩, -⟩ := h
  have hblank : isBlank quote = false := by
    rcases cases_quote hquote with rfl | rfl <;> decide
  rw [htext]
  exact strip_eq_self (startsOutside_cons.mpr hblank)
    ((endsOutside_append_singleton (quote :: inside)).mpr hblank)

theorem parse {token : List Char} (htoken : Text.trim token = text.toList) :
    Argument.parse token = .ok (.text s) := by
  obtain ⟨quote, inside, ⟨hquote, -, -, htext⟩, rfl⟩ := h
  have hlast : (quote :: (inside ++ [quote])).getLast (List.cons_ne_nil _ _) = quote :=
    List.getLast_concat (l := quote :: inside)
  have hmore : (inside ++ [quote]).isEmpty = false := by simp
  have hcond : (isQuote quote && (quote :: (inside ++ [quote])).getLast
      (List.cons_ne_nil _ _) == quote && !(inside ++ [quote]).isEmpty) = true := by
    rw [hlast, hmore, hquote, beq_self_eq_true]
    rfl
  rw [Argument.parse_eq, htoken, htext]
  dsimp only
  rw [if_pos hcond, List.dropLast_concat]

end Spells

theorem parse_toString {token : List Char} {n : Int} (h : trim token = (toString n).toList) :
    Argument.parse token = .ok (.int n) := by
  obtain ⟨first, more, hcons⟩ := List.exists_cons_of_ne_nil (toString_toList_ne_nil n)
  have hfirst : first ∈ (toString n).toList := by
    rw [hcons]
    exact List.mem_cons_self
  have hquote : isQuote first = false := by
    have hsingle : first ≠ '\'' := fun he => not_mem_toString (by decide) (by decide) (he ▸ hfirst)
    have hdouble : first ≠ '"' := fun he => not_mem_toString (by decide) (by decide) (he ▸ hfirst)
    simp [isQuote, hsingle, hdouble]
  have hbracket : first ≠ '[' := fun he => not_mem_toString (by decide) (by decide) (he ▸ hfirst)
  have hnumeric := looksNumeric_toString n
  have hread := readInteger_toString n
  rw [hcons] at hnumeric hread
  rw [Argument.parse_eq, h, hcons]
  simp only [hquote, hbracket, hnumeric, hread, Bool.false_and, decide_false, Bool.false_eq_true,
    if_false, if_true]
  rfl

/-! ## Values as code -/

/-- What holds of the strings and of what is between them. -/
theorem commaList_induction {P : List Char → Prop} (nil : P [])
    (append : ∀ {cs ds : List Char}, P cs → P ds → P (cs ++ ds)) (comma : P ", ".toList)
    {ss : List String} (h : ∀ s ∈ ss, P s.toList) : P (commaList ss).toList := by
  unfold commaList
  induction ss with
  | nil => exact nil
  | cons s ss ih =>
    have hs := h s List.mem_cons_self
    cases ss with
    | nil => simpa using hs
    | cons t ss =>
      rw [String.toList_intercalate, List.map_cons, List.map_cons, List.intercalate_cons_cons,
        ← List.map_cons, ← String.toList_intercalate]
      exact append (append hs comma) (ih fun u hu => h u (List.mem_cons_of_mem s hu))

section Code

variable {held : String → Prop}

theorem code_literal {p : Char → Bool} {s : String} (h : held s) :
    Code held p (Argument.literal s).toList := by
  have := Code.literal (p := p) h .nil
  rwa [List.append_nil] at this

theorem isPlain_of_mem_toString {n : Int} {c : Char} (h : c ∈ (toString n).toList) :
    isPlain c = true := by
  have hne : ∀ d : Char, d ≠ '-' → d.isDigit = false → c ≠ d :=
    fun d hs hd he => not_mem_toString hs hd (he ▸ h)
  have hquotes : isQuote c = false := by
    simp [isQuote, hne '\'' (by decide) (by decide), hne '"' (by decide) (by decide)]
  have hdepth : depthStep c = 0 := by
    simp [depthStep, hne '(' (by decide) (by decide), hne '[' (by decide) (by decide),
      hne '\x7b' (by decide) (by decide), hne ')' (by decide) (by decide),
      hne ']' (by decide) (by decide), hne '\x7d' (by decide) (by decide)]
  simp [isPlain, hquotes, hdepth, hne '/' (by decide) (by decide), hne '#' (by decide) (by decide),
    hne ':' (by decide) (by decide)]

/-- Code between commas and blanks. -/
theorem code_commaList {ss : List String} (h : ∀ s ∈ ss, Code held isPlain s.toList) :
    Code held isPlain (commaList ss).toList :=
  commaList_induction .nil Code.append (Code.of_all (by decide)) h

/-- **A value is code without a comma** outside its brackets and literals. -/
theorem Value.code {v : Value} (h : ∀ s ∈ v.strings, held s) :
    Code held (plainBut ',') v.write.toList := by
  cases v with
  | text s => exact code_literal (h s (by simp [strings]))
  | int n =>
    apply Code.of_all
    intro c hc
    have hcomma : c ≠ ',' := fun he => not_mem_toString (by decide) (by decide) (he ▸ hc)
    rw [plainBut, isPlain_of_mem_toString hc]
    simpa using hcomma
  | texts ss =>
    have hinside : Code held isPlain (commaList (ss.map Argument.literal)).toList := by
      apply code_commaList
      intro t ht
      obtain ⟨s, hs, rfl⟩ := List.mem_map.mp ht
      exact code_literal (h s hs)
    have hlist : (write (.texts ss)).toList
        = '[' :: ((commaList (ss.map Argument.literal)).toList ++ [']']) := by
      simp [write]
    rw [hlist]
    exact .brackets rfl hinside .nil

end Code

/-! ## Reading lists -/

/-- A text that is read as an argument, with or without blanks around it. -/
structure WrittenAs (s : String) (a : Argument) : Prop where
  inert : Inert ',' 0 s.toList
  trimmed : trim s.toList = s.toList
  nonempty : s.toList ≠ []
  parse : ∀ token, trim token = s.toList → Argument.parse token = .ok a

section Lists

variable {α : Type} {f : α → String} {g : α → Argument}

/-- The pieces between the commas of a list; each but the first has a blank before it. -/
theorem splitAt_commaList {x : α} {xs : List α}
    (h : ∀ y ∈ x :: xs, Inert ',' 0 (f y).toList) {lead : List Char} (hlead : Inert ',' 0 lead) :
    splitAt ',' (lead ++ (commaList ((x :: xs).map f)).toList)
      = (lead ++ (f x).toList) :: xs.map fun y => ' ' :: (f y).toList := by
  induction xs generalizing x lead with
  | nil =>
    have hone : (commaList ([x].map f)).toList = (f x).toList := by simp [commaList]
    rw [hone]
    exact (hlead.append (h x List.mem_cons_self)).splitAt_self
  | cons y ys ih =>
    have hlist : (commaList ((x :: y :: ys).map f)).toList
        = (f x).toList ++ ',' :: ([' '] ++ (commaList ((y :: ys).map f)).toList) := by
      unfold commaList
      rw [List.map_cons, List.map_cons, String.toList_intercalate, String.toList_intercalate,
        List.map_cons, List.map_cons, List.intercalate_cons_cons]
      simp
    rw [hlist, ← List.append_assoc,
      (hlead.append (h x List.mem_cons_self)).splitAt_sep (by decide),
      ih (fun z hz => h z (List.mem_cons_of_mem x hz)) (.of_all (by decide) fun _ => by decide)]
    rfl

theorem mapM_parse_pieces {x : α} {xs : List α} (h : ∀ y ∈ x :: xs, WrittenAs (f y) (g y)) :
    ((f x).toList :: xs.map fun y => ' ' :: (f y).toList).mapM Argument.parse
      = .ok ((x :: xs).map g) := by
  have hfirst : Argument.parse (f x).toList = .ok (g x) :=
    (h x List.mem_cons_self).parse _ (h x List.mem_cons_self).trimmed
  have hrest : (xs.map fun y => ' ' :: (f y).toList).mapM Argument.parse = .ok (xs.map g) := by
    rw [List.mapM_map]
    apply mapM_eq_ok
    intro y hy
    have hw := h y (List.mem_cons_of_mem x hy)
    exact hw.parse _ ((trim_cons_space _).trans hw.trimmed)
  rw [List.mapM_cons, hfirst, hrest]
  rfl

/-- A text that is read as an argument is not blank. -/
theorem WrittenAs.not_blank {s : String} {a : Argument} (h : WrittenAs s a) {cs : List Char}
    (hcs : ∀ c ∈ s.toList, c ∈ cs) : cs.all isBlank = false := by
  cases hall : cs.all isBlank with
  | false => rfl
  | true =>
    have hblank : ∀ c ∈ s.toList, isBlank c = true :=
      fun c hc => List.all_eq_true.mp hall c (hcs c hc)
    exact absurd (h.trimmed.symm.trans (strip_eq_nil hblank)) h.nonempty

/-- **A list of arguments** is read back. -/
theorem parseAll_commaList {xs : List α} (h : ∀ y ∈ xs, WrittenAs (f y) (g y)) :
    Argument.parseAll (commaList (xs.map f)).toList = .ok (xs.map g) := by
  cases xs with
  | nil => rfl
  | cons x xs =>
    have hsplit := splitAt_commaList (fun y hy => (h y hy).inert) .nil
    rw [List.nil_append, List.nil_append] at hsplit
    have hshown : (commaList ((x :: xs).map f)).toList.all isBlank = false := by
      apply (h x List.mem_cons_self).not_blank
      intro c hc
      unfold commaList
      rw [String.toList_intercalate, List.map_cons, List.map_cons]
      cases xs with
      | nil => simpa using hc
      | cons y ys =>
        rw [List.map_cons, List.map_cons, List.intercalate_cons_cons, List.append_assoc]
        exact List.mem_append_left _ hc
    unfold Argument.parseAll
    rw [hshown, if_neg Bool.false_ne_true, hsplit, mapM_parse_pieces h]

/-- In square brackets, blank items do not count; there are none. -/
theorem parse_brackets {xs : List α} (h : ∀ y ∈ xs, WrittenAs (f y) (g y)) {token : List Char}
    (ht : trim token = '[' :: ((commaList (xs.map f)).toList ++ [']'])) :
    Argument.parse token = .ok (.list (xs.map g)) := by
  have hlast : ('[' :: ((commaList (xs.map f)).toList ++ [']'])).getLast (List.cons_ne_nil _ _)
      = ']' :=
    List.getLast_concat (l := '[' :: (commaList (xs.map f)).toList)
  have hquote : isQuote '[' = false := by decide
  have hitems : ((splitAt ',' (commaList (xs.map f)).toList).filter
      fun item => !item.all isBlank).mapM Argument.parse = .ok (xs.map g) := by
    cases xs with
    | nil => rfl
    | cons x xs =>
      have hsplit := splitAt_commaList (fun y hy => (h y hy).inert) .nil
      rw [List.nil_append, List.nil_append] at hsplit
      have hkept : ((f x).toList :: xs.map fun y => ' ' :: (f y).toList).filter
          (fun item => !item.all isBlank) = (f x).toList :: xs.map fun y => ' ' :: (f y).toList := by
        rw [List.filter_eq_self]
        intro item hitem
        rcases List.mem_cons.mp hitem with rfl | hitem
        · rw [(h x List.mem_cons_self).not_blank fun _ hc => hc]
          rfl
        · obtain ⟨y, hy, rfl⟩ := List.mem_map.mp hitem
          rw [(h y (List.mem_cons_of_mem x hy)).not_blank fun _ hc => List.mem_cons_of_mem ' ' hc]
          rfl
      rw [hsplit, hkept, mapM_parse_pieces h]
  rw [Argument.parse_eq, ht]
  simp only [hquote, hlast, Bool.false_and, Bool.false_eq_true, if_false, List.dropLast_concat,
    hitems]
  rfl

end Lists

theorem Spells.writtenAs {text s : String} (h : Spells text s) : WrittenAs text (.text s) where
  inert := by
    obtain ⟨quote, inside, hliteral, -⟩ := h
    exact .literal (by decide) hliteral
  trimmed := h.trim
  nonempty := by
    obtain ⟨quote, inside, hliteral, -⟩ := h
    rw [hliteral.eq]
    exact List.cons_ne_nil _ _
  parse _ := h.parse

theorem writtenAs_write (v : Value) : WrittenAs v.write v.argument := by
  have hcode : Code (fun _ => True) (plainBut ',') v.write.toList := Value.code fun _ _ => trivial
  cases v with
  | text s => exact (spells_literal s).writtenAs
  | int n =>
    exact ⟨hcode.inertBut (by decide), trim_toString n,
      toString_toList_ne_nil n, fun _ h => parse_toString h⟩
  | texts ss =>
    have hlist : (Value.write (.texts ss)).toList
        = '[' :: ((commaList (ss.map Argument.literal)).toList ++ [']']) := by
      simp [Value.write]
    refine ⟨hcode.inertBut (by decide), ?_, ?_, ?_⟩
    · rw [hlist]
      exact strip_eq_self (startsOutside_cons.mpr (by decide))
        ((endsOutside_append_singleton ('[' :: (commaList (ss.map Argument.literal)).toList)).mpr
          (by decide))
    · rw [hlist]
      exact List.cons_ne_nil _ _
    · intro token h
      exact parse_brackets (fun s _ => (spells_literal s).writtenAs) (h.trans hlist)

/-- **The values of a call** are read back. -/
theorem parseAll_write (vs : List Value) :
    Argument.parseAll (commaList (vs.map Value.write)).toList = .ok (vs.map Value.argument) :=
  parseAll_commaList fun v _ => writtenAs_write v

end Crowsfoot.Builder
