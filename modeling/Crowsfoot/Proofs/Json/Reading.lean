import Crowsfoot.Json.Reader
import Crowsfoot.Proofs.Json.Tokens

/-!
# Written JSON is read back

`parse?_pretty`: a value whose numbers are integers (`Json.Exact`) is read back as it was from what
`pretty` writes for it, whatever its strings and however deep its containers. Other numbers are
left out: what is written of a decimal does not say how it was written before.

The proof goes through the tokens of a value (`Json.tokens`). The scanner cuts what is written into
them (`readsBefore_prettyAt`), since blanks and line feeds between tokens are none, and from them
the machine of the reader puts the value together (`steps_tokens`) with the open containers
untouched.

`legible_prettyAt` says that a file keeps what is written: of all control characters there are only
line feeds, those of strings being escaped.
-/

namespace Crowsfoot.Json

open Crowsfoot.Text

/-- A value whose numbers are integers. -/
inductive Exact : Json → Prop where
  | null : Exact .null
  | bool (b : Bool) : Exact (.bool b)
  | int (n : Int) : Exact (.int n)
  | str (s : String) : Exact (.str s)
  | arr {items : List Json} (h : ∀ v ∈ items, Exact v) : Exact (.arr items)
  | obj {members : List (String × Json)} (h : ∀ m ∈ members, Exact m.2) : Exact (.obj members)

/-! ## The tokens of a value -/

/-- Runs of tokens with commas between them. -/
def commaTokens (runs : List (List Token)) : List Token :=
  [Token.comma].intercalate runs

mutual
/-- The tokens that a value is written with. -/
def tokens : Json → List Token
  | arr items => .beginArray :: commaTokens (itemTokens items) ++ [.endArray]
  | obj members => .beginObject :: commaTokens (memberTokens members) ++ [.endObject]
  | str s => [.str s]
  | v => [.scalar v]

/-- The tokens of each item. -/
def itemTokens : List Json → List (List Token)
  | [] => []
  | v :: rest => tokens v :: itemTokens rest

/-- The tokens of each member. -/
def memberTokens : List (String × Json) → List (List Token)
  | [] => []
  | (name, v) :: rest => (.str name :: .colon :: tokens v) :: memberTokens rest
end

@[simp] theorem commaTokens_nil : commaTokens [] = [] := rfl

theorem commaTokens_single (run : List Token) : commaTokens [run] = run :=
  List.intercalate_singleton

theorem commaTokens_cons (run next : List Token) (rest : List (List Token)) :
    commaTokens (run :: next :: rest) = run ++ .comma :: commaTokens (next :: rest) := by
  unfold commaTokens
  rw [List.intercalate_cons_cons, List.append_assoc, List.singleton_append]

/-- Runs begin with the first one. -/
theorem exists_commaTokens_append (run : List Token) (rest : List (List Token))
    (more : List Token) : ∃ others, commaTokens (run :: rest) ++ more = run ++ others := by
  cases rest with
  | nil => exact ⟨more, by rw [commaTokens_single]⟩
  | cons next rest =>
    rw [commaTokens_cons, List.append_assoc]
    exact ⟨_, rfl⟩

/-! ## The scanner finds the tokens -/

/-- Each line gives its tokens, if what follows it is not part of a word at its end. -/
abbrev LinesRead (lines : List String) (runs : List (List Token)) : Prop :=
  List.Forall₂ (fun line ts => ReadsBefore line.toList ts) lines runs

/-- An indented line gives the tokens of the line. -/
theorem readsBefore_indented {line : String} {ts : List Token} (level : Nat)
    (h : ReadsBefore line.toList ts) : ReadsBefore (indentation level ++ line).toList ts := by
  rw [String.toList_append]
  exact (reads_indentation level).append_before h

theorem reads_comma_newline : Reads [',', '\n'] [.comma] := by
  have hcomma : Reads [','] [.comma] := reads_punctuation rfl rfl (by decide)
  exact hcomma.append_silent (reads_blank rfl)

/-- Lines that are read one by one are read with commas between them. -/
theorem LinesRead.join {lines : List String} {runs : List (List Token)} (h : LinesRead lines runs)
    (hne : lines ≠ []) (level : Nat) :
    ReadsBefore (",\n".intercalate (lines.map fun line => indentation level ++ line)).toList
      (commaTokens runs) := by
  rw [String.toList_intercalate]
  induction h with
  | nil => exact absurd rfl hne
  | @cons line run lines runs hline hrest ih =>
    have hfirst := readsBefore_indented level hline
    cases hrest with
    | nil =>
      rw [commaTokens_single]
      simpa only [List.map_cons, List.map_nil, List.intercalate_singleton] using hfirst
    | cons _ _ =>
      rw [commaTokens_cons]
      simp only [List.map_cons, List.intercalate_cons_cons, List.append_assoc] at ih ⊢
      have hcomma : Apart [',', '\n'] := fun c hc => by cases hc; rfl
      have hline' := hfirst.append reads_comma_newline (by decide) hcomma
      have hall := hline'.append_before (ih (by simp))
      rwa [List.append_assoc, List.append_assoc, List.singleton_append] at hall

/-- **A container is read** with the tokens of its lines between those of its brackets. -/
theorem LinesRead.block {lines : List String} {runs : List (List Token)} (h : LinesRead lines runs)
    (level : Nat) (opening closing : Char) {first last : Token}
    (hopening : Reads [opening] [first]) (hclosing : Reads [closing] [last]) :
    Reads (writeBlock level (String.singleton opening) (String.singleton closing) lines).toList
      (first :: commaTokens runs ++ [last]) := by
  unfold writeBlock
  cases h with
  | nil =>
    simpa using hopening.append hclosing
  | @cons line run lines runs hline hrest =>
    have hbody := LinesRead.join (.cons hline hrest) (by simp) (level + 1)
    have hend : Reads ('\n' :: (indentation level).toList ++ [closing]) [last] :=
      ((reads_blank (c := '\n') rfl).append (reads_indentation level)).append hclosing
    have hstart : Reads [opening, '\n'] [first] :=
      hopening.append_silent (reads_blank rfl)
    have hapart : Apart ('\n' :: (indentation level).toList ++ [closing]) :=
      fun c hc => by cases hc; rfl
    have hall := hstart.append (hbody.append hend (by simp) hapart)
    simpa [String.toList_append, List.append_assoc] using hall

theorem prettyItems_eq (level : Nat) (items : List Json) :
    prettyItems level items = items.map (prettyAt level) := by
  induction items with
  | nil => rfl
  | cons v rest ih => rw [prettyItems, ih, List.map_cons]

theorem prettyMembers_eq (level : Nat) (members : List (String × Json)) :
    prettyMembers level members
      = members.map fun m => writeString m.1 ++ ": " ++ prettyAt level m.2 := by
  induction members with
  | nil => rfl
  | cons m rest ih => rw [prettyMembers, ih, List.map_cons]

theorem itemTokens_eq (items : List Json) : itemTokens items = items.map tokens := by
  induction items with
  | nil => rfl
  | cons v rest ih => rw [itemTokens, ih, List.map_cons]

theorem memberTokens_eq (members : List (String × Json)) :
    memberTokens members = members.map fun m => .str m.1 :: .colon :: tokens m.2 := by
  induction members with
  | nil => rfl
  | cons m rest ih => rw [memberTokens, ih, List.map_cons]

theorem reads_colon_blank : Reads [':', ' '] [.colon] := by
  have hcolon : Reads [':'] [.colon] := reads_punctuation rfl rfl (by decide)
  exact hcolon.append_silent (reads_blank rfl)

/-- **What is written of a value is cut into the tokens of the value.** -/
theorem readsBefore_prettyAt {v : Json} (h : Exact v) (level : Nat) :
    ReadsBefore (prettyAt level v).toList (tokens v) := by
  induction h generalizing level with
  | null => exact readsBefore_word (w := "null".toList) rfl (by decide) (by decide)
  | bool b =>
    cases b
    · exact readsBefore_word (w := "false".toList) rfl (by decide) (by decide)
    · exact readsBefore_word (w := "true".toList) rfl (by decide) (by decide)
  | int n => exact readsBefore_toString n
  | str s => exact (reads_writeString s).before
  | @arr items _ ih =>
    have hlines : LinesRead (prettyItems (level + 1) items) (itemTokens items) := by
      rw [prettyItems_eq, itemTokens_eq, LinesRead, List.forall₂_map_left_iff,
        List.forall₂_map_right_iff, List.forall₂_same]
      exact fun v hv => ih v hv (level + 1)
    have hblock := hlines.block level '[' ']'
      (reads_punctuation rfl rfl (by decide)) (reads_punctuation rfl rfl (by decide))
    exact hblock.before
  | @obj members _ ih =>
    have hlines : LinesRead (prettyMembers (level + 1) members) (memberTokens members) := by
      rw [prettyMembers_eq, memberTokens_eq, LinesRead, List.forall₂_map_left_iff,
        List.forall₂_map_right_iff, List.forall₂_same]
      intro m hm
      have hname := (reads_writeString m.1).append reads_colon_blank
      have hmember := hname.append_before (ih m hm (level + 1))
      simpa [String.toList_append, List.append_assoc] using hmember
    have hblock := hlines.block level '\x7b' '\x7d'
      (reads_punctuation rfl rfl (by decide)) (reads_punctuation rfl rfl (by decide))
    exact hblock.before

/-! ## The machine puts the value together -/

/-- The state after several tokens. -/
def Parsing.steps (state : Parsing) (ts : List Token) : Option Parsing :=
  ts.foldlM Parsing.step state

@[simp] theorem Parsing.steps_nil (state : Parsing) : state.steps [] = some state := rfl

theorem Parsing.steps_cons (state : Parsing) (t : Token) (ts : List Token) :
    state.steps (t :: ts) = (state.step t).bind fun next => next.steps ts := by
  unfold Parsing.steps
  rw [List.foldlM_cons]
  rfl

theorem Parsing.steps_append (state : Parsing) (ts us : List Token) :
    state.steps (ts ++ us) = (state.steps ts).bind fun next => next.steps us := by
  unfold Parsing.steps
  rw [List.foldlM_append]
  rfl

/-- The machine reads a value, whatever containers are open. -/
def Assembled (v : Json) : Prop :=
  ∀ open_, (Parsing.value open_).steps (tokens v) = some (.after v open_)

/-- No value begins with the end of an array, so that a first item is read as any other. -/
theorem steps_firstItem (open_ : List Frame) (v : Json) (more : List Token) :
    (Parsing.firstItem open_).steps (tokens v ++ more)
      = (Parsing.value (.items [] :: open_)).steps (tokens v ++ more) := by
  cases v <;> simp only [tokens, List.cons_append, Parsing.steps_cons] <;> rfl

theorem steps_items {v : Json} {rest : List Json} (hv : Assembled v) (h : ∀ w ∈ rest, Assembled w)
    (before : List Json) (open_ : List Frame) :
    (Parsing.value (.items before :: open_)).steps
        (commaTokens (itemTokens (v :: rest)) ++ [.endArray])
      = some (.after (.arr (before.reverse ++ v :: rest)) open_) := by
  induction rest generalizing v before with
  | nil =>
    rw [itemTokens, itemTokens, commaTokens_single, Parsing.steps_append, hv, Option.bind_some,
      Parsing.steps_cons]
    simp [Parsing.step]
  | cons w rest ih =>
    rw [itemTokens, itemTokens, commaTokens_cons, List.append_assoc, Parsing.steps_append, hv,
      Option.bind_some, List.cons_append, Parsing.steps_cons]
    have hrest := ih (h w List.mem_cons_self) (fun u hu => h u (List.mem_cons_of_mem w hu))
      (v :: before)
    rw [itemTokens] at hrest
    simpa [Parsing.step] using hrest

theorem steps_members (name : String) {v : Json} {rest : List (String × Json)}
    (hv : Assembled v) (h : ∀ m ∈ rest, Assembled m.2) (before : List (String × Json))
    (open_ : List Frame) :
    (Parsing.nextName before open_).steps
        (commaTokens (memberTokens ((name, v) :: rest)) ++ [.endObject])
      = some (.after (.obj (before.reverse ++ (name, v) :: rest)) open_) := by
  induction rest generalizing name v before with
  | nil =>
    rw [memberTokens, memberTokens, commaTokens_single, List.cons_append, Parsing.steps_cons]
    simp [Parsing.step, Parsing.steps_cons, Parsing.steps_append, hv _]
  | cons m rest ih =>
    rw [memberTokens, memberTokens, commaTokens_cons, List.cons_append, List.cons_append,
      Parsing.steps_cons]
    have hrest := ih m.1 (h m List.mem_cons_self)
      (fun n hn => h n (List.mem_cons_of_mem m hn)) ((name, v) :: before)
    rw [memberTokens] at hrest
    simpa [Parsing.step, Parsing.steps_cons, Parsing.steps_append, hv _] using hrest

/-- **The tokens of a value make up the value.** -/
theorem steps_tokens {v : Json} (h : Exact v) : Assembled v := by
  induction h with
  | null | bool | int | str => exact fun _ => rfl
  | @arr items _ ih =>
    intro open_
    cases items with
    | nil => rfl
    | cons v rest =>
      rw [tokens, List.cons_append, Parsing.steps_cons]
      have hitems := steps_items (ih v List.mem_cons_self)
        (fun w hw => ih w (List.mem_cons_of_mem v hw)) [] open_
      obtain ⟨others, hothers⟩ :=
        exists_commaTokens_append (tokens v) (itemTokens rest) [.endArray]
      rw [itemTokens, hothers] at hitems ⊢
      exact (steps_firstItem open_ v others).trans hitems
  | @obj members _ ih =>
    intro open_
    cases members with
    | nil => rfl
    | cons m rest =>
      rw [tokens, List.cons_append, Parsing.steps_cons]
      have hmembers := steps_members m.1 (ih m List.mem_cons_self)
        (fun n hn => ih n (List.mem_cons_of_mem m hn)) [] open_
      obtain ⟨others, hothers⟩ := exists_commaTokens_append
        (.str m.1 :: .colon :: tokens m.2) (memberTokens rest) [.endObject]
      rw [memberTokens, hothers] at hmembers ⊢
      -- a first name is read as a further one is
      exact hmembers

/-- **A value is read back from what is written of it.** -/
theorem parse?_pretty {v : Json} (h : Exact v) : parse? (pretty v) = some v := by
  have hlexed := readsBefore_prettyAt h 0 [] (fun _ hc => by simp at hc)
  have hread := steps_tokens h []
  unfold ReadsTo at hlexed
  unfold Parsing.steps at hread
  rw [List.append_nil] at hlexed
  unfold parse? tokens? pretty
  rw [hlexed]
  simp [tokensFrom?, ofTokens?, hread, Parsing.result?]

/-! ## What is written can be stored -/

/-- A text whose only control characters are line feeds. -/
def Legible (s : String) : Prop :=
  ∀ c ∈ s.toList, c = '\n' ∨ 0x20 ≤ c.toNat

theorem Legible.append {a b : String} (ha : Legible a) (hb : Legible b) : Legible (a ++ b) := by
  intro c hc
  rw [String.toList_append, List.mem_append] at hc
  exact hc.elim (ha c) (hb c)

theorem legible_intercalate {sep : String} (hsep : Legible sep) (lines : List String)
    (h : ∀ line ∈ lines, Legible line) : Legible (sep.intercalate lines) := by
  induction lines with
  | nil => exact fun c hc => by simp at hc
  | cons line lines ih =>
    have hline := h line List.mem_cons_self
    have hrest := ih fun l hl => h l (List.mem_cons_of_mem line hl)
    intro c hc
    cases lines with
    | nil => exact hline c (by simpa using hc)
    | cons next lines =>
      rw [String.toList_intercalate, List.map_cons, List.map_cons, List.intercalate_cons_cons,
        List.mem_append, List.mem_append, ← List.map_cons, ← String.toList_intercalate] at hc
      exact hc.elim (fun hc => hc.elim (hline c) (hsep c)) (hrest c)

theorem legible_indentation (level : Nat) : Legible (indentation level) := by
  intro c hc
  unfold indentation at hc
  rw [String.toList_ofList] at hc
  rw [List.eq_of_mem_replicate hc]
  exact Or.inr (by decide)

theorem toNat_hexDigit {n : Nat} (h : n < 16) : 0x20 ≤ (hexDigit n).toNat := by
  have hall : ∀ n < 16, 0x20 ≤ (hexDigit n).toNat := by decide
  exact hall n h

/-- A control character of a string is written as an escape. -/
theorem toNat_of_mem_writeChar {c d : Char} (h : d ∈ writeChar c) : 0x20 ≤ d.toNat := by
  have hpair : ∀ letter : Char, 0x20 ≤ letter.toNat → d ∈ ['\\', letter] → 0x20 ≤ d.toNat := by
    intro letter hletter hd
    rcases List.mem_pair.mp hd with rfl | rfl
    · decide
    · exact hletter
  unfold writeChar at h
  split_ifs at h with hquote _ _ _ _ _ hcontrol
  · rcases List.mem_pair.mp h with rfl | rfl
    · decide
    · simp only [Bool.or_eq_true, decide_eq_true_eq] at hquote
      rcases hquote with rfl | rfl <;> decide
  · exact hpair 'n' (by decide) h
  · exact hpair 'r' (by decide) h
  · exact hpair 't' (by decide) h
  · exact hpair 'b' (by decide) h
  · exact hpair 'f' (by decide) h
  · simp only [hexDigits, List.nil_append, List.cons_append, List.mem_cons, List.not_mem_nil,
      or_false] at h
    rcases h with rfl | rfl | h
    · decide
    · decide
    · rcases h with rfl | rfl | rfl | rfl <;> exact toNat_hexDigit (Nat.mod_lt _ (by decide))
  · rw [List.mem_singleton.mp h]
    omega

theorem legible_writeString (s : String) : Legible (writeString s) := by
  intro c hc
  unfold writeString at hc
  rw [String.toList_ofList, List.cons_append, List.mem_cons, List.mem_append,
    List.mem_singleton] at hc
  rcases hc with rfl | hc | rfl
  · exact Or.inr (by decide)
  · obtain ⟨d, _, hd⟩ := List.mem_flatMap.mp hc
    exact Or.inr (toNat_of_mem_writeChar hd)
  · exact Or.inr (by decide)

theorem legible_toString (n : Int) : Legible (toString n) := by
  intro c hc
  right
  rcases mem_toString hc with rfl | hdigit
  · decide
  · simp only [Char.isDigit, Bool.and_eq_true, decide_eq_true_eq] at hdigit
    have hlow : 48 ≤ c.toNat := UInt32.le_iff_toNat_le.mp hdigit.1
    omega

theorem legible_writeBlock {level : Nat} {opening closing : String} {lines : List String}
    (hopening : Legible opening) (hclosing : Legible closing)
    (h : ∀ line ∈ lines, Legible line) : Legible (writeBlock level opening closing lines) := by
  have hfeed : Legible "\n" := fun c hc => Or.inl (by simpa using hc)
  have hcomma : Legible ",\n" := by
    intro c hc
    rcases List.mem_pair.mp (show c ∈ [',', '\n'] from hc) with rfl | rfl
    · exact Or.inr (by decide)
    · exact Or.inl rfl
  unfold writeBlock
  split_ifs
  · exact hopening.append hclosing
  · have hlines := legible_intercalate hcomma (lines.map fun line =>
      indentation (level + 1) ++ line) (by
        intro line hline
        obtain ⟨l, hl, rfl⟩ := List.mem_map.mp hline
        exact (legible_indentation (level + 1)).append (h l hl))
    exact ((((hopening.append hfeed).append hlines).append hfeed).append
      (legible_indentation level)).append hclosing

/-- **The only control characters that are written are line feeds**: those of strings are
escaped. -/
theorem legible_prettyAt {v : Json} (h : Exact v) (level : Nat) : Legible (prettyAt level v) := by
  have hplain : ∀ s : String, (∀ c ∈ s.toList, 0x20 ≤ c.toNat) → Legible s :=
    fun s hs c hc => Or.inr (hs c hc)
  induction h generalizing level with
  | null => exact hplain "null" (by decide)
  | bool b =>
    cases b
    · exact hplain "false" (by decide)
    · exact hplain "true" (by decide)
  | int n => exact legible_toString n
  | str s => exact legible_writeString s
  | @arr items _ ih =>
    rw [prettyAt, prettyItems_eq]
    refine legible_writeBlock (hplain "[" (by decide)) (hplain "]" (by decide)) ?_
    intro line hline
    obtain ⟨v, hv, rfl⟩ := List.mem_map.mp hline
    exact ih v hv (level + 1)
  | @obj members _ ih =>
    rw [prettyAt, prettyMembers_eq]
    refine legible_writeBlock (hplain "\x7b" (by decide)) (hplain "\x7d" (by decide)) ?_
    intro line hline
    obtain ⟨m, hm, rfl⟩ := List.mem_map.mp hline
    exact ((legible_writeString m.1).append (hplain ": " (by decide))).append
      (ih m hm (level + 1))

end Crowsfoot.Json
