import Crowsfoot.Proofs.Builder.Values

/-!
# Written chains are read back

A statement of generated code is a chain on `$table`: links of a method and its values
(`Link`). `chain_chainText` reads the calls of a chain back, and `mapM_chain_layout` those of a body
of statements that each end with a semicolon.
-/

namespace Crowsfoot.Builder

open Crowsfoot.Text

/-! ## Chains -/

/-- One link of generated code. -/
structure Link where
  method : String
  values : List Value := []
  deriving Repr, DecidableEq

namespace Link

/-- The values of a link as they stand between its brackets. -/
def raw (l : Link) : String :=
  commaList (l.values.map Value.write)

/-- A link in generated code. -/
def write (l : Link) : String :=
  "->" ++ l.method ++ "(" ++ l.raw ++ ")"

/-- The call that a link is read as. -/
def call (l : Link) : Call :=
  { method := l.method, rawArguments := l.raw, arguments := l.values.map Value.argument }

/-- The strings in a link. -/
def strings (l : Link) : List String :=
  l.values.flatMap Value.strings

end Link

/-- A chain on the table. -/
def chainText (ls : List Link) : String :=
  "$table" ++ String.join (ls.map Link.write)

theorem isPlain_of_isWord {c : Char} (h : isWord c = true) : isPlain c = true := by
  have hne : ∀ d : Char, isWord d = false → c ≠ d := fun d hd => ne_of_isWord h hd
  have hquotes : isQuote c = false := by
    simp [isQuote, hne '\'' (by decide), hne '"' (by decide)]
  have hdepth : depthStep c = 0 := by
    simp [depthStep, hne '(' (by decide), hne '[' (by decide), hne '\x7b' (by decide),
      hne ')' (by decide), hne ']' (by decide), hne '\x7d' (by decide)]
  simp [isPlain, hquotes, hdepth, hne '/' (by decide), hne '#' (by decide), hne ':' (by decide)]

theorem isPlain_of_isBlank {c : Char} (h : isBlank c = true) : isPlain c = true :=
  forall_isBlank (P := fun c => isPlain c = true) (by decide) h

theorem plainBut_of_isWord {sep c : Char} (hsep : isWord sep = false) (h : isWord c = true) :
    plainBut sep c = true := by
  rw [plainBut, isPlain_of_isWord h, Bool.true_and, bne_iff_ne]
  exact ne_of_isWord h hsep

section Code

variable {held : String → Prop}

theorem Link.code_raw {l : Link} (h : ∀ s ∈ l.strings, held s) :
    Code held isPlain l.raw.toList := by
  apply code_commaList
  intro t ht
  obtain ⟨v, hv, rfl⟩ := List.mem_map.mp ht
  refine (Value.code fun s hs => h s ?_).mono fun _ => isPlain_of_plainBut
  exact List.mem_flatMap.mpr ⟨v, hv, hs⟩

/-- A method with its arguments as they are written. -/
def linkText (method raw : String) : List Char :=
  '-' :: '>' :: (method.toList ++ '(' :: (raw.toList ++ [')']))

theorem Link.toList_write (l : Link) : l.write.toList = linkText l.method l.raw := by
  simp [Link.write, linkText]

theorem Link.code {l : Link} (hm : IsName l.method) (h : ∀ s ∈ l.strings, held s) :
    Code held (plainBut ';') l.write.toList := by
  have hmethod : Code held (plainBut ';') l.method.toList :=
    Code.of_all fun c hc => plainBut_of_isWord (by decide) (hm.word c hc)
  rw [Link.toList_write]
  exact .char (by decide) (.char (by decide) (hmethod.append (.brackets rfl (code_raw h) .nil)))

theorem toList_chainText (ls : List Link) :
    (chainText ls).toList = "$table".toList ++ ls.flatMap fun l => l.write.toList := by
  unfold chainText
  rw [String.toList_append, String.toList_join, List.flatMap_map]

/-- **A chain is code without a semicolon** outside its brackets and literals. -/
theorem code_chainText {ls : List Link} (hm : ∀ l ∈ ls, IsName l.method)
    (h : ∀ l ∈ ls, ∀ s ∈ l.strings, held s) :
    Code held (plainBut ';') (chainText ls).toList := by
  have hlinks : Code held (plainBut ';') (ls.flatMap fun l => l.write.toList) := by
    induction ls with
    | nil => exact .nil
    | cons l ls ih =>
      rw [List.flatMap_cons]
      exact (Link.code (hm l List.mem_cons_self) (h l List.mem_cons_self)).append
        (ih (fun m hm' => hm m (List.mem_cons_of_mem l hm'))
          fun m hm' => h m (List.mem_cons_of_mem l hm'))
  rw [toList_chainText]
  exact (Code.of_all (by decide)).append hlinks

end Code

/-- **A link is read back**, whatever follows it. -/
theorem link?_linkText {method raw : String} (hm : IsName method) (hraw : Inert ';' 1 raw.toList)
    (rest : List Char) : link? (linkText method raw ++ rest) = some (method, raw, rest) := by
  have hgroup : group ')' (raw.toList ++ ')' :: rest) = some (raw.toList, rest) := by
    have hclose : groupFrom .code ')' [] (')' :: rest) = some ([], rest) := rfl
    unfold group
    rw [hraw.groupFrom ')' (by decide), hclose]
    simp
  have hopen : StartsOutside isWord ('(' :: (raw.toList ++ ')' :: rest)) :=
    startsOutside_cons.mpr (by decide)
  have hname : (method.toList ++ '(' :: (raw.toList ++ ')' :: rest)).takeWhile isWord
      = method.toList := takeWhile_run hm.word hopen
  have hafter : ((method.toList ++ '(' :: (raw.toList ++ ')' :: rest)).dropWhile
      isWord).dropWhile isBlank = '(' :: (raw.toList ++ ')' :: rest) := by
    rw [dropWhile_run hm.word hopen]
    rfl
  have hline : (linkText method raw ++ rest).dropWhile isBlank
      = '-' :: '>' :: (method.toList ++ '(' :: (raw.toList ++ ')' :: rest)) := by
    simp [linkText, show isBlank '-' = false by decide]
  unfold link?
  rw [hline]
  simp only [hname, hafter, hgroup]
  simp [hm.nonempty]

theorem links_of_link? {cs rest : List Char} {method raw : String}
    (h : link? cs = some (method, raw, rest)) : links cs = (method, raw) :: links rest := by
  rw [links]
  split
  · rename_i heq
    rw [h] at heq
    cases heq
    rfl
  · rename_i heq
    rw [h] at heq
    cases heq

theorem links_of_link?_eq_none {cs : List Char} (h : link? cs = none) : links cs = [] := by
  rw [links]
  split
  · rename_i heq
    rw [h] at heq
    cases heq
  · rfl

theorem links_linkTexts {ls : List (String × String)}
    (h : ∀ l ∈ ls, IsName l.1 ∧ Inert ';' 1 l.2.toList) :
    links (ls.flatMap fun l => linkText l.1 l.2) = ls := by
  induction ls with
  | nil => exact links_of_link?_eq_none rfl
  | cons l ls ih =>
    obtain ⟨hm, hraw⟩ := h l List.mem_cons_self
    rw [List.flatMap_cons, links_of_link? (link?_linkText hm hraw _),
      ih fun m hm => h m (List.mem_cons_of_mem l hm)]

theorem links_write {ls : List Link} (h : ∀ l ∈ ls, IsName l.method) :
    links (ls.flatMap fun l => l.write.toList) = ls.map fun l => (l.method, l.raw) := by
  have hls : ∀ l ∈ ls.map fun l => (l.method, l.raw), IsName l.1 ∧ Inert ';' 1 l.2.toList := by
    intro link hlink
    obtain ⟨l, hl, rfl⟩ := List.mem_map.mp hlink
    have hraw : Code (fun _ => True) isPlain l.raw.toList := Link.code_raw fun _ _ => trivial
    exact ⟨h l hl, hraw.inertInside⟩
  rw [← links_linkTexts hls, List.flatMap_map]
  exact congrArg links (List.flatMap_congr fun l _ => l.toList_write)

theorem endsOutside_linkText (method raw : String) : EndsOutside isBlank (linkText method raw) := by
  have hclose : EndsOutside isBlank (('-' :: '>' :: (method.toList ++ '(' :: raw.toList)) ++ [')']) :=
    (endsOutside_append_singleton _).mpr (by decide)
  unfold linkText
  simpa using hclose

theorem endsOutside_links (ls : List Link) :
    EndsOutside isBlank (ls.flatMap fun l => l.write.toList) :=
  endsOutside_flatMap fun l _ => by
    rw [Link.toList_write]
    exact endsOutside_linkText l.method l.raw

/-- **A chain is read back**, with blanks before it. -/
theorem chain_chainText {ls : List Link} (h : ∀ l ∈ ls, IsName l.method) {lead : List Char}
    (hlead : ∀ c ∈ lead, isBlank c = true) :
    chain (lead ++ (chainText ls).toList) = .ok (ls.map Link.call) := by
  have htrim : trim (lead ++ (chainText ls).toList)
      = '$' :: ("table".toList ++ ls.flatMap fun l => l.write.toList) := by
    unfold trim
    rw [strip_append_left hlead, toList_chainText]
    refine strip_eq_self (startsOutside_cons.mpr (by decide)) ?_
    exact EndsOutside.append ((endsOutside_append_singleton ("$tabl".toList)).mpr (by decide))
      (endsOutside_links ls)
  have hstop : StartsOutside isWord (ls.flatMap fun l => l.write.toList) := by
    cases ls with
    | nil => exact startsOutside_nil
    | cons l ls =>
      rw [List.flatMap_cons, Link.toList_write]
      exact startsOutside_cons.mpr (by decide)
  have hvariable : ("table".toList ++ ls.flatMap fun l => l.write.toList).dropWhile isWord
      = ls.flatMap fun l => l.write.toList :=
    dropWhile_run (by decide) hstop
  unfold chain
  rw [htrim]
  simp only [hvariable, links_write h, List.mapM_map]
  apply mapM_eq_ok
  intro l hl
  have hvalues := parseAll_write l.values
  simp only [Function.comp_apply, Link.raw, hvalues]
  rfl

/-! ## Bodies -/

/-- A part of a body: blanks, or a statement. -/
inductive Part where
  | blanks (cs : List Char)
  | statement (links : List Link)

namespace Part

/-- A part in generated code. -/
def write : Part → List Char
  | blanks cs => cs
  | statement ls => (chainText ls).toList ++ [';']

/-- The statement that a part is. -/
def statement? : Part → Option (List Link)
  | blanks _ => none
  | statement ls => some ls

/-- A part whose blanks are blank and whose methods are names. -/
def WellFormed : Part → Prop
  | blanks cs => ∀ c ∈ cs, isBlank c = true
  | statement ls => ∀ l ∈ ls, IsName l.method

end Part

theorem code_parts {held : String → Prop} {parts : List Part}
    (hparts : ∀ p ∈ parts, p.WellFormed)
    (hheld : ∀ ls ∈ parts.filterMap Part.statement?, ∀ l ∈ ls, ∀ s ∈ l.strings, held s) :
    Code held isPlain (parts.flatMap Part.write) := by
  induction parts with
  | nil => exact .nil
  | cons p parts ih =>
    have hp := hparts p List.mem_cons_self
    have hrest := fun q hq => hparts q (List.mem_cons_of_mem p hq)
    rw [List.flatMap_cons]
    cases p with
    | blanks cs =>
      exact (Code.of_all fun c hc => isPlain_of_isBlank (hp c hc)).append (ih hrest hheld)
    | statement ls =>
      have hls := hheld ls List.mem_cons_self
      have hchain := (code_chainText hp hls).mono fun _ => isPlain_of_plainBut
      refine (hchain.append (Code.of_all (by decide))).append (ih hrest ?_)
      exact fun ms hms => hheld ms (List.mem_cons_of_mem ls hms)

/-- **The statements of a body** are read back; what follows the last semicolon is blank and holds
no calls. -/
theorem mapM_chain_parts {parts : List Part} (h : ∀ p ∈ parts, p.WellFormed) {lead : List Char}
    (hlead : ∀ c ∈ lead, isBlank c = true) :
    (splitAt ';' (lead ++ parts.flatMap Part.write)).mapM chain
      = .ok ((parts.filterMap Part.statement?).map (·.map Link.call) ++ [[]]) := by
  have hblank : ∀ {cs : List Char}, (∀ c ∈ cs, isBlank c = true) →
      Code (fun _ => True) (plainBut ';') cs := by
    intro cs hcs
    apply Code.of_all
    intro c hc
    exact forall_isBlank (P := fun c => plainBut ';' c = true) (by decide) (hcs c hc)
  induction parts generalizing lead with
  | nil =>
    have hchain : chain lead = .ok [] := by
      unfold chain trim
      rw [strip_eq_nil hlead]
    rw [List.flatMap_nil, List.append_nil, ((hblank hlead).inertBut (by decide)).splitAt_self,
      List.mapM_cons, hchain]
    rfl
  | cons p parts ih =>
    have hp := h p List.mem_cons_self
    have hrest := fun q hq => h q (List.mem_cons_of_mem p hq)
    rw [List.flatMap_cons]
    cases p with
    | blanks cs =>
      have hmore : ∀ c ∈ lead ++ cs, isBlank c = true := by
        intro c hc
        rcases List.mem_append.mp hc with hc | hc
        · exact hlead c hc
        · exact hp c hc
      have := ih hrest hmore
      rw [List.append_assoc] at this
      exact this
    | statement ls =>
      have hcode := (hblank hlead).append (code_chainText hp fun _ _ _ _ => trivial)
      have htext : lead ++ (Part.write (.statement ls) ++ parts.flatMap Part.write)
          = (lead ++ (chainText ls).toList) ++ ';' :: parts.flatMap Part.write := by
        simp [Part.write]
      have hnone : ∀ c ∈ ([] : List Char), isBlank c = true := by simp
      have := ih hrest hnone
      rw [List.nil_append] at this
      rw [htext, (hcode.inertBut (by decide)).splitAt_sep (by decide), List.mapM_cons,
        chain_chainText hp hlead, this]
      rfl

end Crowsfoot.Builder
