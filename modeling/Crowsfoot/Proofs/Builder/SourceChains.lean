import Crowsfoot.Proofs.Builder.Continuations
import Crowsfoot.Proofs.Builder.Groups
import Mathlib.Data.List.TakeWhile

/-!
# Chains as they are written

In a source a chain need not look like one of generated code. Blanks may stand before each arrow and
before each bracket, and between the brackets any items (`SourceLink`).

* `link?_eq_some_iff`: a link is read where one is written, and nowhere else.
* `chain_source`: the calls of a chain are those of its links, in order, with what stands between
  their brackets as it is. What follows the chain changes nothing unless it begins with one more
  link (`GoesOn`).
* `exists_source`: behind its dollar sign every text is such a chain with something behind it.
-/

namespace Crowsfoot.Builder

open Crowsfoot.Text

/-! ## Links -/

/-- A link of a source. -/
structure SourceLink where
  /-- What stands before the arrow. -/
  lead : List Char := []
  method : String
  /-- What stands before the bracket. -/
  gap : List Char := []
  /-- What stands between the brackets. -/
  raw : String := ""
  deriving Repr, DecidableEq

namespace SourceLink

/-- A link as it is written. -/
def write (l : SourceLink) : List Char :=
  l.lead ++ '-' :: '>' :: (l.method.toList ++ (l.gap ++ '(' :: (l.raw.toList ++ [')'])))

/-- A link with blanks where they may be, a method, and items between its brackets. -/
structure WellFormed (l : SourceLink) : Prop where
  lead : ∀ c ∈ l.lead, isBlank c = true
  name : IsName l.method
  gap : ∀ c ∈ l.gap, isBlank c = true
  items : Items ')' l.raw.toList

/-- The call of a link: its method, what stands between its brackets, and the arguments that are
read there. -/
structure IsReadAs (l : SourceLink) (c : Call) : Prop where
  method : c.method = l.method
  raw : c.rawArguments = l.raw
  arguments : Argument.parseAll l.raw.toList = .ok c.arguments

variable {l : SourceLink} {ls : List SourceLink} {c : Call}

theorem IsReadAs.readLink (h : l.IsReadAs c) : Builder.readLink (l.method, l.raw) = .ok c := by
  obtain ⟨method, raw, arguments⟩ := c
  obtain ⟨rfl, rfl, harguments⟩ := h
  unfold Builder.readLink
  rw [harguments]
  rfl

theorem write_append (l : SourceLink) (rest : List Char) :
    l.write ++ rest
      = l.lead ++ '-' :: '>' ::
        (l.method.toList ++ (l.gap ++ '(' :: (l.raw.toList ++ ')' :: rest))) := by
  simp [write]

theorem endsOutside_write (l : SourceLink) : EndsOutside isBlank l.write := by
  have hclose : EndsOutside isBlank ((l.lead ++ '-' :: '>' ::
      (l.method.toList ++ (l.gap ++ '(' :: l.raw.toList))) ++ [')']) :=
    (endsOutside_append_singleton _).mpr (by decide)
  unfold write
  simpa using hclose

/-- A link does not begin like a name. -/
theorem WellFormed.startsOutside (h : l.WellFormed) (rest : List Char) :
    StartsOutside isWord (l.write ++ rest) := by
  rw [write_append]
  cases hlead : l.lead with
  | nil => exact startsOutside_cons.mpr (by decide)
  | cons c lead =>
    exact startsOutside_cons.mpr
      (isWord_eq_false_of_isBlank (h.lead c (hlead ▸ List.mem_cons_self)))

/-- **A link is read back.** -/
theorem WellFormed.link? (h : l.WellFormed) (rest : List Char) :
    Builder.link? (l.write ++ rest) = some (l.method, l.raw, rest) := by
  have hopen : ∀ tail, StartsOutside isWord (l.gap ++ '(' :: tail) := by
    intro tail
    cases hgap : l.gap with
    | nil => exact startsOutside_cons.mpr (by decide)
    | cons c gap =>
      exact startsOutside_cons.mpr
        (isWord_eq_false_of_isBlank (h.gap c (hgap ▸ List.mem_cons_self)))
  have hgroup : group ')' (l.raw.toList ++ ')' :: rest) = some (l.raw.toList, rest) :=
    h.items.group_append (show closerOf? '(' = some ')' from rfl) rest
  have hstart : (l.write ++ rest).dropWhile isBlank = '-' :: '>' ::
      (l.method.toList ++ (l.gap ++ '(' :: (l.raw.toList ++ ')' :: rest))) := by
    rw [write_append]
    exact dropWhile_run h.lead (startsOutside_cons.mpr (by decide))
  have hbracket : ∀ tail, (l.gap ++ '(' :: tail).dropWhile isBlank = '(' :: tail :=
    fun tail => dropWhile_run h.gap (startsOutside_cons.mpr (by decide))
  unfold Builder.link?
  rw [hstart]
  simp only [takeWhile_run h.name.word (hopen _), dropWhile_run h.name.word (hopen _), hbracket,
    hgroup]
  simp [h.name.nonempty]

end SourceLink

/-- **A link is read where one is written**, and nowhere else. -/
theorem link?_eq_some_iff {cs rest : List Char} {method raw : String} :
    link? cs = some (method, raw, rest)
      ↔ ∃ lead gap, SourceLink.WellFormed { lead, method, gap, raw }
        ∧ cs = SourceLink.write { lead, method, gap, raw } ++ rest := by
  constructor
  · intro h
    unfold link? at h
    split at h
    · rename_i named hnamed
      dsimp only at h
      split at h
      · rename_i opened hopened
        split at h
        · exact nomatch h
        · rename_i hempty
          obtain ⟨⟨inside, after⟩, hgroup, he⟩ := Option.map_eq_some_iff.mp h
          cases he
          obtain ⟨hitems, rfl⟩ :=
            (group_eq_some_iff (show closerOf? '(' = some ')' from rfl)).mp hgroup
          refine ⟨cs.takeWhile isBlank, (named.dropWhile isWord).takeWhile isBlank,
            ⟨fun c hc => List.mem_takeWhile_imp hc, ⟨?_, ?_⟩, fun c hc => List.mem_takeWhile_imp hc,
              ?_⟩, ?_⟩
          · rw [String.toList_ofList]
            exact fun hnil => hempty (List.isEmpty_iff.mpr hnil)
          · rw [String.toList_ofList]
            exact fun c hc => List.mem_takeWhile_imp hc
          · rw [String.toList_ofList]
            exact hitems
          · rw [SourceLink.write_append, String.toList_ofList, String.toList_ofList, ← hopened,
              List.takeWhile_append_dropWhile, List.takeWhile_append_dropWhile, ← hnamed,
              List.takeWhile_append_dropWhile]
      · exact nomatch h
    · exact nomatch h
  · rintro ⟨lead, gap, hwellFormed, rfl⟩
    exact hwellFormed.link? rest

/-! ## Chains -/

/-- What follows a chain goes on with it: it begins with one more link, or, if the chain is the
variable only, with more of its name and a link. -/
def GoesOn (ls : List SourceLink) (tail : List Char) : Prop :=
  ∃ more l rest, (∀ c ∈ more, isWord c = true) ∧ (ls ≠ [] → more = []) ∧ SourceLink.WellFormed l
    ∧ tail = more ++ (l.write ++ rest)

section Chains

variable {name tail : List Char} {ls : List SourceLink} {calls : List Call}

theorem GoesOn.append (h : GoesOn ls tail) (trail : List Char) : GoesOn ls (tail ++ trail) := by
  obtain ⟨more, l, rest, hmore, hnil, hl, rfl⟩ := h
  exact ⟨more, l, rest ++ trail, hmore, hnil, hl, by simp⟩

theorem not_goesOn_nil (ls : List SourceLink) : ¬GoesOn ls [] := by
  rintro ⟨more, l, rest, -, -, -, hnil⟩
  have hwrite := (List.append_eq_nil_iff.mp (List.append_eq_nil_iff.mp hnil.symm).2).1
  exact List.cons_ne_nil _ _ (List.append_eq_nil_iff.mp hwrite).2

/-- Where no link is read no link is written. -/
theorem link?_eq_none_of_not (h : ¬∃ l rest, SourceLink.WellFormed l ∧ tail = l.write ++ rest) :
    link? tail = none := by
  cases hlink : link? tail with
  | none => rfl
  | some found =>
    obtain ⟨method, raw, rest⟩ := found
    obtain ⟨lead, gap, hl, htail⟩ := link?_eq_some_iff.mp hlink
    exact absurd ⟨_, rest, hl, htail⟩ h

/-- The links of a chain are read, and then those of what follows. -/
theorem links_flatMap_write (h : ∀ l ∈ ls, l.WellFormed) (tail : List Char) :
    links (ls.flatMap SourceLink.write ++ tail)
      = ls.map (fun l => (l.method, l.raw)) ++ links tail := by
  induction ls with
  | nil => rfl
  | cons l ls ih =>
    rw [List.flatMap_cons, List.append_assoc, links_of_link? ((h l List.mem_cons_self).link? _),
      ih fun m hm => h m (List.mem_cons_of_mem l hm)]
    rfl

/-- Behind the name of the variable the links of a chain are read, and no others. -/
theorem links_source (hname : ∀ c ∈ name, isWord c = true) (hls : ∀ l ∈ ls, l.WellFormed)
    (htail : ¬GoesOn ls tail) :
    links ((name ++ (ls.flatMap SourceLink.write ++ tail)).dropWhile isWord)
      = ls.map fun l => (l.method, l.raw) := by
  rw [List.dropWhile_append_of_pos hname]
  cases ls with
  | nil =>
    -- what follows may begin with more of the name
    refine links_of_link?_eq_none (link?_eq_none_of_not ?_)
    rintro ⟨l, rest, hl, hrest⟩
    refine htail ⟨tail.takeWhile isWord, l, rest, fun c hc => List.mem_takeWhile_imp hc,
      fun hne => absurd rfl hne, hl, ?_⟩
    rw [← hrest]
    exact List.takeWhile_append_dropWhile.symm
  | cons l ls =>
    have hstart : StartsOutside isWord ((l :: ls).flatMap SourceLink.write ++ tail) := by
      rw [List.flatMap_cons, List.append_assoc]
      exact (hls l List.mem_cons_self).startsOutside _
    have hnone : link? tail = none := by
      refine link?_eq_none_of_not ?_
      rintro ⟨m, rest, hm, hrest⟩
      exact htail ⟨[], m, rest, fun _ hc => absurd hc List.not_mem_nil, fun _ => rfl, hm, hrest⟩
    rw [dropWhile_eq_self_of_startsOutside hstart, links_flatMap_write hls,
      links_of_link?_eq_none hnone, List.append_nil]

/-- A text without the blanks at its end. -/
theorem exists_trail (tail : List Char) :
    ∃ body trail, tail = body ++ trail ∧ EndsOutside isBlank body
      ∧ ∀ c ∈ trail, isBlank c = true := by
  obtain ⟨lead, trail, htail, hlead, htrail⟩ := exists_strip isBlank tail
  by_cases hnil : strip isBlank tail = []
  · rw [hnil, List.nil_append] at htail
    refine ⟨[], lead ++ trail, htail, endsOutside_nil, ?_⟩
    exact List.forall_mem_append.mpr ⟨hlead, htrail⟩
  · rw [← List.append_assoc] at htail
    exact ⟨_, trail, htail, endsOutside_append hnil (endsOutside_strip tail), htrail⟩

theorem mapM_readLink (h : List.Forall₂ SourceLink.IsReadAs ls calls) :
    ls.mapM (readLink ∘ fun l => (l.method, l.raw)) = .ok calls := by
  induction h with
  | nil => rfl
  | cons hread _ ih =>
    rw [List.mapM_cons, ih, Function.comp_apply, hread.readLink]
    rfl

/-- The calls of a chain, with something behind it that does not go on with it. -/
theorem chain_source_append (hname : ∀ c ∈ name, isWord c = true) (hls : ∀ l ∈ ls, l.WellFormed)
    (hcalls : List.Forall₂ SourceLink.IsReadAs ls calls) (htail : ¬GoesOn ls tail) :
    chain ('$' :: (name ++ (ls.flatMap SourceLink.write ++ tail))) = .ok calls := by
  obtain ⟨body, trail, rfl, hbody, htrail⟩ := exists_trail tail
  have htext : '$' :: (name ++ (ls.flatMap SourceLink.write ++ (body ++ trail)))
      = '$' :: (name ++ (ls.flatMap SourceLink.write ++ body)) ++ trail := by simp
  have hend : EndsOutside isBlank (['$'] ++ (name ++ (ls.flatMap SourceLink.write ++ body))) :=
    EndsOutside.append (by decide) (EndsOutside.append
      (endsOutside_of_all fun c hc => isBlank_eq_false_of_isWord (hname c hc))
      (EndsOutside.append (endsOutside_flatMap fun l _ => l.endsOutside_write) hbody))
  have htrim : trim ('$' :: (name ++ (ls.flatMap SourceLink.write ++ (body ++ trail))))
      = '$' :: (name ++ (ls.flatMap SourceLink.write ++ body)) := by
    rw [htext]
    exact (strip_append_right htrail _).trans
      (strip_eq_self (startsOutside_cons.mpr (by decide)) hend)
  rw [chain_eq htrim, links_source hname hls fun h => htail (h.append trail), List.mapM_map]
  exact mapM_readLink hcalls

/-- **A chain is read as its calls.** There is one call for each link, in order, and what follows
the chain changes nothing unless it goes on with it. -/
theorem chain_source (hname : ∀ c ∈ name, isWord c = true) (hls : ∀ l ∈ ls, l.WellFormed)
    (hcalls : List.Forall₂ SourceLink.IsReadAs ls calls) :
    chain ('$' :: (name ++ ls.flatMap SourceLink.write)) = .ok calls
      ∧ ∀ tail, ¬GoesOn ls tail →
        chain ('$' :: (name ++ (ls.flatMap SourceLink.write ++ tail))) = .ok calls := by
  constructor
  · have h := chain_source_append hname hls hcalls (not_goesOn_nil ls)
    rw [List.append_nil] at h
    exact h
  · exact fun tail htail => chain_source_append hname hls hcalls htail

/-- A bracket in a literal closes no link, and a link that is not closed ends the chain. -/
theorem chain_source_nested :
    chain "$table->string('a)', ['('])\n  ->index (".toList
      = .ok [{ method := "string", rawArguments := "'a)', ['(']"
               arguments := [.text "a)", .list [.text "("]] }] := by
  let l : SourceLink := { method := "string", raw := "'a)', ['(']" }
  have hitems : Items ')' "'a)', ['(']".toList := by
    have hopening : Inside '\'' "(".toList := .plain (by decide) (by decide) .nil
    have hgroup : Items ']' "'('".toList := .literal (by decide) hopening .nil
    have hclosing : Inside '\'' "a)".toList :=
      .plain (by decide) (by decide) <| .plain (by decide) (by decide) .nil
    exact .literal (by decide) hclosing <| .char (by decide) (by decide) (by decide) <|
      .char (by decide) (by decide) (by decide) <|
        .group (show closerOf? '[' = some ']' from rfl) hgroup .nil
  have hnone : ∀ c ∈ ([] : List Char), isBlank c = true := fun _ hc => absurd hc List.not_mem_nil
  have hl : l.WellFormed := ⟨hnone, by decide, hnone, hitems⟩
  have hread : l.IsReadAs { method := "string", rawArguments := "'a)', ['(']"
                            arguments := [.text "a)", .list [.text "("]] } := by
    have hraw : commaList ([.text "a)", .texts ["("]].map Value.write) = "'a)', ['(']" := by decide
    have harguments := parseAll_write [.text "a)", .texts ["("]]
    rw [hraw] at harguments
    exact ⟨rfl, rfl, harguments⟩
  have hstops : ¬GoesOn [l] "\n  ->index (".toList := by
    rintro ⟨more, m, rest, -, hnil, hm, htail⟩
    have hlink : link? "\n  ->index (".toList = none := by decide
    rw [htail, hnil (List.cons_ne_nil _ _), List.nil_append, hm.link?] at hlink
    exact nomatch hlink
  have htext : "$table->string('a)', ['('])\n  ->index (".toList
      = '$' :: ("table".toList ++ ([l].flatMap SourceLink.write ++ "\n  ->index (".toList)) := by
    decide
  rw [htext]
  exact (chain_source (by decide) (List.forall_mem_singleton.mpr hl) (.cons hread .nil)).2 _ hstops

/-- Every text is links with something behind them that begins with no link. -/
theorem exists_links (cs : List Char) :
    ∃ (ls : List SourceLink) (tail : List Char), (∀ l ∈ ls, l.WellFormed) ∧ link? tail = none
      ∧ cs = ls.flatMap SourceLink.write ++ tail := by
  cases hlink : link? cs with
  | none => exact ⟨[], cs, fun _ hl => absurd hl List.not_mem_nil, hlink, rfl⟩
  | some found =>
    obtain ⟨method, raw, rest⟩ := found
    have hshorter := length_of_link? hlink
    obtain ⟨lead, gap, hl, rfl⟩ := link?_eq_some_iff.mp hlink
    obtain ⟨ls, tail, hls, hnone, rfl⟩ := exists_links rest
    refine ⟨_ :: ls, tail, List.forall_mem_cons.mpr ⟨hl, hls⟩, hnone, ?_⟩
    rw [List.flatMap_cons, List.append_assoc]
termination_by cs.length

/-- **Behind its dollar sign every text is a chain** with something behind it that does not go on
with it. -/
theorem exists_source (cs : List Char) :
    ∃ name ls tail, (∀ c ∈ name, isWord c = true) ∧ (∀ l ∈ ls, SourceLink.WellFormed l)
      ∧ ¬GoesOn ls tail ∧ cs = name ++ (ls.flatMap SourceLink.write ++ tail) := by
  obtain ⟨ls, tail, hls, hnone, hdrop⟩ := exists_links (cs.dropWhile isWord)
  refine ⟨cs.takeWhile isWord, ls, tail, fun c hc => List.mem_takeWhile_imp hc, hls, ?_, ?_⟩
  · rintro ⟨more, l, rest, hmore, hnil, hl, rfl⟩
    have hempty : more = [] := by
      cases ls with
      | cons l ls => exact hnil (List.cons_ne_nil l ls)
      | nil =>
        -- the name of the variable is the whole run of word characters
        have hrun := hl.startsOutside rest
        have hself := dropWhile_eq_self_of_startsOutside (startsOutside_dropWhile (p := isWord) cs)
        rw [hdrop, List.flatMap_nil, List.nil_append, dropWhile_run hmore hrun] at hself
        exact List.append_left_eq_self.mp hself.symm
    rw [hempty, List.nil_append, hl.link?] at hnone
    exact nomatch hnone
  · rw [← hdrop]
    exact List.takeWhile_append_dropWhile.symm

end Chains

end Crowsfoot.Builder
