import Crowsfoot.Proofs.Builder.Chains
import Crowsfoot.Proofs.Builder.Concatenation

/-!
# Chains go on

More links can be written behind a statement. If it is one statement up to its semicolon
(`IsUnended`) it is still one (`IsUnended.splitAt_append`), and if it is a chain up to its end
(`IsChain`) the new links are read after its own (`IsChain.chain_append`), on the same line or on
the next.
-/

namespace Crowsfoot.Builder

open Crowsfoot.Text

/-! ## Groups and links -/

/-- A group that is closed stays as it is. -/
theorem groupFrom_append {q : Quoting} {closer : Char} {outer cs inside rest : List Char}
    (h : groupFrom q closer outer cs = some (inside, rest)) (more : List Char) :
    groupFrom q closer outer (cs ++ more) = some (inside, rest ++ more) := by
  induction cs generalizing q closer outer inside with
  | nil => exact nomatch h
  | cons c cs ih =>
    have keep {q' closer' outer'}
        (h' : (groupFrom q' closer' outer' cs).map (fun r => (c :: r.1, r.2))
          = some (inside, rest)) :
        (groupFrom q' closer' outer' (cs ++ more)).map (fun r => (c :: r.1, r.2))
          = some (inside, rest ++ more) := by
      obtain ⟨⟨i, r⟩, hg, he⟩ := Option.map_eq_some_iff.mp h'
      cases he
      rw [ih hg]
      rfl
    rw [List.cons_append]
    cases q with
    | code =>
      simp only [groupFrom] at h ⊢
      by_cases hquote : isQuote c = true
      · rw [if_pos hquote] at h ⊢
        exact keep h
      · rw [if_neg hquote] at h ⊢
        cases hcloser : closerOf? c with
        | some inner =>
          rw [hcloser] at h
          exact keep h
        | none =>
          rw [hcloser] at h
          by_cases hclose : c = closer
          · simp only [if_pos hclose] at h ⊢
            cases outer with
            | nil =>
              cases h
              rfl
            | cons next outer => exact keep h
          · simp only [if_neg hclose] at h ⊢
            exact keep h
    | literal quote | escape quote => exact keep h

/-- **A link stays as it is** with more behind it. -/
theorem link?_append {cs rest : List Char} {method raw : String}
    (h : link? cs = some (method, raw, rest)) (more : List Char) :
    link? (cs ++ more) = some (method, raw, rest ++ more) := by
  unfold link? at h
  split at h
  · rename_i named hnamed
    dsimp only at h
    split at h
    · rename_i opened hopened
      have hblank : (cs ++ more).dropWhile isBlank = '-' :: '>' :: (named ++ more) := by
        rw [dropWhile_append (.inl (by simp [hnamed])), hnamed]
        rfl
      have hword : named.dropWhile isWord ≠ [] := by
        intro hnil
        rw [hnil] at hopened
        exact nomatch hopened
      have hafter : ((named ++ more).dropWhile isWord).dropWhile isBlank
          = '(' :: (opened ++ more) := by
        rw [dropWhile_append (.inl hword), dropWhile_append (.inl (by simp [hopened])), hopened]
        rfl
      unfold link?
      rw [hblank]
      simp only [takeWhile_append hword, hafter]
      split at h
      · exact nomatch h
      · rename_i hempty
        obtain ⟨⟨inside, after⟩, hgroup, he⟩ := Option.map_eq_some_iff.mp h
        cases he
        rw [if_neg hempty, group, groupFrom_append hgroup]
        rfl
    · exact nomatch h
  · exact nomatch h

/-- A text that is nothing but links. -/
inductive Linked : List Char → Prop where
  | nil : Linked []
  | cons {cs rest : List Char} {method raw : String} (link : link? cs = some (method, raw, rest))
    (more : Linked rest) : Linked cs

theorem Linked.links_append {cs : List Char} (h : Linked cs) (more : List Char) :
    links (cs ++ more) = links cs ++ links more := by
  induction h with
  | nil => rw [show links [] = [] from links_of_link?_eq_none rfl]; rfl
  | cons link _ ih => rw [links_of_link? (link?_append link more), links_of_link? link, ih]; rfl

/-- Links can begin on a new line. -/
theorem links_append_left {lead : List Char} (h : ∀ c ∈ lead, isBlank c = true) (cs : List Char) :
    links (lead ++ cs) = links cs := by
  have hlink : link? (lead ++ cs) = link? cs := by
    unfold link?
    rw [List.dropWhile_append_of_pos h]
  cases hcs : link? cs with
  | none => rw [links_of_link?_eq_none hcs, links_of_link?_eq_none (hlink.trans hcs)]
  | some found => rw [links_of_link? hcs, links_of_link? (hlink.trans hcs)]

/-! ## Chains -/

/-- Reads the arguments of a link. -/
def readLink (link : String × String) : Except ReadError Call :=
  (Argument.parseAll link.2.toList).map fun arguments =>
    { method := link.1, rawArguments := link.2, arguments }

theorem chain_eq {cs rest : List Char} (h : trim cs = '$' :: rest) :
    chain cs = (links (rest.dropWhile isWord)).mapM readLink := by
  unfold chain
  rw [h]
  rfl

/-- A variable and links, with nothing else but blanks around it. -/
def IsChain (cs : List Char) : Prop :=
  ∃ rest, trim cs = '$' :: rest ∧ Linked (rest.dropWhile isWord)

/-- **A chain goes on** with the links that are written behind it. -/
theorem IsChain.chain_append {cs more : List Char} (h : IsChain cs) (hmore : more ≠ [])
    (hstart : StartsOutside isWord more) (hend : EndsOutside isBlank more) :
    chain (cs ++ more) = do
      let calls ← chain cs
      let others ← (links more).mapM readLink
      return calls ++ others := by
  obtain ⟨rest, htrim, hlinked⟩ := h
  obtain ⟨lead, trail, hcs, hlead, htrail⟩ := exists_strip isBlank cs
  have htrim' : trim (cs ++ more) = '$' :: (rest ++ (trail ++ more)) := by
    have htext : cs ++ more = lead ++ ('$' :: (rest ++ (trail ++ more))) := by
      rw [hcs, show strip isBlank cs = '$' :: rest from htrim]
      simp
    rw [htext]
    refine (strip_append_left hlead _).trans (strip_eq_self (startsOutside_cons.mpr (by decide)) ?_)
    rw [← List.append_assoc, ← List.cons_append]
    exact endsOutside_append hmore hend
  have hstart' : StartsOutside isWord (trail ++ more) := by
    cases trail with
    | nil => exact hstart
    | cons c trail =>
      exact startsOutside_cons.mpr (isWord_eq_false_of_isBlank (htrail c List.mem_cons_self))
  rw [chain_eq htrim, chain_eq htrim', dropWhile_append (.inr hstart'), hlinked.links_append,
    links_append_left htrail, List.mapM_append]

/-! ## Links with literals -/

/-- A method with literals between its brackets, each as it is written and as the string that it
stands for. -/
structure LiteralLink where
  method : String
  literals : List (String × String)

namespace LiteralLink

/-- What stands between the brackets. -/
def raw (l : LiteralLink) : String :=
  commaList (l.literals.map Prod.fst)

def write (l : LiteralLink) : List Char :=
  linkText l.method l.raw

/-- The call that the link is read as. -/
def call (l : LiteralLink) : Call :=
  { method := l.method, rawArguments := l.raw, arguments := l.literals.map fun x => .text x.2 }

structure WellFormed (l : LiteralLink) : Prop where
  name : IsName l.method
  spells : ∀ x ∈ l.literals, Spells x.1 x.2

variable {l : LiteralLink} {ls : List LiteralLink}

theorem WellFormed.inert_raw (h : l.WellFormed) : Inert ';' 1 l.raw.toList := by
  apply commaList_induction .nil Inert.append
  · exact .of_all (by decide) fun hzero => absurd hzero (by decide)
  · intro text htext
    obtain ⟨x, hx, rfl⟩ := List.mem_map.mp htext
    obtain ⟨quote, inside, hliteral, -⟩ := h.spells x hx
    exact .literal (by decide) hliteral

theorem WellFormed.inert_write (h : l.WellFormed) : Inert ';' 0 l.write := by
  have hmethod : ∀ c ∈ l.method.toList, plainBut ';' c = true :=
    fun c hc => plainBut_of_isWord (by decide) (h.name.word c hc)
  have harrow : Inert ';' 0 ('-' :: '>' :: l.method.toList) := by
    refine .of_all ?_ fun _ hmem => ?_
    · exact List.forall_mem_cons.mpr ⟨by decide, List.forall_mem_cons.mpr
        ⟨by decide, fun c hc => isPlain_of_plainBut (hmethod c hc)⟩⟩
    · have hsemicolon : ';' ∈ l.method.toList := by simpa using hmem
      exact ne_of_plainBut (hmethod _ hsemicolon) rfl
  have hgroup : Inert ';' 0 ('(' :: (l.raw.toList ++ [')'])) :=
    .brackets (by decide) rfl h.inert_raw
  exact harrow.append hgroup

theorem WellFormed.readLink (h : l.WellFormed) :
    Builder.readLink (l.method, l.raw) = .ok l.call := by
  have hread : Argument.parseAll l.raw.toList = .ok (l.literals.map fun x => .text x.2) :=
    parseAll_commaList fun x hx => (h.spells x hx).writtenAs
  unfold Builder.readLink
  rw [hread]
  rfl

theorem inert_writes (h : ∀ l ∈ ls, l.WellFormed) : Inert ';' 0 (ls.flatMap write) := by
  induction ls with
  | nil => exact .nil
  | cons l ls ih =>
    rw [List.flatMap_cons]
    exact (h l List.mem_cons_self).inert_write.append
      (ih fun m hm => h m (List.mem_cons_of_mem l hm))

end LiteralLink

/-- **A chain goes on** with the calls of the links that are written behind it. -/
theorem IsChain.chain_append_literalLinks {cs : List Char} {calls : List Call} (h : IsChain cs)
    (hcalls : chain cs = .ok calls) {ls : List LiteralLink} (hls : ∀ l ∈ ls, l.WellFormed) :
    chain (cs ++ ls.flatMap LiteralLink.write) = .ok (calls ++ ls.map LiteralLink.call) := by
  have hlinks : links (ls.flatMap LiteralLink.write) = ls.map fun l => (l.method, l.raw) := by
    have hnamed : ∀ l ∈ ls.map fun l => (l.method, l.raw), IsName l.1 ∧ Inert ';' 1 l.2.toList := by
      intro link hlink
      obtain ⟨l, hl, rfl⟩ := List.mem_map.mp hlink
      exact ⟨(hls l hl).name, (hls l hl).inert_raw⟩
    rw [← links_linkTexts hnamed, List.flatMap_map]
    rfl
  have hread : (ls.map fun l => (l.method, l.raw)).mapM readLink
      = .ok (ls.map LiteralLink.call) := by
    rw [List.mapM_map]
    exact mapM_eq_ok fun l hl => (hls l hl).readLink
  cases ls with
  | nil => rw [List.flatMap_nil, List.append_nil, hcalls]; simp
  | cons l ls =>
    rw [h.chain_append, hcalls, hlinks, hread]
    · rfl
    · simp [LiteralLink.write, linkText]
    · exact startsOutside_cons.mpr (by decide)
    · exact endsOutside_flatMap fun l _ => endsOutside_linkText l.method l.raw

theorem linked_literalLinks {ls : List LiteralLink} (hls : ∀ l ∈ ls, l.WellFormed) :
    Linked (ls.flatMap LiteralLink.write) := by
  induction ls with
  | nil => exact .nil
  | cons l ls ih =>
    have hl := hls l List.mem_cons_self
    rw [List.flatMap_cons]
    exact .cons (link?_linkText hl.name hl.inert_raw _)
      (ih fun m hm => hls m (List.mem_cons_of_mem l hm))

/-- A variable with links is a chain of their calls. -/
theorem isChain_literalLinks {ls : List LiteralLink} (hls : ∀ l ∈ ls, l.WellFormed) :
    IsChain ("$table".toList ++ ls.flatMap LiteralLink.write)
      ∧ chain ("$table".toList ++ ls.flatMap LiteralLink.write)
        = .ok (ls.map LiteralLink.call) := by
  have hvariable : IsChain "$table".toList := ⟨"table".toList, by decide, .nil⟩
  have hnone : chain "$table".toList = .ok [] := by
    have hlinks : links ("table".toList.dropWhile isWord) = [] := links_of_link?_eq_none rfl
    rw [chain_eq (show trim "$table".toList = '$' :: "table".toList by decide), hlinks]
    rfl
  have htrim : trim ("$table".toList ++ ls.flatMap LiteralLink.write)
      = '$' :: ("table".toList ++ ls.flatMap LiteralLink.write) :=
    strip_eq_self (startsOutside_cons.mpr (by decide)) (EndsOutside.append
      (show EndsOutside isBlank "$table".toList by decide)
      (endsOutside_flatMap fun l _ => endsOutside_linkText l.method l.raw))
  have hstart : StartsOutside isWord (ls.flatMap LiteralLink.write) := by
    cases ls with
    | nil => exact startsOutside_nil
    | cons l ls => exact startsOutside_cons.mpr (by decide)
  refine ⟨⟨_, htrim, ?_⟩, hvariable.chain_append_literalLinks hnone hls⟩
  rw [dropWhile_run (by decide) hstart]
  exact linked_literalLinks hls

/-! ## Statements -/

/-- A text that is one piece belongs to the first piece of a longer text. -/
theorem splitFrom_append_of_single {sep : Char} {q : Quoting} {depth : Int} {cs : List Char}
    (h : splitFrom sep q depth cs = [cs]) (ds : List Char) :
    splitFrom sep q depth (cs ++ ds)
      = extendBy cs (splitFrom sep (q.after cs) (depthAfter q depth cs) ds) := by
  induction cs generalizing q depth with
  | nil => rfl
  | cons c cs ih =>
    have keep {q' depth'} (h' : extendFirst c (splitFrom sep q' depth' cs) = [c :: cs]) :
        extendFirst c (splitFrom sep q' depth' (cs ++ ds))
          = extendFirst c
            (extendBy cs (splitFrom sep (q'.after cs) (depthAfter q' depth' cs) ds)) := by
      obtain ⟨p, ps, hps⟩ := List.exists_cons_of_ne_nil (splitFrom_ne_nil sep q' depth' cs)
      rw [hps] at h'
      cases h'
      rw [ih hps]
    rw [List.cons_append]
    cases q with
    | code =>
      simp only [splitFrom] at h ⊢
      split at h
      · cases h
      · rename_i hcut
        rw [if_neg hcut]
        exact keep h
    | literal quote | escape quote => exact keep h

/-- **A statement goes on** with an inert text behind it, up to the next semicolon. -/
theorem IsUnended.splitAt_append {lead more : List Char} (h : IsUnended lead)
    (hmore : Inert ';' 0 more) (hstart : StartsOutside endsMark more) (rest : List Char) :
    Builder.splitAt ';' (withoutComments (lead ++ (more ++ ';' :: rest)))
      = (withoutComments lead ++ more) :: Builder.splitAt ';' (withoutComments rest) := by
  have hborder : StartsOutside endsMark (more ++ ';' :: rest) := by
    cases more with
    | nil => exact startsOutside_cons.mpr (by decide)
    | cons c more => exact startsOutside_cons.mpr (startsOutside_cons.mp hstart)
  have htext : withoutComments (lead ++ (more ++ ';' :: rest))
      = withoutComments lead ++ (more ++ ';' :: withoutComments rest) := by
    rw [← withoutComments_cons (by decide) (by decide) (by decide), ← hmore.withoutComments]
    unfold withoutComments
    rw [withoutCommentsFrom_append _ _ hborder, h.region]
  have hsingle : splitFrom ';' .code 0 (withoutComments lead) = [withoutComments lead] := h.single
  rw [htext]
  refine (splitFrom_append_of_single hsingle _).trans ?_
  rw [after_withoutComments h.region, h.closed]
  exact (congrArg _ (hmore.splitAt_sep (by decide) _)).trans (extendBy_cons _ _ _)

end Crowsfoot.Builder
