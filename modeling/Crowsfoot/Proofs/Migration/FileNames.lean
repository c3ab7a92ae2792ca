import Crowsfoot.Proofs.Migration.Failures
import Crowsfoot.Proofs.Text.Numerals

/-!
# The names of migrations

The migrations of a schema are a second apart, so no two of them have the same name
(`names_of_writeTables`): a time is spelled differently from every later one (`stamp_ne_of_before`).

The clock may be set to any numbers. Those that are too large for the clock only occur at its start;
hence the order `Timestamp.Before` bounds the hours and minutes that have been reached by ticking,
and with them the number of their digits.
-/

namespace Crowsfoot

open Crowsfoot.Text

/-! ## The order of times -/

namespace Timestamp

/-- The first time can tick on to the second. -/
def Before (t u : Timestamp) : Prop :=
  t.year < u.year ∨ t.year = u.year ∧
    (t.month < u.month ∨ t.month = u.month ∧
      (t.day < u.day ∨ t.day = u.day ∧
        (t.hour < u.hour ∧ u.hour ≤ 23 ∨ t.hour = u.hour ∧
          (t.minute < u.minute ∧ u.minute ≤ 59 ∨ t.minute = u.minute ∧ t.second < u.second))))

theorem Before.trans {t u v : Timestamp} (htu : t.Before u) (huv : u.Before v) : t.Before v := by
  unfold Before at *
  omega

theorem before_next? {t u : Timestamp} (h : t.next? = some u) : t.Before u := by
  unfold next? nextDay? at h
  unfold Before
  split_ifs at h <;> cases h <;> simp <;> omega

/-! ## How times are spelled -/

theorem toList_twoDigits (n : Nat) :
    (twoDigits n).toList = if n < 10 then '0' :: n.repr.toList else n.repr.toList := by
  unfold twoDigits
  split_ifs
  · exact String.toList_append ..
  · rfl

theorem isDigit_of_mem_twoDigits {n : Nat} {c : Char} (h : c ∈ (twoDigits n).toList) :
    c.isDigit = true := by
  rw [toList_twoDigits] at h
  split_ifs at h
  · rcases List.mem_cons.mp h with rfl | h
    · rfl
    · exact isDigit_of_mem_repr h
  · exact isDigit_of_mem_repr h

theorem ofDigitChars_twoDigits (n : Nat) : Nat.ofDigitChars 10 (twoDigits n).toList 0 = n := by
  have hrepr : Nat.ofDigitChars 10 n.repr.toList 0 = n := by
    rw [Nat.toList_repr, Nat.ofDigitChars_ten_toDigits]
  rw [toList_twoDigits]
  split_ifs
  · exact hrepr
  · exact hrepr

theorem twoDigits_inj {m n : Nat} (h : (twoDigits m).toList = (twoDigits n).toList) : m = n := by
  rw [← ofDigitChars_twoDigits m, h, ofDigitChars_twoDigits]

/-- Two digits of numbers below a hundred are told from what follows them. -/
theorem twoDigits_append_inj {m n : Nat} {cs ds : List Char} (hm : m < 100) (hn : n < 100)
    (h : (twoDigits m).toList ++ cs = (twoDigits n).toList ++ ds) : m = n := by
  have hlength : ∀ k < 100, (twoDigits k).toList.length = 2 := by decide +kernel
  exact twoDigits_inj (List.append_inj_left h ((hlength m hm).trans (hlength n hn).symm))

/-- The last part of a stamp. -/
def clockDigits (t : Timestamp) : List Char :=
  (twoDigits t.hour).toList ++ ((twoDigits t.minute).toList ++ (twoDigits t.second).toList)

theorem isDigit_of_mem_clockDigits {t : Timestamp} {c : Char} (h : c ∈ t.clockDigits) :
    c.isDigit = true := by
  unfold clockDigits at h
  rw [List.mem_append, List.mem_append] at h
  rcases h with h | h | h <;> exact isDigit_of_mem_twoDigits h

theorem toList_stamp (t : Timestamp) :
    t.stamp.toList = ['_'].intercalate
      [t.year.repr.toList, (twoDigits t.month).toList, (twoDigits t.day).toList,
        t.clockDigits] := by
  unfold stamp clockDigits
  simp only [String.toList_append, List.intercalate_cons_cons, List.intercalate_singleton,
    List.append_assoc]
  rfl

theorem pieces_stamp (t : Timestamp) :
    pieces '_' t.stamp.toList
      = [t.year.repr.toList, (twoDigits t.month).toList, (twoDigits t.day).toList,
        t.clockDigits] := by
  have hdigits : ∀ {cs : List Char}, (∀ c ∈ cs, c.isDigit = true) → '_' ∉ cs :=
    fun h hmem => absurd (h '_' hmem) (by decide)
  rw [toList_stamp]
  apply pieces_intercalate (List.cons_ne_nil _ _)
  intro p hp
  simp only [List.mem_cons, List.not_mem_nil, or_false] at hp
  rcases hp with rfl | rfl | rfl | rfl
  · exact hdigits fun c hc => isDigit_of_mem_repr hc
  · exact hdigits fun c hc => isDigit_of_mem_twoDigits hc
  · exact hdigits fun c hc => isDigit_of_mem_twoDigits hc
  · exact hdigits fun c hc => isDigit_of_mem_clockDigits hc

/-- **A time is spelled differently from every later one.** -/
theorem stamp_ne_of_before {t u : Timestamp} (h : t.Before u) : t.stamp ≠ u.stamp := by
  intro heq
  have hpieces := pieces_stamp t
  rw [heq, pieces_stamp] at hpieces
  simp only [List.cons.injEq, and_true] at hpieces
  obtain ⟨hyear, hmonth, hday, hclock⟩ := hpieces
  have hyear : u.year = t.year := by
    have := congrArg (Nat.ofDigitChars 10 · 0) hyear
    simpa only [Nat.toList_repr, Nat.ofDigitChars_ten_toDigits] using this
  have hmonth := twoDigits_inj hmonth
  have hday := twoDigits_inj hday
  unfold clockDigits at hclock
  unfold Before at h
  by_cases hhour : u.hour = t.hour
  · rw [hhour, List.append_cancel_left_eq] at hclock
    by_cases hminute : u.minute = t.minute
    · rw [hminute, List.append_cancel_left_eq] at hclock
      have hsecond := twoDigits_inj hclock
      omega
    · exact hminute (twoDigits_append_inj (by omega) (by omega) hclock)
  · exact hhour (twoDigits_append_inj (by omega) (by omega) hclock)

theorem isDigit_of_mem_stamp {t : Timestamp} {c : Char} (h : c ∈ t.stamp.toList) :
    c.isDigit = true ∨ c = '_' := by
  rw [toList_stamp] at h
  rcases mem_of_mem_intercalate h with hc | ⟨p, hp, hc⟩
  · exact Or.inr hc
  · left
    simp only [List.mem_cons, List.not_mem_nil, or_false] at hp
    rcases hp with rfl | rfl | rfl | rfl
    · exact isDigit_of_mem_repr hc
    · exact isDigit_of_mem_twoDigits hc
    · exact isDigit_of_mem_twoDigits hc
    · exact isDigit_of_mem_clockDigits hc

end Timestamp

/-! ## The names of the files of a schema -/

namespace Migration

open Timestamp

/-- The stamp is found at the beginning of a file name. -/
theorem stamp_of_filename {a b : String} {t u : Timestamp} (h : filename a t = filename b u) :
    t.stamp = u.stamp := by
  have hpieces : ∀ (table : String) (at_ : Timestamp),
      ∃ rest, pieces 'c' (filename table at_).toList = (at_.stamp ++ "_").toList :: rest := by
    intro table at_
    have hstamp : 'c' ∉ (at_.stamp ++ "_").toList := by
      rw [String.toList_append, List.mem_append, not_or]
      refine ⟨fun hmem => ?_, by decide⟩
      rcases isDigit_of_mem_stamp hmem with hc | hc <;> exact absurd hc (by decide)
    refine ⟨pieces 'c' ("reate_" ++ table ++ "_table.php").toList, ?_⟩
    rw [← pieces_append hstamp]
    unfold filename
    simp only [String.toList_append, List.append_assoc]
    rfl
  obtain ⟨rest, hrest⟩ := hpieces a t
  obtain ⟨more, hmore⟩ := hpieces b u
  rw [h, hmore] at hrest
  have hstamp := (List.cons.inj hrest).1
  rw [String.toList_append, String.toList_append, List.append_cancel_right_eq] at hstamp
  exact String.toList_inj.mp hstamp.symm

variable {o : Options} {known : List String} {ts : List Table} {files : List GeneratedFile}

theorem filename_of_writeTable {known : Option (List String)} {at_ : Timestamp} {t : Table}
    {file : GeneratedFile} (h : writeTable o known at_ t = .ok file) :
    file.filename = filename file.table at_ := by
  unfold writeTable at h
  obtain ⟨content, -, h⟩ := bind_eq_ok.mp h
  obtain rfl := Except.ok.inj h
  rfl

/-- Each file is named after its table and a time from the start on, and no two have the same
name. -/
theorem names_of_writeTables {at? : Option Timestamp} (h : writeTables o known at? ts = .ok files) :
    (∀ f ∈ files, ∃ start t, at? = some start ∧ f.filename = filename f.table t
        ∧ (t = start ∨ start.Before t))
      ∧ (files.map GeneratedFile.filename).Nodup := by
  induction ts generalizing at? files with
  | nil =>
    obtain rfl : [] = files := Except.ok.inj (writeTables_nil.symm.trans h)
    exact ⟨by simp, .nil⟩
  | cons table ts ih =>
    obtain ⟨at_, rfl, file, rest, hfile, hrest, rfl⟩ := writeTables_cons_eq_ok.mp h
    obtain ⟨hnames, hnodup⟩ := ih hrest
    have hname := filename_of_writeTable hfile
    have hlater : ∀ f ∈ rest, ∃ t, f.filename = filename f.table t ∧ at_.Before t := by
      intro f hf
      obtain ⟨start, t, hnext, hfname, ht⟩ := hnames f hf
      have hbefore := before_next? hnext
      refine ⟨t, hfname, ?_⟩
      rcases ht with rfl | ht
      · exact hbefore
      · exact hbefore.trans ht
    refine ⟨List.forall_mem_cons.mpr ⟨⟨at_, at_, rfl, hname, Or.inl rfl⟩, ?_⟩,
      List.nodup_cons.mpr ⟨fun hmem => ?_, hnodup⟩⟩
    · intro f hf
      obtain ⟨t, hfname, ht⟩ := hlater f hf
      exact ⟨at_, t, rfl, hfname, Or.inr ht⟩
    · obtain ⟨f, hf, hsame⟩ := List.mem_map.mp hmem
      obtain ⟨t, hfname, ht⟩ := hlater f hf
      rw [hfname, hname] at hsame
      exact stamp_ne_of_before ht (stamp_of_filename hsame).symm

end Migration

end Crowsfoot
