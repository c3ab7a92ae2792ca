import Crowsfoot.Proofs.Migration.FileNames
import Mathlib.Algebra.Group.Nat.Defs
import Mathlib.Data.List.Lex

/-!
# Migrations sort in the order of their tables

`filenames_ascend`: the file names of a schema ascend in code point order, whatever its tables are
called, and each file is the migration of the table at its position, dated as many seconds after the
start.

A stamp is as long as any other from the year 1000 on, and its numbers stand in the order of their
weight. Hence an earlier stamp differs from a later one by a smaller character at a position that
both have (`precedes_stamp`), and what follows the stamps does not count (`Precedes.append`).

The clock ticks within the calendar (`InCalendar.next?`) and only forward (`before_of_after?`), be it
over the end of a minute or of a leap year, until the calendar ends.
-/

namespace Crowsfoot

/-! ## Texts that differ -/

/-- The first text has a smaller character where the two differ, at a position of both. -/
inductive Precedes : List Char → List Char → Prop where
  | here {c d : Char} {cs ds : List Char} (less : c < d) : Precedes (c :: cs) (d :: ds)
  | there {c : Char} {cs ds : List Char} (rest : Precedes cs ds) : Precedes (c :: cs) (c :: ds)

namespace Precedes

variable {cs ds : List Char}

theorem lt (h : Precedes cs ds) : cs < ds := by
  induction h with
  | here less => exact List.Lex.rel less
  | there _ ih => exact List.Lex.cons ih

/-- What follows does not count. -/
theorem append (h : Precedes cs ds) (es fs : List Char) : Precedes (cs ++ es) (ds ++ fs) := by
  induction h with
  | here less => exact .here less
  | there _ ih => exact .there ih

theorem append_left (h : Precedes cs ds) (lead : List Char) :
    Precedes (lead ++ cs) (lead ++ ds) := by
  induction lead with
  | nil => exact h
  | cons c lead ih => exact .there ih

/-- A number comes before what is less significant. -/
theorem number {spell : Nat → List Char} {m n : Nat}
    (hspell : m < n → Precedes (spell m) (spell n)) (h : m < n ∨ m = n ∧ Precedes cs ds) :
    Precedes (spell m ++ cs) (spell n ++ ds) := by
  rcases h with h | ⟨rfl, h⟩
  · exact (hspell h).append cs ds
  · exact h.append_left _

end Precedes

/-! ## Numbers -/

theorem digitChar_lt {m n : Nat} (hn : n < 10) (h : m < n) : m.digitChar < n.digitChar := by
  have hdigits : ∀ k < 10, ∀ j < k, j.digitChar < k.digitChar := by decide
  exact hdigits n hn m h

/-- Numbers of equally many digits are spelled in their order. -/
theorem precedes_toDigits {k m n : Nat} (hm : 10 ^ k ≤ m) (hn : n < 10 ^ (k + 1)) (h : m < n) :
    Precedes (Nat.toDigits 10 m) (Nat.toDigits 10 n) := by
  induction k generalizing m n with
  | zero =>
    rw [Nat.toDigits_of_lt_base (by omega), Nat.toDigits_of_lt_base (by omega)]
    exact .here (digitChar_lt (by omega) h)
  | succ k ih =>
    have hpow : 10 ^ (k + 1) = 10 * 10 ^ k := Nat.pow_succ'
    have hpos : 0 < 10 ^ k := Nat.pow_pos (by omega)
    have hnext : 10 ^ (k + 2) = 10 * 10 ^ (k + 1) := Nat.pow_succ'
    have hten : 10 ≤ m := by omega
    rw [Nat.toDigits_of_base_le (by omega) hten,
      Nat.toDigits_of_base_le (by omega) (hten.trans h.le)]
    by_cases htens : m / 10 < n / 10
    · exact (ih (by omega) (by omega) htens).append _ _
    · have hsame : m / 10 = n / 10 := by omega
      rw [hsame]
      exact Precedes.append_left (.here (digitChar_lt (by omega) (by omega))) _

namespace Timestamp

theorem precedes_twoDigits {m n : Nat} (hn : n < 100) (h : m < n) :
    Precedes (twoDigits m).toList (twoDigits n).toList := by
  have hspelled : ∀ k < 100, (twoDigits k).toList = [(k / 10).digitChar, (k % 10).digitChar] := by
    decide +kernel
  rw [hspelled m (by omega), hspelled n hn]
  by_cases htens : m / 10 < n / 10
  · exact .here (digitChar_lt (by omega) htens)
  · have hsame : m / 10 = n / 10 := by omega
    rw [hsame]
    exact .there (.here (digitChar_lt (by omega) (by omega)))

/-! ## The calendar -/

/-- A point in time that the calendar has. -/
structure InCalendar (t : Timestamp) : Prop where
  year : t.year ≤ lastYear
  month : 1 ≤ t.month ∧ t.month ≤ 12
  day : 1 ≤ t.day ∧ t.day ≤ daysInMonth t.year t.month
  hour : t.hour ≤ 23
  minute : t.minute ≤ 59
  second : t.second ≤ 59

theorem daysInMonth_bounds (year month : Nat) :
    1 ≤ daysInMonth year month ∧ daysInMonth year month ≤ 31 := by
  unfold daysInMonth
  split_ifs <;> omega

/-- **The clock ticks within the calendar.** -/
theorem InCalendar.next? {t u : Timestamp} (h : t.InCalendar) (hu : t.next? = some u) :
    u.InCalendar := by
  obtain ⟨hyear, hmonth, hday, hhour, hminute, hsecond⟩ := h
  have hfirst := fun year month => (daysInMonth_bounds year month).1
  unfold Timestamp.next? nextDay? at hu
  split_ifs at hu <;> cases hu <;> constructor <;> dsimp only <;>
    first | omega | exact ⟨Nat.le_refl 1, hfirst _ _⟩

/-- The time so many seconds later, if the calendar has it. -/
def after? (t : Timestamp) : Nat → Option Timestamp
  | 0 => some t
  | n + 1 => t.next?.bind (·.after? n)

theorem after?_add (t : Timestamp) (m n : Nat) :
    t.after? (m + n) = (t.after? m).bind (·.after? n) := by
  induction m generalizing t with
  | zero => rw [Nat.zero_add, after?, Option.bind_some]
  | succ m ih =>
    rw [Nat.add_right_comm, after?, after?]
    cases t.next? with
    | none => rfl
    | some u => exact ih u

theorem InCalendar.after? {t u : Timestamp} {n : Nat} (h : t.InCalendar)
    (hu : t.after? n = some u) : u.InCalendar := by
  induction n generalizing t with
  | zero => rwa [← Option.some.inj hu]
  | succ n ih =>
    obtain ⟨v, hv, hu⟩ := Option.bind_eq_some_iff.mp hu
    exact ih (h.next? hv) hu

/-- Time only goes forward. -/
theorem before_of_after? {t u : Timestamp} {n : Nat} (hu : t.after? (n + 1) = some u) :
    t.Before u := by
  induction n generalizing t with
  | zero =>
    obtain ⟨v, hv, hu⟩ := Option.bind_eq_some_iff.mp hu
    rw [← Option.some.inj hu]
    exact before_next? hv
  | succ n ih =>
    obtain ⟨v, hv, hu⟩ := Option.bind_eq_some_iff.mp hu
    exact (before_next? hv).trans (ih hu)

theorem year_le_of_after? {t u : Timestamp} {n : Nat} (hu : t.after? n = some u) :
    t.year ≤ u.year := by
  cases n with
  | zero => rw [← Option.some.inj hu]
  | succ n =>
    have hbefore := before_of_after? hu
    unfold Before at hbefore
    omega

/-! ## Stamps -/

/-- **An earlier stamp precedes a later one**, if their years have four digits. -/
theorem precedes_stamp {t u : Timestamp} (ht : 1000 ≤ t.year) (hu : u.InCalendar)
    (h : t.Before u) : Precedes t.stamp.toList u.stamp.toList := by
  have hdays := (daysInMonth_bounds u.year u.month).2
  have htoList : ∀ v : Timestamp, v.stamp.toList
      = Nat.toDigits 10 v.year ++ ('_' :: ((twoDigits v.month).toList
        ++ ('_' :: ((twoDigits v.day).toList ++ ('_' :: ((twoDigits v.hour).toList
        ++ ((twoDigits v.minute).toList ++ (twoDigits v.second).toList))))))) := by
    intro v
    unfold stamp
    simp only [String.toList_append, List.append_assoc, ← Nat.toList_repr]
    rfl
  obtain ⟨hyear, hmonth, hday, hhour, hminute, hsecond⟩ := hu
  have hyearDigits : t.year < u.year → Precedes (Nat.toDigits 10 t.year) (Nat.toDigits 10 u.year) :=
    precedes_toDigits (k := 3) ht (Nat.lt_succ_of_le hyear)
  have hpart : ∀ {m n : Nat} {cs ds : List Char}, n < 100 → m < n ∨ m = n ∧ Precedes cs ds →
      Precedes ((twoDigits m).toList ++ cs) ((twoDigits n).toList ++ ds) := by
    intro m n cs ds hn
    exact @Precedes.number cs ds (fun k => (twoDigits k).toList) m n (precedes_twoDigits hn)
  rw [htoList t, htoList u]
  refine Precedes.number hyearDigits (h.imp_right fun ⟨hsame, h⟩ => ⟨hsame, .there ?_⟩)
  refine hpart (by omega) (h.imp_right fun ⟨hsame, h⟩ => ⟨hsame, .there ?_⟩)
  refine hpart (by omega) (h.imp_right fun ⟨hsame, h⟩ => ⟨hsame, .there ?_⟩)
  refine hpart (by omega) (h.imp (·.1) fun ⟨hsame, h⟩ => ⟨hsame, ?_⟩)
  exact hpart (by omega) (h.imp (·.1) fun ⟨hsame, h⟩ => ⟨hsame, precedes_twoDigits (by omega) h⟩)

end Timestamp

/-! ## The files of a schema -/

namespace Migration

open Timestamp

variable {o : Options} {known : List String} {ts : List Table} {files : List GeneratedFile}

/-- Whatever the tables are called. -/
theorem filename_lt_of_before {t u : Timestamp} (ht : 1000 ≤ t.year) (hu : u.InCalendar)
    (h : t.Before u) (a b : String) : filename a t < filename b u := by
  have hprecedes := (precedes_stamp ht hu h).append ("_create_" ++ a ++ "_table.php").toList
    ("_create_" ++ b ++ "_table.php").toList
  have htoList : ∀ (table : String) (v : Timestamp), (filename table v).toList
      = v.stamp.toList ++ ("_create_" ++ table ++ "_table.php").toList := by
    intro table v
    unfold filename
    simp only [String.toList_append, List.append_assoc]
  show (filename a t).toList < (filename b u).toList
  rw [htoList a t, htoList b u]
  exact hprecedes.lt

/-- Each file is the migration of the table at its position, dated as many seconds after the
start. -/
theorem file_of_writeTables {at? : Option Timestamp} (h : writeTables o known at? ts = .ok files) :
    files.length = ts.length ∧ ∀ i, ∀ t ∈ ts[i]?, ∃ at_ ∈ at?.bind (·.after? i),
      ∃ file ∈ files[i]?, writeTable o (some known) at_ t = .ok file := by
  induction ts generalizing at? files with
  | nil =>
    obtain rfl : [] = files := Except.ok.inj (writeTables_nil.symm.trans h)
    exact ⟨rfl, by simp⟩
  | cons table ts ih =>
    obtain ⟨at_, rfl, file, rest, hfile, hrest, rfl⟩ := writeTables_cons_eq_ok.mp h
    obtain ⟨hlength, hfiles⟩ := ih hrest
    refine ⟨congrArg (· + 1) hlength, fun i t ht => ?_⟩
    cases i with
    | zero =>
      obtain rfl : table = t := Option.some.inj ht
      exact ⟨at_, rfl, file, rfl, hfile⟩
    | succ i => exact hfiles i t ht

/-- **File names ascend in the order of the tables**, whatever these are called: the file of each
table is its migration, dated as many seconds after the start as there are tables before it, and the
files are in the code point order of their names. The ticks may lead over the end of any unit of
time. -/
theorem filenames_ascend {startedAt : Timestamp} {s : Schema} (hstart : startedAt.InCalendar)
    (hyear : 1000 ≤ startedAt.year) (h : writeAll o startedAt s = .ok files) :
    (files.map GeneratedFile.filename).Pairwise (· < ·) ∧ files.length = s.tables.length
      ∧ ∀ i, ∀ t ∈ s.tables[i]?, ∃ at_ ∈ startedAt.after? i, ∃ file ∈ files[i]?,
        writeTable o (some s.storageNames) at_ t = .ok file := by
  have hwritten : writeTables o s.storageNames (some startedAt) s.tables = .ok files := by
    unfold writeAll at h
    split at h
    · exact nomatch h
    · exact h
  obtain ⟨hlength, hfiles⟩ := file_of_writeTables hwritten
  have hdated : ∀ i (hi : i < files.length), ∃ at_, startedAt.after? i = some at_
      ∧ files[i].filename = filename files[i].table at_ := by
    intro i hi
    obtain ⟨at_, hat, file, hfile, hwrite⟩ :=
      hfiles i _ (List.getElem?_eq_getElem (hlength ▸ hi))
    obtain rfl : files[i] = file :=
      Option.some.inj ((List.getElem?_eq_getElem hi).symm.trans hfile)
    exact ⟨at_, hat, filename_of_writeTable hwrite⟩
  refine ⟨?_, hlength, hfiles⟩
  rw [List.pairwise_map, List.pairwise_iff_getElem]
  intro i j hi hj hij
  obtain ⟨t, ht, hti⟩ := hdated i hi
  obtain ⟨u, hu, huj⟩ := hdated j hj
  -- the later of the two is reached by ticking on from the earlier
  have hticks : t.after? (j - i - 1 + 1) = some u := by
    have hsum : j = i + (j - i - 1 + 1) := by omega
    rw [hsum, after?_add, ht, Option.bind_some] at hu
    exact hu
  rw [hti, huj]
  exact filename_lt_of_before (hyear.trans (year_le_of_after? ht)) (hstart.after? hu)
    (before_of_after? hticks) _ _

/-- Two tables, the second of which comes first in the alphabet. -/
def zoo : Schema :=
  { tables := [{ name := "Zebra" }, { name := "Ape" }] }

theorem filenames_ascend_zoo :
    ∃ files, writeAll {} ⟨2023, 12, 31, 23, 59, 59⟩ zoo = .ok files
      ∧ (files.map GeneratedFile.filename).Pairwise (· < ·) ∧ files.length = zoo.tables.length
      ∧ ∀ i, ∀ t ∈ zoo.tables[i]?, ∃ at_ ∈ Timestamp.after? ⟨2023, 12, 31, 23, 59, 59⟩ i,
        ∃ file ∈ files[i]?, writeTable {} (some zoo.storageNames) at_ t = .ok file := by
  have hwritten : ∃ files, writeAll {} ⟨2023, 12, 31, 23, 59, 59⟩ zoo = .ok files := ⟨_, rfl⟩
  obtain ⟨files, hfiles⟩ := hwritten
  have hstart : InCalendar ⟨2023, 12, 31, 23, 59, 59⟩ :=
    ⟨by decide, by decide, by decide, by decide, by decide, by decide⟩
  exact ⟨files, hfiles, filenames_ascend hstart (by decide) hfiles⟩

end Migration

end Crowsfoot
