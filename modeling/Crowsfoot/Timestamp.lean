/-!
# Timestamps

Points in time to the second, in the Gregorian calendar. `Timestamp.next?` is the second after one;
there is none after the year 9999.
-/

namespace Crowsfoot

/-- A point in time. -/
structure Timestamp where
  year : Nat
  month : Nat
  day : Nat
  hour : Nat
  minute : Nat
  second : Nat
  deriving Repr, DecidableEq, Inhabited

namespace Timestamp

/-- Whether a year has a 29th of February. -/
def isLeapYear (year : Nat) : Bool :=
  year % 4 == 0 && (year % 100 != 0 || year % 400 == 0)

/-- The number of days of a month. -/
def daysInMonth (year month : Nat) : Nat :=
  if month = 2 then if isLeapYear year then 29 else 28
  else if month = 4 || month = 6 || month = 9 || month = 11 then 30
  else 31

/-- The last year there is. -/
def lastYear : Nat := 9999

/-- The beginning of the next day. -/
def nextDay? (t : Timestamp) : Option Timestamp :=
  if t.day < daysInMonth t.year t.month then some ⟨t.year, t.month, t.day + 1, 0, 0, 0⟩
  else if t.month < 12 then some ⟨t.year, t.month + 1, 1, 0, 0, 0⟩
  else if t.year < lastYear then some ⟨t.year + 1, 1, 1, 0, 0, 0⟩
  else none

/-- The next second. -/
def next? (t : Timestamp) : Option Timestamp :=
  if t.second < 59 then some { t with second := t.second + 1 }
  else if t.minute < 59 then some { t with minute := t.minute + 1, second := 0 }
  else if t.hour < 23 then some { t with hour := t.hour + 1, minute := 0, second := 0 }
  else t.nextDay?

/-- A number below a hundred in two digits. -/
def twoDigits (n : Nat) : String :=
  if n < 10 then "0" ++ toString n else toString n

/-- As in `2024-03-05 14:07:09`. The year is not padded. -/
def readable (t : Timestamp) : String :=
  toString t.year ++ "-" ++ twoDigits t.month ++ "-" ++ twoDigits t.day ++ " " ++ twoDigits t.hour
    ++ ":" ++ twoDigits t.minute ++ ":" ++ twoDigits t.second

/-- As in `2024_03_05_140709`, the beginning of file names. The year is not padded. -/
def stamp (t : Timestamp) : String :=
  toString t.year ++ "_" ++ twoDigits t.month ++ "_" ++ twoDigits t.day ++ "_" ++ twoDigits t.hour
    ++ twoDigits t.minute ++ twoDigits t.second

end Timestamp

end Crowsfoot
