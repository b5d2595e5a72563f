/-
# Civil dates

Days of the proleptic Gregorian calendar. A date carries the proof that its month
exists and has its day, so the day before and the day after need no checks.
-/

namespace OData.Time

/-- A year has a 29th of February. -/
def isLeapYear (year : Int) : Bool :=
  year % 4 == 0 && (year % 100 != 0 || year % 400 == 0)

/-- Number of days of a month, none for a month that does not exist. -/
def daysInMonth (year : Int) : Nat → Nat
  | 1 => 31
  | 2 => if isLeapYear year then 29 else 28
  | 3 => 31
  | 4 => 30
  | 5 => 31
  | 6 => 30
  | 7 => 31
  | 8 => 31
  | 9 => 30
  | 10 => 31
  | 11 => 30
  | 12 => 31
  | _ => 0

/-- A day of the calendar. -/
structure Date where
  /-- The year; year 0 comes before year 1. -/
  year : Int
  /-- The month, counted from 1. -/
  month : Nat
  /-- The day of the month, counted from 1. -/
  day : Nat
  /-- Days are counted from 1. -/
  day_pos : 0 < day
  /-- The month has the day. -/
  day_le : day ≤ daysInMonth year month
  deriving DecidableEq

namespace Date

/-- The date with the given numbers, if the calendar has it. -/
def of? (year : Int) (month day : Nat) : Option Date :=
  if h : 0 < day ∧ day ≤ daysInMonth year month then some ⟨year, month, day, h.1, h.2⟩ else none

/-- The first of January of a year. -/
def newYear (year : Int) : Date := ⟨year, 1, 1, by decide, (by decide : 1 ≤ 31)⟩

/-- The last of December of a year. -/
def yearEnd (year : Int) : Date := ⟨year, 12, 31, by decide, Nat.le_refl 31⟩

/-- The day after. -/
def next (date : Date) : Date :=
  if h : date.day + 1 ≤ daysInMonth date.year date.month then
    ⟨date.year, date.month, date.day + 1, by omega, h⟩
  else if h : 1 ≤ daysInMonth date.year (date.month + 1) then
    ⟨date.year, date.month + 1, 1, by omega, h⟩
  else newYear (date.year + 1)

/-- The day before. -/
def previous (date : Date) : Date :=
  if h : 1 < date.day then
    ⟨date.year, date.month, date.day - 1, by omega, by have := date.day_le; omega⟩
  else if h : 0 < daysInMonth date.year (date.month - 1) then
    ⟨date.year, date.month - 1, daysInMonth date.year (date.month - 1), h, Nat.le_refl _⟩
  else yearEnd (date.year - 1)

/-- Every date lies in one of the twelve months. -/
theorem month_mem (date : Date) : 1 ≤ date.month ∧ date.month ≤ 12 := by
  have pos := date.day_pos
  have le := date.day_le
  unfold daysInMonth at le
  split at le <;> omega

end Date

end OData.Time
