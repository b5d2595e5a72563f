/-
# Counting days and seconds

Days are numbered through, so that the day after has the next number and the day before the
one before, over the ends of months, of years and of leap years. The number tells the date.
An instant has so a number of seconds, and moving it to universal time subtracts what its
clock is ahead.
-/

import OData.Time.Instant
import Mathlib.Order.Monotone.Basic
import Mathlib.Tactic.IntervalCases

namespace OData.Time

/-! ## Days -/

/-- Days of the years before a year, from year 0 on. -/
def daysBeforeYear (year : Int) : Int :=
  365 * year + (year + 3) / 4 - (year + 99) / 100 + (year + 399) / 400

/-- Days of a year. -/
def daysInYear (year : Int) : Nat := if isLeapYear year then 366 else 365

theorem daysBeforeYear_succ (year : Int) :
    daysBeforeYear (year + 1) = daysBeforeYear year + daysInYear year := by
  unfold daysBeforeYear daysInYear isLeapYear
  simp only [Bool.and_eq_true, Bool.or_eq_true, beq_iff_eq, bne_iff_ne, ne_eq]
  split <;> omega

theorem daysBeforeYear_le {first second : Int} (before : first ≤ second) :
    daysBeforeYear first ≤ daysBeforeYear second := by
  have grows : Monotone daysBeforeYear := by
    refine monotone_int_of_le_succ fun year => ?_
    rw [daysBeforeYear_succ]
    omega
  exact grows before

/-- Days of the months of a year before a month. -/
def daysBeforeMonth (year : Int) : Nat → Nat
  | 0 => 0
  | month + 1 => daysBeforeMonth year month + daysInMonth year month

theorem daysBeforeMonth_le (year : Int) {first second : Nat} (before : first ≤ second) :
    daysBeforeMonth year first ≤ daysBeforeMonth year second :=
  monotone_nat_of_le_succ (fun _ => Nat.le_add_right _ _) before

theorem daysInMonth_pos (year : Int) {month : Nat} (low : 1 ≤ month) (high : month ≤ 12) :
    0 < daysInMonth year month := by
  interval_cases month <;> rw [daysInMonth]
  case «2» => split <;> decide
  all_goals decide

/-- The months of a year make up its days. -/
theorem daysBeforeMonth_thirteen (year : Int) : daysBeforeMonth year 13 = daysInYear year := by
  simp only [daysBeforeMonth, daysInMonth, daysInYear]
  split <;> rfl

namespace Date

/-- The number of a day; the first of January of year 0 has number 1. -/
def number (date : Date) : Int :=
  daysBeforeYear date.year + (daysBeforeMonth date.year date.month + date.day : Nat)

theorem daysBeforeMonth_lt (date : Date) :
    daysBeforeMonth date.year date.month < daysBeforeMonth date.year date.month + date.day ∧
      daysBeforeMonth date.year date.month + date.day ≤
        daysBeforeMonth date.year (date.month + 1) :=
  ⟨Nat.lt_add_of_pos_right date.day_pos, Nat.add_le_add_left date.day_le _⟩

/-- The days of a year have the numbers behind those of the years before. -/
theorem number_bounds (date : Date) :
    daysBeforeYear date.year < date.number ∧
      date.number ≤ daysBeforeYear (date.year + 1) := by
  obtain ⟨low, high⟩ := date.daysBeforeMonth_lt
  have inYear : daysBeforeMonth date.year (date.month + 1) ≤ daysInYear date.year := by
    rw [← daysBeforeMonth_thirteen]
    have month := date.month_mem
    exact daysBeforeMonth_le _ (by omega)
  rw [number, daysBeforeYear_succ]
  omega

/-- Days of an earlier year have smaller numbers. -/
theorem number_lt_of_year_lt {first second : Date} (before : first.year < second.year) :
    first.number < second.number :=
  calc first.number ≤ daysBeforeYear (first.year + 1) := first.number_bounds.2
    _ ≤ daysBeforeYear second.year := daysBeforeYear_le before
    _ < second.number := second.number_bounds.1

/-- Days of an earlier month of the same year have smaller numbers. -/
theorem number_lt_of_month_lt {first second : Date} (sameYear : first.year = second.year)
    (before : first.month < second.month) : first.number < second.number := by
  have between := daysBeforeMonth_le second.year (show first.month + 1 ≤ second.month from before)
  have ends := first.daysBeforeMonth_lt.2
  have begins := second.daysBeforeMonth_lt.1
  rw [sameYear] at ends
  rw [number, number, sameYear]
  omega

/-- The number tells the date. -/
theorem number_injective : Function.Injective number := by
  intro first second same
  have sameYear : first.year = second.year := by
    rcases lt_trichotomy first.year second.year with before | sameYear | after
    · exact absurd same (number_lt_of_year_lt before).ne
    · exact sameYear
    · exact absurd same.symm (number_lt_of_year_lt after).ne
  have sameMonth : first.month = second.month := by
    rcases lt_trichotomy first.month second.month with before | sameMonth | after
    · exact absurd same (number_lt_of_month_lt sameYear before).ne
    · exact sameMonth
    · exact absurd same.symm (number_lt_of_month_lt sameYear.symm after).ne
  have sameDay : first.day = second.day := by
    rw [number, number, sameYear, sameMonth] at same
    omega
  cases first
  cases second
  simp only at sameYear sameMonth sameDay
  subst sameYear sameMonth sameDay
  rfl

theorem number_newYear (year : Int) : (newYear year).number = daysBeforeYear year + 1 := rfl

theorem number_yearEnd (year : Int) : (yearEnd year).number = daysBeforeYear (year + 1) := by
  have december : daysBeforeMonth year 12 + 31 = daysInYear year :=
    daysBeforeMonth_thirteen year
  rw [number, daysBeforeYear_succ, ← december]
  rfl

/-- Only the days of December have no month behind theirs. -/
theorem month_eq_twelve {date : Date}
    (noNext : ¬1 ≤ daysInMonth date.year (date.month + 1)) : date.month = 12 := by
  have range := date.month_mem
  by_contra isOther
  exact noNext (daysInMonth_pos date.year (by omega) (by omega))

theorem month_eq_one {date : Date}
    (noPrevious : ¬0 < daysInMonth date.year (date.month - 1)) : date.month = 1 := by
  have range := date.month_mem
  by_contra isOther
  exact noPrevious (daysInMonth_pos date.year (by omega) (by omega))

/-- The day after has the next number. -/
theorem number_next (date : Date) : date.next.number = date.number + 1 := by
  unfold next
  split
  · simp only [number]
    omega
  · rename_i isLast
    have isEnd : date.day = daysInMonth date.year date.month := by
      have le := date.day_le
      omega
    split
    · simp only [number, daysBeforeMonth]
      omega
    · rename_i noNext
      have isDecember := month_eq_twelve noNext
      have whole : date.number = daysBeforeYear (date.year + 1) := by
        rw [← number_yearEnd, number, number, isEnd, isDecember]
        rfl
      rw [number_newYear, whole]

/-- The day before has the number before. -/
theorem number_previous (date : Date) : date.previous.number = date.number - 1 := by
  unfold previous
  split
  · simp only [number]
    omega
  · rename_i notLater
    have isFirst : date.day = 1 := by
      have pos := date.day_pos
      omega
    split
    · have month := date.month_mem
      have days : daysBeforeMonth date.year date.month =
          daysBeforeMonth date.year (date.month - 1) +
            daysInMonth date.year (date.month - 1) := by
        rw [← daysBeforeMonth, Nat.succ_eq_add_one, Nat.sub_add_cancel month.1]
      simp only [number, days]
      omega
    · rename_i noPrevious
      have isJanuary := month_eq_one noPrevious
      have whole : date.number = daysBeforeYear date.year + 1 := by
        rw [← number_newYear, number, number, isFirst, isJanuary]
        rfl
      rw [number_yearEnd, whole]
      simp

end Date

/-! ## Seconds -/

namespace Instant

/-- The seconds up to an instant; a leap second counts as the second before it. -/
def seconds (instant : Instant) : Int := instant.date.number * 86400 + instant.second

/-- Seconds and fraction tell the instant. -/
theorem eq_of_seconds {first second : Instant} (sameSeconds : first.seconds = second.seconds)
    (sameFraction : first.nanosecond = second.nanosecond) : first = second := by
  have firstOfDay := first.second_lt
  have secondOfDay := second.second_lt
  simp only [secondsPerDay] at firstOfDay secondOfDay
  unfold seconds at sameSeconds
  have sameDate : first.date = second.date := Date.number_injective (by omega)
  have sameSecond : first.second = second.second := by
    rw [sameDate] at sameSeconds
    omega
  cases first
  cases second
  simp only at sameDate sameSecond sameFraction
  subst sameDate sameSecond sameFraction
  rfl

/-- A clock that is ahead of universal time shows as many seconds more. -/
theorem seconds_atOffset (instant : Instant) {minutes : Int} (low : -1440 < minutes)
    (high : minutes < 1440) :
    (instant.atOffset minutes).seconds = instant.seconds - 60 * minutes := by
  have ofDay := instant.second_lt
  simp only [secondsPerDay] at ofDay
  simp only [seconds, atOffset, secondsPerDay, Int.ofNat_eq_natCast]
  split
  · rw [Date.number_previous]
    omega
  · split
    · omega
    · rw [Date.number_next]
      omega

end Instant

end OData.Time
