/-
# Instants

Moments of coordinated universal time: a date, a second of its day and a
fraction. A leap second is the second before it with a fraction past one whole
second, and is written with the number 60.
-/

import OData.Time.Date

namespace OData.Time

/-- Seconds of a day. -/
abbrev secondsPerDay : Nat := 86400

/-- Nanoseconds of a second. -/
abbrev nanosPerSecond : Nat := 1000000000

/-- A moment of coordinated universal time. -/
structure Instant where
  /-- The day. -/
  date : Date
  /-- Seconds since midnight. -/
  second : Nat
  /-- Nanoseconds since that second, a whole second or more in a leap second. -/
  nanosecond : Nat
  /-- The second lies in the day. -/
  second_lt : second < secondsPerDay
  /-- A leap second adds at most one second. -/
  nanosecond_lt : nanosecond < 2 * nanosPerSecond
  deriving DecidableEq

/-- Decimal digits of a number, zeros in front up to the given width. -/
def padded (width n : Nat) : List Char :=
  let digits := Nat.toDigits 10 n
  List.replicate (width - digits.length) '0' ++ digits

/-- A year is written with at least four digits, and with a sign when it lies
outside 0 to 9999. -/
def yearChars (year : Int) : List Char :=
  if year < 0 then '-' :: padded 4 year.natAbs
  else if 9999 < year then '+' :: padded 4 year.natAbs
  else padded 4 year.natAbs

namespace Date

/-- Characters of the form `2020-01-02`. -/
def chars (date : Date) : List Char :=
  yearChars date.year ++ '-' :: padded 2 date.month ++ '-' :: padded 2 date.day

/-- Text of the form `2020-01-02`. -/
def text (date : Date) : String := String.ofList date.chars

end Date

namespace Instant

/-- The instant falls into a leap second. -/
def isLeapSecond (instant : Instant) : Bool := nanosPerSecond ≤ instant.nanosecond

/-- The first instant of a day. -/
def midnight (date : Date) : Instant := ⟨date, 0, 0, by decide, by decide⟩

/-- Characters of the time of day, with the given number of decimal places. Places
that do not fit are cut off, never rounded. -/
def clockChars (places : Nat) (instant : Instant) : List Char :=
  let minute := instant.second / 60
  let shown := instant.second % 60 + instant.nanosecond / nanosPerSecond
  let fraction := instant.nanosecond % nanosPerSecond / Nat.pow 10 (9 - places)
  padded 2 (minute / 60) ++ ':' :: padded 2 (minute % 60) ++ ':' :: padded 2 shown ++
    '.' :: padded places fraction

/-- Characters of the form `2020-01-02T03:04:05.000`, without a zone. -/
def chars (places : Nat) (instant : Instant) : List Char :=
  instant.date.chars ++ 'T' :: instant.clockChars places

/-- Text without a zone, in whole milliseconds: the form of keys. -/
def text (instant : Instant) : String := String.ofList (instant.chars 3)

/-- Text with the zone `Z`, in whole milliseconds: the form of bodies and of
filter literals. -/
def zonedText (instant : Instant) : String := String.ofList (instant.chars 3 ++ ['Z'])

/-- Text with the zone `Z` and every digit of the fraction. -/
def exactText (instant : Instant) : String := String.ofList (instant.chars 9 ++ ['Z'])

/-- The instant of a local time whose clock is `minutes` ahead of universal time,
by less than a day. The fraction, a leap second's too, is kept. -/
def atOffset (instant : Instant) (minutes : Int) : Instant :=
  let moved : Int := Int.ofNat instant.second - 60 * minutes
  let date :=
    if moved < 0 then instant.date.previous
    else if moved < secondsPerDay then instant.date
    else instant.date.next
  ⟨date, (moved % 86400).toNat, instant.nanosecond, by simp only [secondsPerDay]; omega,
    instant.nanosecond_lt⟩

end Instant

end OData.Time
