/-
# Reading dates and times

Three grammars are tried in order: the strict timestamp with a zone, the lenient
timestamp without one, taken as universal time, and the plain date. The lenient
two allow blanks before numbers, short numbers and signed years.
-/

import OData.Text.Reader
import OData.Time.Instant

namespace OData.Time

open Text (Reader)
open Text.Reader

/-- A number of at most two digits after any blanks. -/
def shortNumber : Reader Nat := do
  blanks
  number 1 2

/-- A year after any blanks: four digits at most, or any number after a sign. -/
def signedYear : Reader Int := do
  blanks
  match ← get with
  | '-' :: rest => set rest; return -(Int.ofNat (← allDigits))
  | '+' :: rest => set rest; return Int.ofNat (← allDigits)
  | _ => return Int.ofNat (← number 1 4)

/-- An optional fraction of a second in nanoseconds: a point and at least one
digit, of which the first nine count. -/
def fraction : Reader Nat := do
  match ← get with
  | '.' :: rest =>
      let digits := rest.takeWhile Char.isDigit
      set rest
      let value ← number 1 9
      set (rest.dropWhile Char.isDigit)
      return value * Nat.pow 10 (9 - min 9 digits.length)
  | _ => return 0

/-- The years that dates can have. -/
def yearInRange (year : Int) : Bool := -262143 ≤ year && year ≤ 262142

/-- The date with the given numbers, in the years that dates can have. -/
def dateOf? (year : Int) (month day : Nat) : Option Date :=
  if yearInRange year then Date.of? year month day else none

/-- The instant of a date and a clock reading; second 60 is a leap second. -/
def instantOf? (date : Date) (hour minute second fraction : Nat) : Option Instant :=
  let leap := if second = 60 then 1 else 0
  let total := (hour * 60 + minute) * 60 + (second - leap)
  let nanosecond := fraction + leap * nanosPerSecond
  if h : hour < 24 ∧ minute < 60 ∧ second ≤ 60 ∧ total < secondsPerDay ∧
      nanosecond < 2 * nanosPerSecond then
    some ⟨date, total, nanosecond, h.2.2.2.1, h.2.2.2.2⟩
  else none

/-- Zone of a timestamp in minutes ahead of universal time: `Z`, or a sign, two
digits of hours, a colon and two digits of minutes. -/
def zone : Reader Int := do
  match ← oneOf ['Z', 'z', '+', '-', '\u2212'] with
  | 'Z' | 'z' => return 0
  | sign =>
      let hours ← number 2 2
      char ':'
      let minutes ← number 2 2
      if 23 < hours || 59 < minutes then failure
      let ahead : Int := Int.ofNat (hours * 60 + minutes)
      return if sign = '+' then ahead else -ahead

/-- A strict timestamp with a zone. -/
def zonedTimestamp : Reader Instant := do
  let year ← number 4 4
  char '-'
  let month ← number 2 2
  char '-'
  let day ← number 2 2
  let _ ← oneOf ['T', 't', ' ']
  let hour ← number 2 2
  char ':'
  let minute ← number 2 2
  char ':'
  let second ← number 2 2
  let nanosecond ← fraction
  let ahead ← zone
  let date ← dateOf? year month day
  let clock ← instantOf? date hour minute second nanosecond
  return clock.atOffset ahead

/-- A lenient date. -/
def plainDate : Reader Date := do
  let year ← signedYear
  char '-'
  let month ← shortNumber
  char '-'
  let day ← shortNumber
  dateOf? year month day

/-- A lenient timestamp without a zone, taken as universal time. -/
def plainTimestamp : Reader Instant := do
  let date ← plainDate
  char 'T'
  let hour ← shortNumber
  char ':'
  let minute ← shortNumber
  char ':'
  let second ← shortNumber
  let nanosecond ← fraction
  instantOf? date hour minute second nanosecond

/-- The instant that a text stands for, by the first grammar that reads all of it. -/
def readInstant? (text : String) : Option Instant :=
  let chars := text.toList
  (wholly zonedTimestamp chars).orElse fun _ =>
    (wholly plainTimestamp chars).orElse fun _ =>
      (wholly plainDate chars).map Instant.midnight

/-- The instant of a strict timestamp with a zone. -/
def readZoned? (text : String) : Option Instant :=
  wholly zonedTimestamp text.toList

end OData.Time
