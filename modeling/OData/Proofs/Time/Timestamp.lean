/-
# Timestamps

A timestamp is a local time with any number of digits behind the point, and the zone that
its clock belongs to. It is read as the instant at which such a clock shows this time, so
that the same time written in universal time is read as the same instant, also where the two
differ in their day, month or year.

The texts that are made for an instant, in bodies, keys and filters, have the zone or do not
have it. All of them are read back, and stand for the instant in whole milliseconds; a date
alone stands for its midnight.
-/

import OData.Body.Encode
import OData.Filter.Clause
import OData.Proofs.Time.Calendar
import OData.Proofs.Time.ReadBack

namespace OData.Time

/-! ## Zones -/

/-- The zone of a timestamp. -/
inductive Zone where
  /-- Universal time. -/
  | universal (letter : Char) (isLetter : letter ∈ ['Z', 'z'])
  /-- A clock that is ahead of universal time, or behind it. -/
  | offset (sign : Char) (hours minutes : Nat) (isSign : sign ∈ ['+', '-', '\u2212'])
      (hours_lt : hours < 24) (minutes_lt : minutes < 60)

namespace Zone

/-- The zone is written as universal time. -/
def IsUniversal : Zone → Prop
  | universal _ _ => True
  | offset .. => False

/-- Characters of the form `Z` or `+01:00`. -/
def chars : Zone → List Char
  | universal letter _ => [letter]
  | offset sign hours minutes _ _ _ => sign :: (padded 2 hours ++ ':' :: padded 2 minutes)

/-- The minutes that the clock is ahead of universal time. -/
def ahead : Zone → Int
  | universal _ _ => 0
  | offset sign hours minutes _ _ _ =>
      if sign = '+' then (hours * 60 + minutes : Nat) else -((hours * 60 + minutes : Nat) : Int)

theorem ahead_bounds (zone : Zone) : -1440 < zone.ahead ∧ zone.ahead < 1440 := by
  cases zone with
  | universal letter isLetter =>
      rw [ahead]
      omega
  | offset sign hours minutes isSign hours_lt minutes_lt =>
      rw [ahead]
      split <;> omega

theorem endsFraction_chars (zone : Zone) : EndsFraction zone.chars := by
  have letters : ∀ c ∈ ['Z', 'z', '+', '-', '\u2212'], c.isDigit = false ∧ c ≠ '.' := by
    simp only [List.forall_mem_cons, List.not_mem_nil, false_implies, implies_true, and_true]
    decide
  intro c isHead
  apply letters
  cases zone with
  | universal letter isLetter =>
      obtain rfl := Option.some.inj isHead
      revert isLetter
      simp only [List.mem_cons]
      grind
  | offset sign hours minutes isSign _ _ =>
      obtain rfl := Option.some.inj isHead
      simp only [List.mem_cons] at isSign ⊢
      grind

theorem zone_chars (zone : Zone) : Time.zone zone.chars = some (zone.ahead, []) := by
  cases zone with
  | universal letter isLetter =>
      simp only [List.mem_cons, List.not_mem_nil, or_false] at isLetter
      rcases isLetter with rfl | rfl <;> rfl
  | offset sign hours minutes isSign hours_lt minutes_lt =>
      have hour := twoDigits_padded (n := hours) (by omega) (':' :: padded 2 minutes)
      have minute := twoDigits_padded (n := minutes) (by omega) []
      rw [List.append_nil] at minute
      have inRange : (decide (23 < hours) || decide (59 < minutes)) = false := by
        simp only [Bool.or_eq_false_iff, decide_eq_false_iff_not]
        omega
      have taken (chars : List Char) :
          Text.Reader.oneOf ['Z', 'z', '+', '-', '\u2212'] (sign :: chars) =
            some (sign, chars) := by
        apply if_pos
        simp only [List.contains_iff_mem, List.mem_cons] at isSign ⊢
        exact .inr (.inr isSign)
      rw [Time.zone, chars, reader_then (taken _)]
      split
      · exact absurd isSign (by decide)
      · exact absurd isSign (by decide)
      · rw [reader_then hour, reader_then (char_cons ':' _), reader_then minute, inRange]
        rfl

end Zone

/-! ## Timestamps with a zone -/

/-- A timestamp as it is written: a local time, and the zone that it is the time of. -/
structure Timestamp extends LocalTime where
  separator : Char
  zone : Zone
  isSeparator : separator ∈ ['T', 't', ' ']

namespace Timestamp

/-- The text of the timestamp. -/
def text (stamp : Timestamp) : String :=
  String.ofList (stamp.toLocalTime.chars stamp.separator ++ stamp.zone.chars)

/-- The seconds up to the timestamp, counted in universal time. -/
def seconds (stamp : Timestamp) : Int :=
  stamp.date.number * 86400 + stamp.secondOfDay - 60 * stamp.zone.ahead

/-- The instant at which a clock of the zone shows the time. -/
def instant (stamp : Timestamp) : Instant :=
  stamp.toLocalTime.instant.atOffset stamp.zone.ahead

theorem seconds_instant (stamp : Timestamp) : stamp.instant.seconds = stamp.seconds := by
  obtain ⟨low, high⟩ := stamp.zone.ahead_bounds
  rw [instant, Instant.seconds_atOffset _ low high]
  rfl

/-- Two timestamps stand for the same time: as many seconds have passed in universal time, both
or none are in a leap second, and they have the same fraction. -/
structure SameTime (first second : Timestamp) : Prop where
  seconds : first.seconds = second.seconds
  leap : first.leap = second.leap
  fraction : nanosecondsOf first.fraction = nanosecondsOf second.fraction

theorem SameTime.instant {first second : Timestamp} (same : first.SameTime second) :
    first.instant = second.instant := by
  apply Instant.eq_of_seconds
  · rw [seconds_instant, seconds_instant, same.seconds]
  · show first.toLocalTime.nanosecond = second.toLocalTime.nanosecond
    rw [LocalTime.nanosecond, LocalTime.nanosecond, same.leap, same.fraction]

/-- A timestamp is read as its instant. -/
theorem readInstant?_stamp (stamp : Timestamp) :
    readInstant? stamp.text = some stamp.instant := by
  have whole : Text.Reader.wholly zonedTimestamp
      (stamp.toLocalTime.chars stamp.separator ++ stamp.zone.chars) = some stamp.instant := by
    rw [Text.Reader.wholly, reader_bind,
      stamp.toLocalTime.zonedTimestamp_chars stamp.isSeparator stamp.zone.endsFraction_chars,
      stamp.zone.zone_chars]
    rfl
  rw [readInstant?, text, String.toList_ofList, whole]
  rfl

/-- The timestamp written in universal time, if its year is one of four digits there. -/
theorem exists_universal (stamp : Timestamp) (plain : stamp.instant.date.HasPlainYear) :
    ∃ other : Timestamp, other.zone.IsUniversal ∧ other.fraction = stamp.fraction ∧
      stamp.SameTime other := by
  have moved := stamp.seconds_instant
  have ofDay := stamp.instant.second_lt
  have second_lt := stamp.second_sub_leap_lt
  simp only [secondsPerDay] at ofDay
  -- Zones differ by whole minutes, so a leap second stays the last one of its minute.
  have lastSecond : stamp.leap = 1 → stamp.instant.second % 60 = 59 := by
    intro isLeap
    have isSixty : stamp.second = 60 := by
      rw [LocalTime.leap] at isLeap
      split at isLeap
      · assumption
      · cases isLeap
    simp only [Instant.seconds, seconds, LocalTime.secondOfDay, isLeap, isSixty] at moved
    omega
  have leap_le : stamp.leap ≤ 1 := by
    rw [LocalTime.leap]
    split <;> omega
  let other : Timestamp := {
    date := stamp.instant.date
    hour := stamp.instant.second / 60 / 60
    minute := stamp.instant.second / 60 % 60
    second := stamp.instant.second % 60 + stamp.leap
    fraction := stamp.fraction
    plainYear := plain
    hour_lt := by omega
    minute_lt := by omega
    second_le := by omega
    areDigits := stamp.areDigits
    separator := 'T'
    zone := .universal 'Z' (by decide)
    isSeparator := by decide }
  have leap : other.leap = stamp.leap := by
    show (if stamp.instant.second % 60 + stamp.leap = 60 then 1 else 0) = stamp.leap
    split <;> omega
  refine ⟨other, trivial, rfl, ?_, leap.symm, rfl⟩
  have secondOfDay : other.secondOfDay = stamp.instant.second := by
    rw [LocalTime.secondOfDay, leap]
    show (stamp.instant.second / 60 / 60 * 60 + stamp.instant.second / 60 % 60) * 60 +
      (stamp.instant.second % 60 + stamp.leap - stamp.leap) = stamp.instant.second
    omega
  rw [← moved, seconds, secondOfDay]
  show _ = stamp.instant.date.number * 86400 + (stamp.instant.second : Int) - 60 * 0
  rw [Instant.seconds]
  omega

end Timestamp

/-! ## Texts of instants -/

namespace Instant

variable {instant : Instant}

/-- The texts made for an instant, in bodies, keys and filters, are read as the instant cut to
whole milliseconds; those made for it as a date are read as the midnight of its day. -/
structure ReadsBack (instant : Instant) : Prop where
  body : ∀ field : Option Field, field.map Field.type ≠ some .date →
    ∃ text, Body.scalarToJson field (.instant instant) = .ok (.string text) ∧
      readInstant? text = some instant.truncated
  key : ∀ type : ValueType, type ≠ .date →
    readInstant? (type.scalarText (.instant instant)) = some instant.truncated
  literal : Filter.Literal.expression (some (.instant instant)) =
      (Scalar.instant instant).plain ++ "Z" ∧
    readInstant? (Filter.Literal.expression (some (.instant instant))) = some instant.truncated
  dateBody : ∀ field : Field, field.type = .date →
    ∃ text, Body.scalarToJson (some field) (.instant instant) = .ok (.string text) ∧
      readInstant? text = some (midnight instant.date)
  dateKey : readInstant? (ValueType.date.scalarText (.instant instant)) =
    some (midnight instant.date)

theorem readsBack (noLeap : instant.isLeapSecond = false) (plain : instant.date.HasPlainYear) :
    instant.ReadsBack where
  body field noDate := by
    refine ⟨instant.zonedText, ?_, readInstant?_zonedText noLeap plain⟩
    rw [Body.scalarToJson]
    split
    · rename_i isDate
      exact absurd isDate noDate
    · rfl
  key type noDate := by
    rw [ValueType.scalarText]
    · exact readInstant?_localText noLeap plain
    · exact fun _ isDate _ => noDate isDate
  literal := by
    refine ⟨?_, readInstant?_zonedText noLeap plain⟩
    rw [← String.toList_inj]
    simp [Filter.Literal.expression, zonedText, Scalar.plain, text]
  dateBody field isDate := by
    refine ⟨instant.date.text, ?_, readInstant?_text plain⟩
    rw [Body.scalarToJson, Option.map_some, isDate]
  dateKey := readInstant?_text plain

end Instant

/-- Outside leap seconds and in the years 0 to 9999, every text that is made for an instant is
read as that instant in whole milliseconds, or as the midnight of its day where a date was
wanted. And every timestamp is read as the instant at which a clock of its zone shows its
time, which is that of every timestamp in universal time for the same time; there is one if
its year has four digits. -/
theorem times_read_back :
    (∀ instant : Instant, instant.isLeapSecond = false → instant.date.HasPlainYear →
      instant.ReadsBack) ∧
    ∀ stamp : Timestamp, ∃ instant, readInstant? stamp.text = some instant ∧
      instant.seconds = stamp.seconds ∧ instant.nanosecond = stamp.nanosecond ∧
      (∀ other : Timestamp, other.zone.IsUniversal → stamp.SameTime other →
        readInstant? other.text = readInstant? stamp.text) ∧
      (instant.date.HasPlainYear → ∃ other : Timestamp, other.zone.IsUniversal ∧
        other.fraction = stamp.fraction ∧ stamp.SameTime other) := by
  refine ⟨fun instant noLeap plain => instant.readsBack noLeap plain, fun stamp => ?_⟩
  refine ⟨stamp.instant, stamp.readInstant?_stamp, stamp.seconds_instant, rfl, ?_,
    stamp.exists_universal⟩
  intro other _ same
  rw [other.readInstant?_stamp, stamp.readInstant?_stamp, same.instant]

/-- The last instant of a leap day. -/
def leapDayEnd : Instant :=
  ⟨⟨2024, 2, 29, by decide, by decide⟩, 86399, 999999999, by decide, by decide⟩

/-- Half an hour before a new year, where the clock is an hour behind universal time. -/
def lateInDecember : Timestamp where
  date := .yearEnd 1999
  hour := 23
  minute := 30
  second := 0
  fraction := ['5']
  plainYear := by decide
  hour_lt := by decide
  minute_lt := by decide
  second_le := by decide
  areDigits := List.all_eq_true.mp rfl
  separator := 'T'
  zone := .offset '-' 1 0 (List.mem_cons_of_mem _ List.mem_cons_self) (by decide) (by decide)
  isSeparator := List.mem_cons_self

/-- The same time in universal time, in the next year already. -/
def earlyInJanuary : Timestamp where
  date := .newYear 2000
  hour := 0
  minute := 30
  second := 0
  fraction := ['5', '0']
  plainYear := by decide
  hour_lt := by decide
  minute_lt := by decide
  second_le := by decide
  areDigits := List.all_eq_true.mp rfl
  separator := 'T'
  zone := .universal 'Z' List.mem_cons_self
  isSeparator := List.mem_cons_self

theorem times_read_back_over_new_year :
    leapDayEnd.isLeapSecond = false ∧ leapDayEnd.date.HasPlainYear ∧
      (Scalar.instant leapDayEnd).plain = "2024-02-29T23:59:59.999" ∧
      readInstant? "2024-02-29T23:59:59.999" = some leapDayEnd.truncated ∧
      lateInDecember.text = "1999-12-31T23:30:00.5-01:00" ∧
      earlyInJanuary.text = "2000-01-01T00:30:00.50Z" ∧
      readInstant? earlyInJanuary.text = readInstant? lateInDecember.text := by
  have noLeap : leapDayEnd.isLeapSecond = false := by decide
  have plain : leapDayEnd.date.HasPlainYear := by decide
  have text : (Scalar.instant leapDayEnd).plain = "2024-02-29T23:59:59.999" := by decide +kernel
  have key := (times_read_back.1 leapDayEnd noLeap plain).key .dateTime nofun
  have same : lateInDecember.SameTime earlyInJanuary := ⟨by decide, by decide, by decide⟩
  obtain ⟨-, -, -, -, agrees, -⟩ := times_read_back.2 lateInDecember
  exact ⟨noLeap, plain, text, text ▸ key, by decide +kernel, by decide +kernel,
    agrees earlyInJanuary trivial same⟩

end OData.Time
