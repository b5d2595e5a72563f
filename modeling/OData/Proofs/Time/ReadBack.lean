/-
# Times read back

The written forms of dates and instants are read as what they were written from,
up to the digits that were cut off. An instant with a zone is read by the first grammar.
One without a zone is read by the second, since the first misses the zone at its end, and
a date by the third: the two grammars before it take its characters and then miss the clock.

All of them show a local time, which may have any number of digits behind the point. This
holds for the years 0 to 9999, which are written without a sign, and outside leap seconds.
-/

import OData.Time.Reader
import Mathlib.Algebra.Ring.Nat

namespace OData

open Text (Reader)

/-! ## Readers on written characters -/

theorem reader_bind {α β : Type} (reader : Reader α) (next : α → Reader β) (chars : List Char) :
    (reader >>= next) chars = (reader chars).bind fun taken => next taken.1 taken.2 := rfl

/-- What one reader leaves is where the next one goes on. -/
theorem reader_then {α β : Type} {reader : Reader α} {next : α → Reader β}
    {chars rest : List Char} {value : α} (read : reader chars = some (value, rest)) :
    (reader >>= next) chars = next value rest := by
  rw [reader_bind, read]
  rfl

theorem reader_pure {α : Type} (value : α) (chars : List Char) :
    (pure value : Reader α) chars = some (value, chars) := rfl

theorem reader_lift {α : Type} (found : Option α) (chars : List Char) :
    (liftM found : Reader α) chars = found.map fun value => (value, chars) := by
  cases found <;> rfl

theorem char_cons (c : Char) (rest : List Char) :
    Text.Reader.char c (c :: rest) = some ((), rest) := if_pos rfl

/-- Digits are taken up to the greatest number of them, or to the first other
character. -/
theorem number_digits {digits : List Char} (areDigits : ∀ c ∈ digits, c.isDigit = true)
    {least greatest : Nat} (rest : List Char) (enough : least ≤ digits.length)
    (stops : digits.length = greatest ∨
      digits.length ≤ greatest ∧ rest.takeWhile Char.isDigit = []) :
    Text.Reader.number least greatest (digits ++ rest) =
      some (Nat.ofDigitChars 10 digits 0, rest) := by
  have taken : ((digits ++ rest).takeWhile Char.isDigit).take greatest = digits := by
    rw [List.takeWhile_append_of_pos areDigits]
    rcases stops with exact | ⟨fits, stops⟩
    · rw [← exact, List.take_left]
    · rw [stops, List.append_nil, List.take_of_length_le fits]
  have value : digits.foldl (fun n c => n * 10 + (c.toNat - 48)) 0 =
      Nat.ofDigitChars 10 digits 0 := by
    rw [Nat.ofDigitChars_eq_foldl]
    congr 1
    funext n c
    rw [Nat.mul_comm]
    rfl
  simp only [Text.Reader.number, taken, value, if_neg (Nat.not_lt.mpr enough), List.drop_left]

namespace Time

theorem isDigit_padded {width n : Nat} : ∀ c ∈ padded width n, c.isDigit = true := by
  intro c isMember
  rcases List.mem_append.mp isMember with isZero | isDigit
  · rw [List.eq_of_mem_replicate isZero]
    decide
  · exact Nat.isDigit_of_mem_toDigits (by decide) (by decide) isDigit

theorem length_padded {width n : Nat} (some : 0 < width) (fits : n < 10 ^ width) :
    (padded width n).length = width := by
  have short := (Nat.length_toDigits_le_iff (by decide) some).mpr fits
  simp only [padded, List.length_append, List.length_replicate]
  omega

theorem ofDigitChars_padded (width n : Nat) : Nat.ofDigitChars 10 (padded width n) 0 = n := by
  rw [padded, Nat.ofDigitChars_append, Nat.ofDigitChars_replicate_zero, Nat.mul_zero,
    Nat.ofDigitChars_ten_toDigits]

/-- A number that is written with as many digits as are taken is read as itself. -/
theorem number_padded {least width n : Nat} (some : 0 < width) (enough : least ≤ width)
    (fits : n < 10 ^ width) (rest : List Char) :
    Text.Reader.number least width (padded width n ++ rest) = Option.some (n, rest) := by
  have length := length_padded some fits
  have read := number_digits isDigit_padded rest (length ▸ enough) (.inl length)
  rw [ofDigitChars_padded] at read
  exact read

theorem twoDigits_padded {n : Nat} (fits : n < 100) (rest : List Char) :
    Text.Reader.number 2 2 (padded 2 n ++ rest) = some (n, rest) :=
  number_padded (by decide) (by decide) fits rest

theorem fourDigits_padded {n : Nat} (fits : n < 10000) (rest : List Char) :
    Text.Reader.number 4 4 (padded 4 n ++ rest) = some (n, rest) :=
  number_padded (by decide) (by decide) fits rest

theorem isBlank_of_isDigit {c : Char} (isDigit : c.isDigit = true) : Text.isBlank c = false := by
  have apart : ∀ range ∈ Text.blankRanges, range.2 < 48 ∨ 57 < range.1 := by decide
  have bounds : 48 ≤ c.toNat ∧ c.toNat ≤ 57 := by
    simp only [Char.isDigit, Bool.and_eq_true, decide_eq_true_eq] at isDigit
    exact isDigit
  rw [Text.isBlank, List.any_eq_false]
  intro range isMember inside
  simp only [Bool.and_eq_true, decide_eq_true_eq] at inside
  rcases apart range isMember with below | above <;> omega

/-- Written numbers begin with a digit. -/
theorem padded_eq_cons (width n : Nat) :
    ∃ c rest, padded width n = c :: rest ∧ c.isDigit = true := by
  cases chars : padded width n with
  | nil =>
      have empty := (List.append_eq_nil_iff.mp chars).2
      exact absurd empty Nat.toDigits_ne_nil
  | cons c rest =>
      have isMember : c ∈ padded width n := by
        rw [chars]
        exact List.mem_cons_self
      exact ⟨c, rest, rfl, isDigit_padded c isMember⟩

theorem blanks_padded (width n : Nat) (rest : List Char) :
    Text.Reader.blanks (padded width n ++ rest) = some ((), padded width n ++ rest) := by
  obtain ⟨c, more, chars, isDigit⟩ := padded_eq_cons width n
  rw [chars, Text.Reader.blanks, List.cons_append, List.dropWhile_cons_of_neg]
  rw [isBlank_of_isDigit isDigit]
  exact Bool.false_ne_true

theorem shortNumber_padded {n : Nat} (fits : n < 100) (rest : List Char) :
    shortNumber (padded 2 n ++ rest) = some (n, rest) := by
  rw [shortNumber, reader_then (blanks_padded 2 n rest)]
  exact number_padded (by decide) (by decide) fits rest

theorem signedYear_padded {n : Nat} (fits : n < 10000) (rest : List Char) :
    signedYear (padded 4 n ++ rest) = some ((n : Int), rest) := by
  have unsigned : signedYear (padded 4 n ++ rest) =
      (Text.Reader.number 1 4 (padded 4 n ++ rest)).map fun taken =>
        (Int.ofNat taken.1, taken.2) := by
    obtain ⟨c, more, chars, isDigit⟩ := padded_eq_cons 4 n
    rw [signedYear, reader_bind, blanks_padded, Option.bind_some, chars]
    have noMinus : c ≠ '-' := by
      intro same
      rw [same] at isDigit
      exact absurd isDigit (by decide)
    have noPlus : c ≠ '+' := by
      intro same
      rw [same] at isDigit
      exact absurd isDigit (by decide)
    have current (chars : List Char) : (get : Reader (List Char)) chars = some (chars, chars) :=
      rfl
    rw [reader_bind, current, Option.bind_some]
    simp only [List.cons_append, List.cons.injEq, noMinus, noPlus, false_and, imp_self,
      implies_true, reader_bind]
    cases Text.Reader.number 1 4 (c :: (more ++ rest)) <;> rfl
  rw [unsigned, number_padded (by decide) (by decide) fits]
  rfl

theorem zone_utc (rest : List Char) : zone ('Z' :: rest) = some (0, rest) := rfl

/-! ## Dates -/

/-- The year is written with four digits and no sign. -/
def Date.HasPlainYear (date : Date) : Prop := 0 ≤ date.year ∧ date.year ≤ 9999

instance (date : Date) : Decidable date.HasPlainYear := inferInstanceAs (Decidable (_ ∧ _))

theorem chars_of_hasPlainYear {date : Date} (plain : date.HasPlainYear) :
    date.chars = padded 4 date.year.natAbs ++
      '-' :: (padded 2 date.month ++ '-' :: padded 2 date.day) := by
  have notNegative : ¬date.year < 0 := by have := plain.1; omega
  have notLong : ¬9999 < date.year := by have := plain.2; omega
  rw [Date.chars, yearChars, if_neg notNegative, if_neg notLong]
  simp

theorem dateOf?_self {date : Date} (plain : date.HasPlainYear) :
    dateOf? (date.year.natAbs : Int) date.month date.day = some date := by
  have year : (date.year.natAbs : Int) = date.year := Int.natAbs_of_nonneg plain.1
  have inRange : yearInRange date.year = true := by
    obtain ⟨low, high⟩ := plain
    simp only [yearInRange, Bool.and_eq_true, decide_eq_true_eq]
    omega
  rw [year, dateOf?, if_pos inRange, Date.of?, dif_pos ⟨date.day_pos, date.day_le⟩]

theorem month_lt (date : Date) : date.month < 100 := by
  have := date.month_mem
  omega

theorem day_lt (date : Date) : date.day < 100 := by
  have le := date.day_le
  unfold daysInMonth at le
  split at le
  all_goals try split at le
  all_goals omega

theorem year_lt {date : Date} (plain : date.HasPlainYear) : date.year.natAbs < 10000 := by
  obtain ⟨low, high⟩ := plain
  omega

/-- A date is read back by the third grammar. -/
theorem plainDate_chars {date : Date} (plain : date.HasPlainYear) (rest : List Char) :
    plainDate (date.chars ++ rest) = some (date, rest) := by
  have year := signedYear_padded (year_lt plain)
  have month := shortNumber_padded (month_lt date)
  have day := shortNumber_padded (day_lt date)
  rw [chars_of_hasPlainYear plain]
  simp only [List.cons_append, List.append_assoc]
  rw [plainDate, reader_then (year _), reader_then (char_cons '-' _), reader_then (month _),
    reader_then (char_cons '-' _), reader_then (day _), reader_lift, dateOf?_self plain]
  rfl

/-! ## Fractions -/

/-- The fraction of a second behind a point, if there are digits for one. -/
def fractionChars : List Char → List Char
  | [] => []
  | digits => '.' :: digits

/-- Nanoseconds of a fraction: its first nine digits, filled up with zeros. -/
def nanosecondsOf (digits : List Char) : Nat :=
  Nat.ofDigitChars 10 ((digits ++ List.replicate 9 '0').take 9) 0

/-- Neither a digit nor a point comes next, so that a fraction ends here. -/
def EndsFraction (rest : List Char) : Prop :=
  ∀ c ∈ rest.head?, c.isDigit = false ∧ c ≠ '.'

theorem EndsFraction.takeWhile {rest : List Char} (ends : EndsFraction rest) :
    rest.takeWhile Char.isDigit = [] := by
  cases rest with
  | nil => rfl
  | cons c rest => exact List.takeWhile_cons_of_neg (by simp [(ends c rfl).1])

theorem nanosecondsOf_eq (digits : List Char) :
    nanosecondsOf digits =
      Nat.ofDigitChars 10 (digits.take 9) 0 * Nat.pow 10 (9 - min 9 digits.length) := by
  rw [nanosecondsOf, List.take_append, Nat.ofDigitChars_append, List.take_replicate,
    Nat.ofDigitChars_replicate_zero, Nat.mul_comm]
  congr 2
  omega

/-- Of any number of digits the first nine are taken, and the others passed over. -/
theorem fraction_fractionChars {digits rest : List Char}
    (areDigits : ∀ c ∈ digits, c.isDigit = true) (ends : EndsFraction rest) :
    fraction (fractionChars digits ++ rest) = some (nanosecondsOf digits, rest) := by
  have current (chars : List Char) : (get : Reader (List Char)) chars = some (chars, chars) := rfl
  have replaced (chars previous : List Char) :
      (set chars : Reader PUnit) previous = some (⟨⟩, chars) := rfl
  cases digits with
  | nil =>
      rw [fraction, reader_bind, current, Option.bind_some]
      cases rest with
      | nil => rfl
      | cons c rest =>
          have noPoint : c ≠ '.' := (ends c rfl).2
          simp only [fractionChars, List.nil_append, List.cons.injEq, noPoint, false_and,
            imp_self, implies_true]
          rfl
  | cons first others =>
      have firstNine : ∀ c ∈ (first :: others).take 9, c.isDigit = true :=
        fun c isMember => areDigits c (List.mem_of_mem_take isMember)
      obtain ⟨more, read⟩ : ∃ more, Text.Reader.number 1 9 (first :: others ++ rest) =
          some (Nat.ofDigitChars 10 ((first :: others).take 9) 0, more) := by
        refine ⟨(first :: others).drop 9 ++ rest, ?_⟩
        rw [← List.take_append_drop 9 (first :: others), List.append_assoc,
          List.take_append_drop]
        apply number_digits firstNine _ (by simp)
        by_cases long : 9 ≤ (first :: others).length
        · exact .inl (by rw [List.length_take, Nat.min_eq_left long])
        · rw [List.drop_of_length_le (by omega), List.nil_append]
          exact .inr ⟨by rw [List.length_take]; omega, ends.takeWhile⟩
      have taken : (first :: others ++ rest).takeWhile Char.isDigit = first :: others := by
        rw [List.takeWhile_append_of_pos areDigits, ends.takeWhile, List.append_nil]
      have behind : (first :: others ++ rest).dropWhile Char.isDigit = rest := by
        have whole := List.takeWhile_append_dropWhile (p := Char.isDigit)
          (l := first :: others ++ rest)
        rw [taken] at whole
        exact List.append_cancel_left whole
      have written : fractionChars (first :: others) = '.' :: (first :: others) := rfl
      rw [fraction, reader_bind, current, Option.bind_some, written, List.cons_append]
      simp only [reader_bind, replaced, Option.bind_some, read, taken, behind, reader_pure,
        nanosecondsOf_eq]

theorem ofDigitChars_lt {digits : List Char} (areDigits : ∀ c ∈ digits, c.isDigit = true)
    (before : Nat) : Nat.ofDigitChars 10 digits before < (before + 1) * 10 ^ digits.length := by
  induction digits generalizing before with
  | nil => simp
  | cons c digits ih =>
      obtain ⟨isDigit, others⟩ := List.forall_mem_cons.mp areDigits
      have small : c.toNat - 48 ≤ 9 := by
        simp only [Char.isDigit, Bool.and_eq_true, decide_eq_true_eq] at isDigit
        have high : c.toNat ≤ 57 := isDigit.2
        omega
      calc Nat.ofDigitChars 10 (c :: digits) before
          = Nat.ofDigitChars 10 digits (10 * before + (c.toNat - 48)) := rfl
        _ < (10 * before + (c.toNat - 48) + 1) * 10 ^ digits.length := ih others _
        _ ≤ (before + 1) * 10 * 10 ^ digits.length := Nat.mul_le_mul_right _ (by omega)
        _ = (before + 1) * 10 ^ (c :: digits).length := by
          rw [List.length_cons, Nat.pow_succ, Nat.mul_assoc, Nat.mul_comm 10]

theorem nanosecondsOf_lt {digits : List Char} (areDigits : ∀ c ∈ digits, c.isDigit = true) :
    nanosecondsOf digits < nanosPerSecond := by
  have filled : ∀ c ∈ (digits ++ List.replicate 9 '0').take 9, c.isDigit = true := by
    intro c isMember
    rcases List.mem_append.mp (List.mem_of_mem_take isMember) with isDigit | isZero
    · exact areDigits c isDigit
    · rw [List.eq_of_mem_replicate isZero]
      decide
  have nine : ((digits ++ List.replicate 9 '0').take 9).length = 9 := by simp
  have bound := ofDigitChars_lt filled 0
  rwa [nine] at bound

/-! ## Local times -/

/-- A time as it is written without a zone; second 60 is a leap second. -/
structure LocalTime where
  date : Date
  hour : Nat
  minute : Nat
  second : Nat
  /-- The digits behind the point. -/
  fraction : List Char
  plainYear : date.HasPlainYear
  hour_lt : hour < 24
  minute_lt : minute < 60
  second_le : second ≤ 60
  areDigits : ∀ c ∈ fraction, c.isDigit = true

namespace LocalTime

/-- Characters of the form `2020-01-02T03:04:05.000`, with a separator before the clock. -/
def chars (time : LocalTime) (separator : Char) : List Char :=
  time.date.chars ++ separator :: (padded 2 time.hour ++ ':' :: (padded 2 time.minute ++
    ':' :: (padded 2 time.second ++ fractionChars time.fraction)))

/-- A leap second counts as the second before it. -/
def leap (time : LocalTime) : Nat := if time.second = 60 then 1 else 0

/-- Seconds since midnight. -/
def secondOfDay (time : LocalTime) : Nat :=
  (time.hour * 60 + time.minute) * 60 + (time.second - time.leap)

/-- Nanoseconds since that second, a whole second or more in a leap second. -/
def nanosecond (time : LocalTime) : Nat :=
  nanosecondsOf time.fraction + time.leap * nanosPerSecond

theorem second_sub_leap_lt (time : LocalTime) : time.second - time.leap < 60 := by
  have le := time.second_le
  rw [leap]
  split <;> omega

theorem secondOfDay_lt (time : LocalTime) : time.secondOfDay < secondsPerDay := by
  have hour := time.hour_lt
  have minute := time.minute_lt
  have second := time.second_sub_leap_lt
  simp only [secondOfDay, secondsPerDay]
  omega

theorem nanosecond_lt (time : LocalTime) : time.nanosecond < 2 * nanosPerSecond := by
  have lt := nanosecondsOf_lt time.areDigits
  simp only [nanosecond, leap, nanosPerSecond] at lt ⊢
  split <;> omega

/-- The instant at which a clock of universal time shows the time. -/
def instant (time : LocalTime) : Instant :=
  ⟨time.date, time.secondOfDay, time.nanosecond, time.secondOfDay_lt, time.nanosecond_lt⟩

theorem instantOf?_eq (time : LocalTime) :
    instantOf? time.date time.hour time.minute time.second (nanosecondsOf time.fraction) =
      some time.instant :=
  dif_pos ⟨time.hour_lt, time.minute_lt, time.second_le, time.secondOfDay_lt, time.nanosecond_lt⟩

/-- The grammar with a zone reads the time and goes on with the zone. -/
theorem zonedTimestamp_chars (time : LocalTime) {separator : Char}
    (isSeparator : separator ∈ ['T', 't', ' ']) {rest : List Char} (ends : EndsFraction rest) :
    zonedTimestamp (time.chars separator ++ rest) =
      (zone rest).map fun taken => (time.instant.atOffset taken.1, taken.2) := by
  have separates (chars : List Char) :
      Text.Reader.oneOf ['T', 't', ' '] (separator :: chars) = some (separator, chars) :=
    if_pos (List.contains_iff_mem.mpr isSeparator)
  have year := fourDigits_padded (year_lt time.plainYear)
  have month := twoDigits_padded (month_lt time.date)
  have day := twoDigits_padded (day_lt time.date)
  have hour := twoDigits_padded (n := time.hour) (by have := time.hour_lt; omega)
  have minute := twoDigits_padded (n := time.minute) (by have := time.minute_lt; omega)
  have second := twoDigits_padded (n := time.second) (by have := time.second_le; omega)
  have fraction := fraction_fractionChars time.areDigits ends
  rw [chars, chars_of_hasPlainYear time.plainYear]
  simp only [List.append_assoc, List.cons_append]
  rw [zonedTimestamp, reader_then (year _), reader_then (char_cons '-' _), reader_then (month _),
    reader_then (char_cons '-' _), reader_then (day _), reader_then (separates _),
    reader_then (hour _), reader_then (char_cons ':' _), reader_then (minute _),
    reader_then (char_cons ':' _), reader_then (second _), reader_then fraction, reader_bind]
  cases zone rest with
  | none => rfl
  | some taken =>
      rw [Option.bind_some, dateOf?_self time.plainYear, reader_bind, reader_lift,
        Option.map_some, Option.bind_some, time.instantOf?_eq]
      rfl

/-- The grammar without a zone reads the time as one of universal time. -/
theorem plainTimestamp_chars (time : LocalTime) {rest : List Char} (ends : EndsFraction rest) :
    plainTimestamp (time.chars 'T' ++ rest) = some (time.instant, rest) := by
  have date := plainDate_chars time.plainYear
  have hour := shortNumber_padded (n := time.hour) (by have := time.hour_lt; omega)
  have minute := shortNumber_padded (n := time.minute) (by have := time.minute_lt; omega)
  have second := shortNumber_padded (n := time.second) (by have := time.second_le; omega)
  have fraction := fraction_fractionChars time.areDigits ends
  rw [chars]
  simp only [List.append_assoc, List.cons_append]
  rw [plainTimestamp, reader_then (date _), reader_then (char_cons 'T' _), reader_then (hour _),
    reader_then (char_cons ':' _), reader_then (minute _), reader_then (char_cons ':' _),
    reader_then (second _), reader_then fraction, reader_lift, time.instantOf?_eq]
  rfl

/-- A time without a zone is read as one of universal time. -/
theorem readInstant?_chars (time : LocalTime) :
    readInstant? (String.ofList (time.chars 'T')) = some time.instant := by
  have ends : EndsFraction [] := fun c isHead => by cases isHead
  have noZone : Text.Reader.wholly zonedTimestamp (time.chars 'T') = none := by
    have read := time.zonedTimestamp_chars (show 'T' ∈ ['T', 't', ' '] by decide) ends
    rw [List.append_nil] at read
    rw [Text.Reader.wholly, reader_bind, read]
    rfl
  have whole : Text.Reader.wholly plainTimestamp (time.chars 'T') = some time.instant := by
    have read := time.plainTimestamp_chars ends
    rw [List.append_nil] at read
    rw [Text.Reader.wholly, reader_bind, read]
    rfl
  rw [readInstant?, String.toList_ofList, noZone, whole]
  rfl

end LocalTime

/-! ## Instants -/

namespace Instant

/-- The instant without what is shorter than a millisecond. -/
def truncated (instant : Instant) : Instant :=
  { instant with
    nanosecond := instant.nanosecond / 1000000 * 1000000
    nanosecond_lt := by
      have := instant.nanosecond_lt
      simp only [nanosPerSecond] at this ⊢
      omega }

end Instant

theorem instantOf?_clock {instant : Instant} (noLeap : instant.isLeapSecond = false) :
    instantOf? instant.date (instant.second / 60 / 60) (instant.second / 60 % 60)
        (instant.second % 60) (instant.nanosecond / 1000000 * 1000000) =
      some instant.truncated := by
  have second := instant.second_lt
  have nanosecond : instant.nanosecond < nanosPerSecond := by
    simpa [Instant.isLeapSecond] using noLeap
  simp only [secondsPerDay] at second
  simp only [nanosPerSecond] at nanosecond
  have noLeapDigit : ¬instant.second % 60 = 60 := by omega
  have total : (instant.second / 60 / 60 * 60 + instant.second / 60 % 60) * 60 +
      (instant.second % 60 - 0) = instant.second := by omega
  simp only [instantOf?, if_neg noLeapDigit, total, Nat.zero_mul, Nat.add_zero]
  rw [dif_pos]
  · rfl
  · simp only [secondsPerDay, nanosPerSecond]
    omega

theorem atOffset_utc (instant : Instant) : instant.atOffset 0 = instant := by
  have second := instant.second_lt
  simp only [secondsPerDay] at second
  have notBefore : ¬(Int.ofNat instant.second - 60 * 0 < 0) := by
    simp only [Int.ofNat_eq_natCast]
    omega
  have within : Int.ofNat instant.second - 60 * 0 < secondsPerDay := by
    simp only [Int.ofNat_eq_natCast, secondsPerDay]
    omega
  have same : ((Int.ofNat instant.second - 60 * 0) % 86400).toNat = instant.second := by
    simp only [Int.ofNat_eq_natCast]
    omega
  cases instant with
  | mk date second nanosecond =>
      simp only [Instant.atOffset, if_neg notBefore, if_pos within, same]

namespace Instant

/-- The time that the texts of an instant show: milliseconds, and nothing shorter. -/
def localTime (instant : Instant) (plain : instant.date.HasPlainYear) : LocalTime where
  date := instant.date
  hour := instant.second / 60 / 60
  minute := instant.second / 60 % 60
  second := instant.second % 60
  fraction := padded 3 (instant.nanosecond / 1000000)
  plainYear := plain
  hour_lt := by
    have lt := instant.second_lt
    simp only [secondsPerDay] at lt
    omega
  minute_lt := by omega
  second_le := by omega
  areDigits := isDigit_padded

variable {instant : Instant}

theorem chars_localTime (noLeap : instant.isLeapSecond = false)
    (plain : instant.date.HasPlainYear) :
    (instant.localTime plain).chars 'T' = instant.chars 3 := by
  have nanosecond : instant.nanosecond < nanosPerSecond := by
    simpa [isLeapSecond] using noLeap
  obtain ⟨c, others, isCons, -⟩ := padded_eq_cons 3 (instant.nanosecond / 1000000)
  have fraction : fractionChars (padded 3 (instant.nanosecond / 1000000)) =
      '.' :: padded 3 (instant.nanosecond / 1000000) := by
    rw [isCons]
    rfl
  simp only [LocalTime.chars, localTime, chars, clockChars, fraction,
    Nat.div_eq_of_lt nanosecond, Nat.mod_eq_of_lt nanosecond, Nat.add_zero, List.append_assoc,
    List.cons_append]

theorem nanosecondsOf_padded {n : Nat} (fits : n < 1000) :
    nanosecondsOf (padded 3 n) = n * 1000000 := by
  have length : (padded 3 n).length = 3 := length_padded (by decide) fits
  rw [nanosecondsOf_eq, length, List.take_of_length_le (by omega), ofDigitChars_padded]
  rfl

theorem instant_localTime (noLeap : instant.isLeapSecond = false)
    (plain : instant.date.HasPlainYear) :
    (instant.localTime plain).instant = instant.truncated := by
  have nanosecond : instant.nanosecond < nanosPerSecond := by
    simpa [isLeapSecond] using noLeap
  simp only [nanosPerSecond] at nanosecond
  have fraction : nanosecondsOf (instant.localTime plain).fraction =
      instant.nanosecond / 1000000 * 1000000 := nanosecondsOf_padded (by omega)
  have read := (instant.localTime plain).instantOf?_eq
  rw [fraction] at read
  exact Option.some.inj (read.symm.trans (instantOf?_clock noLeap))

/-- The text without a zone is read back, without what is shorter than a millisecond. -/
theorem readInstant?_localText (noLeap : instant.isLeapSecond = false)
    (plain : instant.date.HasPlainYear) :
    readInstant? instant.text = some instant.truncated := by
  have read := (instant.localTime plain).readInstant?_chars
  rwa [chars_localTime noLeap plain, instant_localTime noLeap plain] at read

/-- The text with a zone is read back, without what is shorter than a millisecond. -/
theorem readInstant?_zonedText (noLeap : instant.isLeapSecond = false)
    (plain : instant.date.HasPlainYear) :
    readInstant? instant.zonedText = some instant.truncated := by
  have ends : EndsFraction ['Z'] := by
    intro c isHead
    obtain rfl := Option.some.inj isHead
    decide
  have read := (instant.localTime plain).zonedTimestamp_chars
    (show 'T' ∈ ['T', 't', ' '] by decide) ends
  rw [chars_localTime noLeap plain, zone_utc, Option.map_some, instant_localTime noLeap plain,
    atOffset_utc] at read
  have whole : Text.Reader.wholly zonedTimestamp (instant.chars 3 ++ ['Z']) =
      some instant.truncated := by
    rw [Text.Reader.wholly, reader_bind, read]
    rfl
  rw [readInstant?, zonedText, String.toList_ofList, whole]
  rfl

end Instant

/-- A date is read as its first instant. -/
theorem readInstant?_text {date : Date} (plain : date.HasPlainYear) :
    readInstant? date.text = some (Instant.midnight date) := by
  have noZone : Text.Reader.wholly zonedTimestamp date.chars = none := by
    have day := twoDigits_padded (day_lt date) []
    rw [List.append_nil] at day
    have year := fourDigits_padded (year_lt plain)
    have month := twoDigits_padded (month_lt date)
    have noSeparator : zonedTimestamp date.chars = none := by
      rw [chars_of_hasPlainYear plain, zonedTimestamp, reader_then (year _),
        reader_then (char_cons '-' _), reader_then (month _), reader_then (char_cons '-' _),
        reader_then day]
      rfl
    rw [Text.Reader.wholly, reader_bind, noSeparator]
    rfl
  have noClock : Text.Reader.wholly plainTimestamp date.chars = none := by
    have read := plainDate_chars plain []
    rw [List.append_nil] at read
    rw [Text.Reader.wholly, reader_bind, plainTimestamp, reader_bind, read]
    rfl
  have whole : Text.Reader.wholly plainDate date.chars = some date := by
    have read := plainDate_chars plain []
    rw [List.append_nil] at read
    rw [Text.Reader.wholly, reader_bind, read]
    rfl
  rw [readInstant?, Date.text, String.toList_ofList, noZone, noClock, whole]
  rfl

end Time

end OData
