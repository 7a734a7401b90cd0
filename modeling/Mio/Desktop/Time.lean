import Mio.Library.Text

/-!
# Timestamps

The clock's time as a text (`apps/desktop/src-tauri/src/time.rs`). The time is in seconds since 1970
and milliseconds, and the calendar's day is computed from the days since the first of March of the
year 0.
-/

namespace Mio.Desktop.Time

open Library

/-- A time of the clock, as an RFC 3339 timestamp. None of the quotients here is of a negative
number, so it does not matter how they are rounded. -/
def unixTimestampToRfc3339 (seconds milliseconds : ℕ) : Option String :=
  let days : ℤ := seconds / 86400
  let secondsOfDay := seconds % 86400
  let z := days + 719468
  let era := (if 0 ≤ z then z else z - 146096) / 146097
  let dayOfEra := z - era * 146097
  let yearOfEra := (dayOfEra - dayOfEra / 1460 + dayOfEra / 36524 - dayOfEra / 146096) / 365
  let dayOfYear := dayOfEra - (365 * yearOfEra + yearOfEra / 4 - yearOfEra / 100)
  let monthPrime := (5 * dayOfYear + 2) / 153
  let day := dayOfYear - (153 * monthPrime + 2) / 5 + 1
  let month := monthPrime + if monthPrime < 10 then 3 else -9
  let year := yearOfEra + era * 400 + if month ≤ 2 then 1 else 0
  if !(0 ≤ year && year ≤ 9999) || 999 < milliseconds then none
  else
    let hour := secondsOfDay / 3600
    let minute := secondsOfDay % 3600 / 60
    let second := secondsOfDay % 60
    let date := s!"{decimal 4 year.toNat}-{decimal 2 month.toNat}-{decimal 2 day.toNat}"
    let time := s!"{decimal 2 hour}:{decimal 2 minute}:{decimal 2 second}.{decimal 3 milliseconds}"
    some s!"{date}T{time}Z"

/-- The numbers of a day in its era have two digits, and the year has four where it is in range. -/
theorem digits_of_day {dayOfEra : ℤ} (h0 : 0 ≤ dayOfEra) (h1 : dayOfEra < 146097) :
    let yearOfEra := (dayOfEra - dayOfEra / 1460 + dayOfEra / 36524 - dayOfEra / 146096) / 365
    let dayOfYear := dayOfEra - (365 * yearOfEra + yearOfEra / 4 - yearOfEra / 100)
    let monthPrime := (5 * dayOfYear + 2) / 153
    let day := dayOfYear - (153 * monthPrime + 2) / 5 + 1
    let month := monthPrime + if monthPrime < 10 then 3 else -9
    day < 100 ∧ month < 100 := by
  intro yearOfEra dayOfYear monthPrime day month
  have hdayOfYear : dayOfYear ≤ 1000 := by omega
  have hmonthPrime : monthPrime ≤ 50 := by omega
  have hday : day < 100 := by omega
  refine ⟨hday, ?_⟩
  show monthPrime + (if monthPrime < 10 then 3 else -9) < 100
  split <;> omega

/-- A timestamp is 24 visible characters. -/
theorem graphicText_timestamp {seconds milliseconds : ℕ} {timestamp : String}
    (h : unixTimestampToRfc3339 seconds milliseconds = some timestamp) :
    GraphicText 24 timestamp ∧ timestamp ≠ "" := by
  unfold unixTimestampToRfc3339 at h
  extract_lets days secondsOfDay z era dayOfEra yearOfEra dayOfYear monthPrime day month year
    hour minute second date time at h
  split at h
  · cases h
  rename_i hrange
  simp only [Bool.or_eq_true, Bool.not_eq_true', Bool.and_eq_false_iff, decide_eq_false_iff_not,
    decide_eq_true_eq, not_or, not_le, not_lt] at hrange
  -- A time after the epoch is far after the year 0 of the algorithm, so no division is of a
  -- negative number.
  have hz : 0 ≤ z := by omega
  have hera : era = z / 146097 := by
    show (if 0 ≤ z then z else z - 146096) / 146097 = z / 146097
    rw [if_pos hz]
  have hdayOfEra : 0 ≤ dayOfEra ∧ dayOfEra < 146097 := by omega
  obtain ⟨hday, hmonth⟩ : day < 100 ∧ month < 100 := digits_of_day hdayOfEra.1 hdayOfEra.2
  have hhour : hour < 10 ^ 2 := by omega
  have hminute : minute < 10 ^ 2 := by omega
  have hsecond : second < 10 ^ 2 := by omega
  -- From here on, only the bounds of the six numbers matter.
  clear_value year month day hour minute second
  have hyear : year.toNat < 10 ^ 4 := by omega
  have hmilliseconds : milliseconds < 10 ^ 3 := by omega
  obtain rfl := Option.some.inj h
  have hyearText : GraphicText 4 (decimal 4 year.toNat) := graphicText_decimal (by decide) hyear
  have hpair : ∀ n < 100, GraphicText 2 (decimal 2 n) :=
    fun n hn => graphicText_decimal (by decide) hn
  have hmillisecondsText : GraphicText 3 (decimal 3 milliseconds) :=
    graphicText_decimal (by decide) hmilliseconds
  have hdash : GraphicText 1 "-" := ⟨by decide, by decide⟩
  have hcolon : GraphicText 1 ":" := ⟨by decide, by decide⟩
  have hday' : GraphicText 1 "T" := ⟨by decide, by decide⟩
  have hdot : GraphicText 1 "." := ⟨by decide, by decide⟩
  have hzone : GraphicText 1 "Z" := ⟨by decide, by decide⟩
  have hdate : GraphicText 10 date := (((hyearText.append hdash).append
    (hpair month.toNat (by omega))).append hdash).append (hpair day.toNat (by omega))
  have htime : GraphicText 12 time := ((((((hpair hour hhour).append hcolon).append
    (hpair minute hminute)).append hcolon).append (hpair second hsecond)).append hdot).append
    hmillisecondsText
  have hall := ((hdate.append hday').append htime).append hzone
  -- The text ends in `Z`, so it is not empty.
  refine ⟨hall.mono (by decide), fun hempty => ?_⟩
  have hsize := congrArg String.utf8ByteSize hempty
  rw [String.utf8ByteSize_append] at hsize
  change _ + 1 = 0 at hsize
  omega

/-- A reading of the clock, in seconds and milliseconds since 1970, if it is not before that. -/
abbrev Clock := Option (ℕ × ℕ)

/-- The time as a text; without a clock there is none. -/
def currentRfc3339Timestamp (clock : Clock) : Option String :=
  clock.bind fun (seconds, milliseconds) => unixTimestampToRfc3339 seconds milliseconds

/-- A time is of printable ASCII and has at most 24 bytes. -/
theorem graphicText_current {clock : Clock} {timestamp : String}
    (h : currentRfc3339Timestamp clock = some timestamp) :
    GraphicText 24 timestamp ∧ timestamp ≠ "" := by
  obtain ⟨⟨seconds, milliseconds⟩, -, htimestamp⟩ := Option.bind_eq_some_iff.mp h
  exact graphicText_timestamp htimestamp

example : unixTimestampToRfc3339 0 0 = some "1970-01-01T00:00:00.000Z" := by decide
example : unixTimestampToRfc3339 86400 7 = some "1970-01-02T00:00:00.007Z" := by decide
example : unixTimestampToRfc3339 0 1000 = none := by decide

end Mio.Desktop.Time
