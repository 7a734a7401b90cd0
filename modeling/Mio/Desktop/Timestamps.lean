import Mio.Desktop.AiDispatchLedger
import Mio.Desktop.Time
import Mio.Library.Calendar
import Mio.Library.Numerals
import Mathlib.Tactic.IntervalCases

/-!
# The calendar of the timestamps

The timestamp's calculation of a date has no loop and no table. It counts the days from the first of
March of the year 0, so that a leap day is the last day of its year, and takes the year, the month,
and the day from quotients. By one step of the calendar at a time, it gives the date of the
Gregorian calendar (`isCivil_dateAfter`). Timestamps are thus ordered as the times that they stand
for are, which is what the ledger relies on where it prunes its oldest record
(`timestamps_ordered`).
-/

namespace Mio.Desktop.Time

open Library

/-! ## Years that start in March -/

/-- The year of a day in its era, which is one of 400 years. -/
def yearOfEra (dayOfEra : ℤ) : ℤ :=
  (dayOfEra - dayOfEra / 1460 + dayOfEra / 36524 - dayOfEra / 146096) / 365

/-- The days of the era before a year. -/
def daysBefore (year : ℤ) : ℤ := 365 * year + year / 4 - year / 100

/-- The days of a year that starts in March. Its February is that of the next year. -/
def marchYearDays (year : ℤ) : ℤ :=
  if (year + 1) % 4 = 0 ∧ ((year + 1) % 100 = 0 → (year + 1) % 400 = 0) then 366 else 365

/-- A day as one of a century, of four years in it, and of a year in them. -/
theorem exists_parts {dayOfEra : ℤ} (h0 : 0 ≤ dayOfEra) (h1 : dayOfEra < 146097) :
    ∃ century quad year day : ℤ, (0 ≤ century ∧ century ≤ 3) ∧ (0 ≤ quad ∧ quad ≤ 24) ∧
      (0 ≤ year ∧ year ≤ 3) ∧
      (0 ≤ day ∧ (day ≤ 364 ∨ day = 365 ∧ year = 3 ∧ (quad ≤ 23 ∨ century = 3))) ∧
      dayOfEra = 36524 * century + 1461 * quad + 365 * year + day := by
  -- The last century has a day more than the others, and so has the last of four years.
  obtain ⟨century, rest, hcentury, hrest, hera⟩ : ∃ century rest : ℤ, (0 ≤ century ∧ century ≤ 3) ∧
      (0 ≤ rest ∧ (rest ≤ 36523 ∨ rest = 36524 ∧ century = 3)) ∧
        dayOfEra = 36524 * century + rest :=
    ⟨min (dayOfEra / 36524) 3, dayOfEra - 36524 * min (dayOfEra / 36524) 3, by omega, by omega,
      by omega⟩
  obtain ⟨quad, rest', hquad, hrest', hcenturyDay⟩ : ∃ quad rest' : ℤ, (0 ≤ quad ∧ quad ≤ 24) ∧
      (0 ≤ rest' ∧ (rest' ≤ 1459 ∨ rest' = 1460 ∧ (quad ≤ 23 ∨ century = 3))) ∧
      rest = 1461 * quad + rest' :=
    ⟨rest / 1461, rest % 1461, by omega, by omega, by omega⟩
  refine ⟨century, quad, min (rest' / 365) 3, rest' - 365 * min (rest' / 365) 3,
    hcentury, hquad, ?_, ?_, ?_⟩
  · omega
  · omega
  · omega

section Parts

variable {dayOfEra century quad year day : ℤ} (hcentury : 0 ≤ century ∧ century ≤ 3)
  (hquad : 0 ≤ quad ∧ quad ≤ 24) (hyear : 0 ≤ year ∧ year ≤ 3)
  (hday : 0 ≤ day ∧ (day ≤ 364 ∨ day = 365 ∧ year = 3 ∧ (quad ≤ 23 ∨ century = 3)))
  (hera : dayOfEra = 36524 * century + 1461 * quad + 365 * year + day)
include hcentury hquad hyear hday hera

/-- The quotients take the leap days out, and the year is that of the parts. -/
theorem yearOfEra_parts : yearOfEra dayOfEra = 100 * century + 4 * quad + year := by
  obtain ⟨leap, hleap, hleapDay⟩ : ∃ leap : ℤ, dayOfEra / 1460 = 25 * century + quad + leap ∧
      (leap = 0 ∧ day ≤ 364 ∨ leap = 1 ∧ 1 ≤ day) :=
    ⟨dayOfEra / 1460 - 25 * century - quad, by omega, by omega⟩
  -- On the era's last day, both of the last two quotients are one more.
  have hlast : dayOfEra / 36524 = century ∧ dayOfEra / 146096 = 0 ∨
      dayOfEra / 36524 = century + 1 ∧ dayOfEra / 146096 = 1 := by omega
  have hdays : dayOfEra - dayOfEra / 1460 + dayOfEra / 36524 - dayOfEra / 146096 =
      365 * (100 * century + 4 * quad + year) + (day - leap) := by omega
  unfold yearOfEra
  rw [hdays]
  omega

/-- The year is the one that the day is in. -/
theorem daysBefore_parts :
    daysBefore (100 * century + 4 * quad + year) ≤ dayOfEra ∧
      dayOfEra < daysBefore (100 * century + 4 * quad + year) +
        marchYearDays (100 * century + 4 * quad + year) := by
  have hfour : (100 * century + 4 * quad + year) / 4 = 25 * century + quad := by omega
  have hhundred : (100 * century + 4 * quad + year) / 100 = century := by omega
  have hleap : (100 * century + 4 * quad + year + 1) % 4 = 0 ↔ year = 3 := by omega
  have hround : (100 * century + 4 * quad + year + 1) % 100 = 0 ↔ quad = 24 ∧ year = 3 := by omega
  have hlast : (100 * century + 4 * quad + year + 1) % 400 = 0 ↔
      century = 3 ∧ quad = 24 ∧ year = 3 := by omega
  unfold daysBefore marchYearDays
  simp only [hfour, hhundred, hleap, hround, hlast]
  split_ifs with hdays
  · omega
  · omega

end Parts

/-- The calculation's year is the one that the day is in. -/
theorem yearOfEra_spec {dayOfEra : ℤ} (h0 : 0 ≤ dayOfEra) (h1 : dayOfEra < 146097) :
    (0 ≤ yearOfEra dayOfEra ∧ yearOfEra dayOfEra ≤ 399) ∧
      daysBefore (yearOfEra dayOfEra) ≤ dayOfEra ∧
      dayOfEra < daysBefore (yearOfEra dayOfEra) + marchYearDays (yearOfEra dayOfEra) := by
  obtain ⟨century, quad, year, day, hcentury, hquad, hyear, hday, hera⟩ := exists_parts h0 h1
  rw [yearOfEra_parts hcentury hquad hyear hday hera]
  exact ⟨by omega, daysBefore_parts hcentury hquad hyear hday hera⟩

/-- A year starts after the days of the year before it. -/
theorem daysBefore_succ {year : ℤ} (h0 : 0 ≤ year) (h1 : year < 399) :
    daysBefore (year + 1) = daysBefore year + marchYearDays year := by
  unfold daysBefore marchYearDays
  split_ifs with hdays
  · omega
  · omega

/-- A year ends before a later one begins. -/
theorem daysBefore_le {year later : ℤ} (h0 : 0 ≤ year) (h : year < later) (hlater : later ≤ 399) :
    daysBefore year + marchYearDays year ≤ daysBefore later := by
  rw [← daysBefore_succ h0 (by omega)]
  unfold daysBefore
  omega

/-- A year has 365 or 366 days. -/
theorem marchYearDays_bounds (year : ℤ) : 365 ≤ marchYearDays year ∧ marchYearDays year ≤ 366 := by
  unfold marchYearDays
  split_ifs <;> omega

/-- A day is in one year only. -/
theorem yearOfEra_eq {year dayOfEra : ℤ} (hyear : 0 ≤ year ∧ year ≤ 399)
    (hday : daysBefore year ≤ dayOfEra ∧ dayOfEra < daysBefore year + marchYearDays year)
    (h0 : 0 ≤ dayOfEra) (h1 : dayOfEra < 146097) : yearOfEra dayOfEra = year := by
  obtain ⟨hrange, hspec⟩ := yearOfEra_spec h0 h1
  rcases lt_trichotomy (yearOfEra dayOfEra) year with hlt | heq | hgt
  · have hle := daysBefore_le hrange.1 hlt hyear.2
    omega
  · exact heq
  · have hle := daysBefore_le hyear.1 hgt hrange.2
    omega

/-- The year that starts in March, of a day after the first of March of the year 0. -/
def marchYear (z : ℤ) : ℤ := yearOfEra (z % 146097) + z / 146097 * 400

/-- The day of that year. -/
def dayOfYear (z : ℤ) : ℤ := z % 146097 - daysBefore (yearOfEra (z % 146097))

/-- A year has the days of the year of the era. -/
theorem marchYearDays_add (year era : ℤ) :
    marchYearDays (year + era * 400) = marchYearDays year := by
  have hfour : (year + era * 400 + 1) % 4 = (year + 1) % 4 := by omega
  have hhundred : (year + era * 400 + 1) % 100 = (year + 1) % 100 := by omega
  have hfourHundred : (year + era * 400 + 1) % 400 = (year + 1) % 400 := by omega
  unfold marchYearDays
  rw [hfour, hhundred, hfourHundred]

/-- The day of a year is one of its days. -/
theorem dayOfYear_range (z : ℤ) : 0 ≤ dayOfYear z ∧ dayOfYear z < marchYearDays (marchYear z) := by
  have h0 : 0 ≤ z % 146097 := by omega
  have h1 : z % 146097 < 146097 := by omega
  have hspec := (yearOfEra_spec h0 h1).2
  unfold marchYear dayOfYear
  rw [marchYearDays_add]
  omega

/-- The next day is the next one of the year, or the first one of the next year. -/
theorem march_succ (z : ℤ) :
    dayOfYear z + 1 < marchYearDays (marchYear z) ∧ marchYear (z + 1) = marchYear z ∧
        dayOfYear (z + 1) = dayOfYear z + 1 ∨
      dayOfYear z + 1 = marchYearDays (marchYear z) ∧ marchYear (z + 1) = marchYear z + 1 ∧
        dayOfYear (z + 1) = 0 := by
  obtain ⟨dayOfEra, hdayOfEra⟩ : ∃ dayOfEra, z % 146097 = dayOfEra := ⟨_, rfl⟩
  have h0 : 0 ≤ dayOfEra := by omega
  have h1 : dayOfEra < 146097 := by omega
  obtain ⟨hrange, hspec⟩ := yearOfEra_spec h0 h1
  unfold marchYear dayOfYear
  rw [marchYearDays_add, hdayOfEra]
  by_cases hera : dayOfEra + 1 < 146097
  · -- The next day is in the same era.
    have hmod : (z + 1) % 146097 = dayOfEra + 1 := by omega
    have hdiv : (z + 1) / 146097 = z / 146097 := by omega
    rw [hmod, hdiv]
    -- It is in the same year, or it is the first of the next one.
    by_cases hyear : dayOfEra + 1 < daysBefore (yearOfEra dayOfEra) +
        marchYearDays (yearOfEra dayOfEra)
    · have hsame : yearOfEra (dayOfEra + 1) = yearOfEra dayOfEra :=
        yearOfEra_eq hrange (by omega) (by omega) hera
      rw [hsame]
      omega
    · have hlast : yearOfEra dayOfEra < 399 := by
        by_contra hlast
        have heq : yearOfEra dayOfEra = 399 := by omega
        rw [heq] at hyear
        have hend : daysBefore 399 + marchYearDays 399 = 146097 := by decide
        omega
      have hstart := daysBefore_succ hrange.1 hlast
      have hdays := marchYearDays_bounds (yearOfEra dayOfEra + 1)
      have hnext : yearOfEra (dayOfEra + 1) = yearOfEra dayOfEra + 1 :=
        yearOfEra_eq (by omega) (by omega) (by omega) hera
      rw [hnext]
      omega
  · -- The next day is the first one of the next era.
    have hmod : (z + 1) % 146097 = 0 := by omega
    have hdiv : (z + 1) / 146097 = z / 146097 + 1 := by omega
    have hend : yearOfEra 146096 = 399 := by decide
    have hdays : daysBefore 399 = 145731 ∧ marchYearDays 399 = 366 := by decide
    have hstart : yearOfEra 0 = 0 ∧ daysBefore 0 = 0 := by decide
    have heq : dayOfEra = 146096 := by omega
    rw [hmod, hdiv, heq, hend, hdays.1, hdays.2, hstart.1, hstart.2]
    omega

/-! ## Months -/

/-- The month of a day of the year, where March is 0. -/
def monthPrime (dayOfYear : ℤ) : ℤ := (5 * dayOfYear + 2) / 153

/-- The day of the month, by the day of the year. -/
def dayOfMonth (dayOfYear : ℤ) : ℤ := dayOfYear - (153 * monthPrime dayOfYear + 2) / 5 + 1

/-- The month, by the day of the year. -/
def monthOf (dayOfYear : ℤ) : ℤ :=
  monthPrime dayOfYear + if monthPrime dayOfYear < 10 then 3 else -9

/-- The year that starts in January. -/
def yearOf (z : ℤ) : ℤ := marchYear z + if monthOf (dayOfYear z) ≤ 2 then 1 else 0

/-- The months but February have the days that the quotients give them. -/
theorem daysInMonth_march {year month : ℕ} {monthPrime : ℤ} (h0 : 0 ≤ monthPrime)
    (h1 : monthPrime ≤ 10) (hmonth : (month : ℤ) = monthPrime + if monthPrime < 10 then 3 else -9) :
    (daysInMonth year month : ℤ) = (153 * (monthPrime + 1) + 2) / 5 -
    (153 * monthPrime + 2) / 5 := by
  interval_cases monthPrime
  all_goals
    simp at hmonth
    norm_cast at hmonth
    subst hmonth
    rfl

/-- February has the days up to the end of the year. -/
theorem daysInMonth_february {year : ℕ} {marchYear : ℤ} (hyear : (year : ℤ) = marchYear + 1) :
    (daysInMonth year 2 : ℤ) = marchYearDays marchYear - 337 := by
  have hleap : IsLeap year ↔
      (marchYear + 1) % 4 = 0 ∧ ((marchYear + 1) % 100 = 0 → (marchYear + 1) % 400 = 0) := by
    unfold IsLeap
    omega
  unfold daysInMonth marchYearDays
  rw [if_pos rfl]
  by_cases h : IsLeap year
  · rw [if_pos h, if_pos (hleap.mp h)]
    rfl
  · rw [if_neg h, if_neg (mt hleap.mpr h)]
    rfl

/-- A date is that of a day after the first of March of the year 0. -/
structure IsCivil (date : Date) (z : ℤ) : Prop where
  year : (date.year : ℤ) = yearOf z
  month : (date.month : ℤ) = monthOf (dayOfYear z)
  day : (date.day : ℤ) = dayOfMonth (dayOfYear z)

/-- January and February are the last months of the year that starts in March. -/
theorem month_cases (z : ℤ) :
    0 ≤ monthPrime (dayOfYear z) ∧ monthPrime (dayOfYear z) ≤ 9 ∧
        monthOf (dayOfYear z) = monthPrime (dayOfYear z) + 3 ∧ yearOf z = marchYear z ∨
      10 ≤ monthPrime (dayOfYear z) ∧ monthPrime (dayOfYear z) ≤ 11 ∧
        monthOf (dayOfYear z) = monthPrime (dayOfYear z) - 9 ∧ yearOf z = marchYear z + 1 := by
  obtain ⟨h0, hend⟩ := dayOfYear_range z
  have hdays := marchYearDays_bounds (marchYear z)
  have hmonth : 0 ≤ monthPrime (dayOfYear z) ∧ monthPrime (dayOfYear z) ≤ 11 := by
    unfold monthPrime
    omega
  unfold yearOf monthOf
  split_ifs <;> omega

/-- The next day is in the same month or starts the next one. -/
theorem monthPrime_succ (dayOfYear : ℤ) :
    let stop := (153 * (monthPrime dayOfYear + 1) + 2) / 5
    dayOfYear + 1 < stop ∧ monthPrime (dayOfYear + 1) = monthPrime dayOfYear ∨
      dayOfYear + 1 = stop ∧ monthPrime (dayOfYear + 1) = monthPrime dayOfYear + 1 := by
  intro stop
  have hstop : stop = (153 * (monthPrime dayOfYear + 1) + 2) / 5 := rfl
  unfold monthPrime at hstop ⊢
  omega

/-- A month is as long as the quotients say, but February ends with the year. -/
theorem IsCivil.daysInMonth {date : Date} {z : ℤ} (h : IsCivil date z) :
    (daysInMonth date.year date.month : ℤ) =
      min ((153 * (monthPrime (dayOfYear z) + 1) + 2) / 5) (marchYearDays (marchYear z)) -
        (153 * monthPrime (dayOfYear z) + 2) / 5 := by
  obtain ⟨hyear, hmonth, -⟩ := h
  have hdays := marchYearDays_bounds (marchYear z)
  have hcases := month_cases z
  by_cases hfebruary : monthPrime (dayOfYear z) = 11
  · have htwo : date.month = 2 := by omega
    have hnext : (date.year : ℤ) = marchYear z + 1 := by omega
    rw [htwo, daysInMonth_february hnext, hfebruary]
    omega
  · have hmonth' : (date.month : ℤ) =
        monthPrime (dayOfYear z) + if monthPrime (dayOfYear z) < 10 then 3 else -9 := hmonth
    rw [daysInMonth_march (by omega) (by omega) hmonth']
    omega

/-- The calendar and the calculation take the same step. -/
theorem IsCivil.next {date : Date} {z : ℤ} (h : IsCivil date z) : IsCivil date.next (z + 1) := by
  have hlength := h.daysInMonth
  obtain ⟨hyear, hmonth, hday⟩ := h
  obtain ⟨h0, hend⟩ := dayOfYear_range z
  have hdays := marchYearDays_bounds (marchYear z)
  have hnow := month_cases z
  have hnext := month_cases (z + 1)
  have hmonths := monthPrime_succ (dayOfYear z)
  have hmarch := march_succ z
  have hfirst : monthPrime 0 = 0 := rfl
  unfold dayOfMonth at hday
  unfold Date.next
  split_ifs with hlater hyearEnd
  · -- The month goes on.
    obtain ⟨hyear', hdoy⟩ : marchYear (z + 1) = marchYear z ∧
      dayOfYear (z + 1) = dayOfYear z + 1 := by
      omega
    have hsame : monthPrime (dayOfYear z + 1) = monthPrime (dayOfYear z) := by omega
    rw [hdoy, hyear', hsame] at hnext
    refine ⟨?_, ?_, ?_⟩
    · show (date.year : ℤ) = yearOf (z + 1)
      omega
    · show (date.month : ℤ) = monthOf (dayOfYear (z + 1))
      rw [hdoy]
      omega
    · show ((date.day + 1 : ℕ) : ℤ) = dayOfMonth (dayOfYear (z + 1))
      unfold dayOfMonth
      rw [hdoy, hsame]
      omega
  · -- The next month starts in the same year. It is March where the year that starts there is over.
    rcases hmarch with ⟨hgoes, hyear', hdoy⟩ | ⟨hends, hyear', hdoy⟩
    · have hsucc : monthPrime (dayOfYear z + 1) = monthPrime (dayOfYear z) + 1 := by omega
      rw [hdoy, hyear', hsucc] at hnext
      refine ⟨?_, ?_, ?_⟩
      · show (date.year : ℤ) = yearOf (z + 1)
        omega
      · show ((date.month + 1 : ℕ) : ℤ) = monthOf (dayOfYear (z + 1))
        rw [hdoy]
        omega
      · show 1 = dayOfMonth (dayOfYear (z + 1))
        unfold dayOfMonth
        rw [hdoy, hsucc]
        omega
    · have hfebruary : monthPrime (dayOfYear z) = 11 := by
        unfold monthPrime
        omega
      rw [hdoy, hyear', hfirst] at hnext
      refine ⟨?_, ?_, ?_⟩
      · show (date.year : ℤ) = yearOf (z + 1)
        omega
      · show ((date.month + 1 : ℕ) : ℤ) = monthOf (dayOfYear (z + 1))
        rw [hdoy]
        omega
      · show 1 = dayOfMonth (dayOfYear (z + 1))
        rw [hdoy]
        rfl
  · -- After December comes January, in the year that goes on in March.
    have hdecember : monthPrime (dayOfYear z) = 9 := by omega
    have hearly : dayOfYear z < 364 := by
      unfold monthPrime at hdecember
      omega
    obtain ⟨hyear', hdoy⟩ : marchYear (z + 1) = marchYear z ∧
      dayOfYear (z + 1) = dayOfYear z + 1 := by
      omega
    have hsucc : monthPrime (dayOfYear z + 1) = monthPrime (dayOfYear z) + 1 := by omega
    rw [hdoy, hyear', hsucc] at hnext
    refine ⟨?_, ?_, ?_⟩
    · show ((date.year + 1 : ℕ) : ℤ) = yearOf (z + 1)
      omega
    · show 1 = monthOf (dayOfYear (z + 1))
      rw [hdoy]
      omega
    · show 1 = dayOfMonth (dayOfYear (z + 1))
      unfold dayOfMonth
      rw [hdoy, hsucc]
      omega

/-! ## Timestamps -/

/-- The first day of the clock. -/
def epoch : Date where
  year := 1970
  month := 1
  day := 1
  month_range := by decide
  day_range := by decide

/-- The calculation gives the date of the calendar. -/
theorem isCivil_dateAfter (days : ℕ) : IsCivil (dateAfter epoch days) (days + 719468) := by
  induction days with
  | zero => exact ⟨by decide, by decide, by decide⟩
  | succ days ih =>
    have hnext : ((days + 1 : ℕ) : ℤ) + 719468 = days + 719468 + 1 := by omega
    rw [dateAfter_succ, hnext]
    exact ih.next

/-- The days of the clock up to the year 10000. -/
def dayRange : ℕ := 2932897

/-- Before the first of January of the year 10000, the year has four digits. -/
theorem year_le_iff {days : ℕ} : (dateAfter epoch days).year ≤ 9999 ↔ days < dayRange := by
  have hlast : (dateAfter epoch 2932896).year = 9999 := by
    have hyear := (isCivil_dateAfter 2932896).year
    have hvalue : yearOf ((2932896 : ℕ) + 719468) = 9999 := by decide
    omega
  have hafter : (dateAfter epoch 2932897).year = 10000 := by
    have hyear := (isCivil_dateAfter 2932897).year
    have hvalue : yearOf ((2932897 : ℕ) + 719468) = 10000 := by decide
    omega
  have hrange : dayRange = 2932897 := rfl
  have hyears := year_monotone epoch
  constructor
  · intro hyear
    by_contra hlate
    have hle := hyears (show 2932897 ≤ days by omega)
    dsimp only at hle
    omega
  · intro hearly
    have hle := hyears (show days ≤ 2932896 by omega)
    dsimp only at hle
    omega

/-- A time of the clock up to the year 10000. -/
@[ext] structure Instant where
  seconds : ℕ
  milliseconds : ℕ
  seconds_range : seconds < dayRange * 86400
  milliseconds_range : milliseconds < 1000

/-- The order of the times. -/
instance : LT Instant where
  lt instant later := instant.seconds < later.seconds ∨
    instant.seconds = later.seconds ∧ instant.milliseconds < later.milliseconds

/-- The widths of a timestamp's numbers, each with the mark after it. -/
def timestampFormat : List (ℕ × List Char) :=
  [(4, ['-']), (2, ['-']), (2, ['T']), (2, [':']), (2, [':']), (2, ['.']), (3, ['Z'])]

namespace Instant

variable (instant : Instant)

/-- The date of an instant. -/
def date : Date := dateAfter epoch (instant.seconds / 86400)

/-- The hour, the minute, the second, and the millisecond. -/
def timeOfDay : List ℕ :=
  [instant.seconds % 86400 / 3600, instant.seconds % 3600 / 60, instant.seconds % 60,
    instant.milliseconds]

/-- The date and the time of day. -/
def text : String :=
  .ofList (fieldsText timestampFormat (instant.date.fields ++ instant.timeOfDay))

/-- The year has at most four digits. -/
theorem year_le : instant.date.year ≤ 9999 := by
  have hrange := instant.seconds_range
  exact year_le_iff.mpr (by omega)

/-- Every number of a timestamp fits in its width. -/
theorem fieldsFit : FieldsFit timestampFormat (instant.date.fields ++ instant.timeOfDay) := by
  have hyear := instant.year_le
  have hmonth := instant.date.month_range
  have hday := instant.date.day_range
  have hdays := daysInMonth_le instant.date.year instant.date.month
  have hmilliseconds := instant.milliseconds_range
  refine .cons ⟨by decide, ?_⟩ (.cons ⟨by decide, ?_⟩ (.cons ⟨by decide, ?_⟩ (.cons ⟨by decide, ?_⟩
    (.cons ⟨by decide, ?_⟩ (.cons ⟨by decide, ?_⟩ (.cons ⟨by decide, ?_⟩ .nil))))))
  all_goals
    dsimp only
    omega

/-- The time of day goes as the seconds and milliseconds of the day do. -/
theorem timeOfDay_lt_iff (instant later : Instant) :
    instant.timeOfDay < later.timeOfDay ↔ instant.seconds % 86400 < later.seconds % 86400 ∨
      instant.seconds % 86400 = later.seconds % 86400 ∧
        instant.milliseconds < later.milliseconds := by
  unfold timeOfDay
  rw [List.cons_lt_cons_iff, List.cons_lt_cons_iff, List.cons_lt_cons_iff, List.cons_lt_cons_iff]
  have hnil : ¬([] : List ℕ) < [] := lt_irrefl _
  rw [iff_false_intro hnil, and_false, or_false]
  omega

/-- Timestamps are ordered as the times are. -/
theorem text_lt_iff (instant later : Instant) : instant.text < later.text ↔ instant < later := by
  have hlength : instant.date.fields.length = later.date.fields.length := rfl
  unfold text
  rw [String.lt_iff_toList_lt, String.toList_ofList, String.toList_ofList,
    fieldsText_lt_iff instant.fieldsFit later.fieldsFit, append_lt_append hlength,
    timeOfDay_lt_iff]
  unfold date
  rw [dateAfter_lt_iff, dateAfter_eq_iff]
  show _ ↔ instant.seconds < later.seconds ∨
    instant.seconds = later.seconds ∧ instant.milliseconds < later.milliseconds
  omega

/-- Two instants with the same text are the same. -/
theorem text_eq_iff (instant later : Instant) : instant.text = later.text ↔ instant = later := by
  constructor
  · intro hsame
    have hbefore : ¬instant < later := by
      rw [← text_lt_iff, hsame]
      exact lt_irrefl _
    have hafter : ¬later < instant := by
      rw [← text_lt_iff, hsame]
      exact lt_irrefl _
    have hbefore' : ¬(instant.seconds < later.seconds ∨
      instant.seconds = later.seconds ∧ instant.milliseconds < later.milliseconds) := hbefore
    have hafter' : ¬(later.seconds < instant.seconds ∨
      later.seconds = instant.seconds ∧ later.milliseconds < instant.milliseconds) := hafter
    ext
    · omega
    · omega
  · rintro rfl
    rfl

end Instant

/-- A timestamp is that of the calendar, up to the year 10000. -/
theorem unixTimestampToRfc3339_eq (seconds milliseconds : ℕ) :
    unixTimestampToRfc3339 seconds milliseconds =
      if h : seconds < dayRange * 86400 ∧ milliseconds < 1000 then
        some (Instant.text ⟨seconds, milliseconds, h.1, h.2⟩)
      else none := by
  have hrange := @year_le_iff (seconds / 86400)
  obtain ⟨hyear, hmonth, hday⟩ := isCivil_dateAfter (seconds / 86400)
  unfold unixTimestampToRfc3339
  extract_lets days secondsOfDay z era dayOfEra yearOfEra' dayOfYear' monthPrime' day month year
    hour minute second date time
  have hz : ((seconds / 86400 : ℕ) : ℤ) + 719468 = z := rfl
  -- Each step of the source is one of the functions of the day, at `z`.
  have hz0 : 0 ≤ z := by omega
  have hera : era = z / 146097 := by
    show (if 0 ≤ z then z else z - 146096) / 146097 = z / 146097
    rw [if_pos hz0]
  have hdayOfEra : dayOfEra = z % 146097 := by
    show z - era * 146097 = z % 146097
    omega
  have hyearOfEra : yearOfEra' = yearOfEra (z % 146097) := by
    rw [← hdayOfEra]
    rfl
  have hdayOfYear : dayOfYear' = dayOfYear z := by
    show dayOfEra - (365 * yearOfEra' + yearOfEra' / 4 - yearOfEra' / 100) = dayOfYear z
    rw [hyearOfEra, hdayOfEra]
    rfl
  have hmonthOf : month = monthOf (dayOfYear z) := by
    rw [← hdayOfYear]
    rfl
  have hdayOfMonth : day = dayOfMonth (dayOfYear z) := by
    rw [← hdayOfYear]
    rfl
  have hyearOf : year = yearOf z := by
    show yearOfEra' + era * 400 + (if month ≤ 2 then 1 else 0) = yearOf z
    rw [hmonthOf, hyearOfEra, hera]
    rfl
  rw [hz, ← hyearOf] at hyear
  rw [hz, ← hmonthOf] at hmonth
  rw [hz, ← hdayOfMonth] at hday
  -- The values are named now, so what follows is arithmetic.
  clear_value year month day monthPrime' dayOfYear' yearOfEra' dayOfEra era z days
  have hseconds : seconds / 86400 < dayRange ↔ seconds < dayRange * 86400 :=
    Nat.div_lt_iff_lt_mul (by decide)
  have hguard : (!(decide (0 ≤ year) && decide (year ≤ 9999)) ||
    decide (999 < milliseconds)) = true ↔
      ¬(seconds < dayRange * 86400 ∧ milliseconds < 1000) := by
    rw [← hseconds, ← hrange]
    simp only [Bool.or_eq_true, Bool.not_eq_true', Bool.and_eq_false_iff, decide_eq_false_iff_not,
      decide_eq_true_eq]
    omega
  by_cases h : seconds < dayRange * 86400 ∧ milliseconds < 1000
  · rw [if_neg (mt hguard.mp (not_not_intro h)), dif_pos h]
    -- The date is the one that is so many days after the epoch.
    have hyear' : year.toNat = (dateAfter epoch (seconds / 86400)).year := by omega
    have hmonth' : month.toNat = (dateAfter epoch (seconds / 86400)).month := by omega
    have hday' : day.toNat = (dateAfter epoch (seconds / 86400)).day := by omega
    have hminute : minute = seconds % 3600 / 60 := by omega
    have hsecond : second = seconds % 60 := by omega
    refine congrArg some (String.toList_injective ?_)
    unfold Instant.text
    rw [String.toList_ofList]
    simp only [date, time, hyear', hmonth', hday', hminute, hsecond, toString, String.toList_append,
      List.append_assoc]
    rfl
  · rw [if_pos (hguard.mpr h), dif_neg h]

/-- A timestamp is the date and time of the calendar, and the ledger's order of timestamps is that
of the times that they stand for. -/
theorem timestamps_ordered :
    (∀ seconds milliseconds : ℕ, unixTimestampToRfc3339 seconds milliseconds =
        if h : seconds < dayRange * 86400 ∧ milliseconds < 1000 then
          some (Instant.text ⟨seconds, milliseconds, h.1, h.2⟩)
        else none) ∧
      (∀ instant later : Instant, instant.text < later.text ↔ instant < later) ∧
      ∀ (left right : AiDispatchLedger.AiDispatchRecord) (instant later : Instant),
        AiDispatchLedger.olderThan { left with updatedAt := instant.text }
            { right with updatedAt := later.text } = true ↔
          instant < later ∨ instant = later ∧ left.dispatchId < right.dispatchId := by
  refine ⟨unixTimestampToRfc3339_eq, Instant.text_lt_iff, fun left right instant later => ?_⟩
  unfold AiDispatchLedger.olderThan
  rw [Bool.or_eq_true, Bool.and_eq_true, decide_eq_true_iff, decide_eq_true_iff, beq_iff_eq,
    Instant.text_lt_iff, Instant.text_eq_iff]

end Mio.Desktop.Time
