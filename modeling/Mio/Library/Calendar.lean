import Mathlib.Data.List.Lex
import Mathlib.Order.Lattice
import Mathlib.Order.Monotone.Basic
import Mathlib.Tactic.Common

/-!
# The Gregorian calendar

The calendar says which day comes after a day (`Date.next`), by the lengths of the months and the
rule of the leap years. The date so many days after another one is what comes from that many steps
(`dateAfter`). Dates are ordered as the days are (`dateAfter_lt_iff`).
-/

namespace Mio.Library

/-- Every fourth year is a leap year, but of the years of a century only every fourth is one. -/
def IsLeap (year : ℕ) : Prop := year % 4 = 0 ∧ (year % 100 = 0 → year % 400 = 0)

instance (year : ℕ) : Decidable (IsLeap year) :=
  inferInstanceAs (Decidable (year % 4 = 0 ∧ (year % 100 = 0 → year % 400 = 0)))

example : ¬IsLeap 1900 ∧ IsLeap 2000 ∧ IsLeap 2024 := by decide

/-- The number of days of a month. -/
def daysInMonth (year month : ℕ) : ℕ :=
  if month = 2 then if IsLeap year then 29 else 28
  else if month = 4 ∨ month = 6 ∨ month = 9 ∨ month = 11 then 30
  else 31

/-- Every month has a day. -/
theorem daysInMonth_pos (year month : ℕ) : 1 ≤ daysInMonth year month := by
  unfold daysInMonth
  split_ifs <;> omega

/-- No month has more than 31 days. -/
theorem daysInMonth_le (year month : ℕ) : daysInMonth year month ≤ 31 := by
  unfold daysInMonth
  split_ifs <;> omega

/-- A day of the calendar, which carries that it exists. -/
structure Date where
  year : ℕ
  month : ℕ
  day : ℕ
  month_range : 1 ≤ month ∧ month ≤ 12
  day_range : 1 ≤ day ∧ day ≤ daysInMonth year month

/-- The numbers of a date, in the order in which they count. -/
def Date.fields (date : Date) : List ℕ := [date.year, date.month, date.day]

/-- The day after this one. -/
def Date.next (date : Date) : Date :=
  if hday : date.day < daysInMonth date.year date.month then
    { date with
      day := date.day + 1
      day_range := ⟨by omega, hday⟩ }
  else if hmonth : date.month < 12 then
    { year := date.year
      month := date.month + 1
      day := 1
      month_range := ⟨by omega, hmonth⟩
      day_range := ⟨le_refl 1, daysInMonth_pos _ _⟩ }
  else
    { year := date.year + 1
      month := 1
      day := 1
      month_range := ⟨le_refl 1, by omega⟩
      day_range := ⟨le_refl 1, daysInMonth_pos _ _⟩ }

/-- The date so many days after this one. -/
def dateAfter (date : Date) (days : ℕ) : Date := Date.next^[days] date

/-- One day more is the next day. -/
theorem dateAfter_succ (date : Date) (days : ℕ) :
    dateAfter date (days + 1) = (dateAfter date days).next :=
  Function.iterate_succ_apply' Date.next days date

/-- The next day is a later date. -/
theorem fields_lt_next (date : Date) : date.fields < date.next.fields := by
  unfold Date.next
  split_ifs with hday hmonth
  · -- A later day of the month.
    show [date.year, date.month, date.day] < [date.year, date.month, date.day + 1]
    refine List.cons_lt_cons_iff.mpr (.inr ⟨rfl, List.cons_lt_cons_iff.mpr (.inr ⟨rfl, ?_⟩)⟩)
    exact List.cons_lt_cons_iff.mpr (.inl (Nat.lt_succ_self date.day))
  · -- The first day of a later month.
    show [date.year, date.month, date.day] < [date.year, date.month + 1, 1]
    refine List.cons_lt_cons_iff.mpr (.inr ⟨rfl, ?_⟩)
    exact List.cons_lt_cons_iff.mpr (.inl (Nat.lt_succ_self date.month))
  · -- The first day of a later year.
    show [date.year, date.month, date.day] < [date.year + 1, 1, 1]
    exact List.cons_lt_cons_iff.mpr (.inl (Nat.lt_succ_self date.year))

/-- Later days come later in the calendar. -/
theorem fields_strictMono (date : Date) :
    StrictMono fun days => (dateAfter date days).fields := by
  refine strictMono_nat_of_lt_succ fun days => ?_
  show (dateAfter date days).fields < (dateAfter date (days + 1)).fields
  rw [dateAfter_succ]
  exact fields_lt_next _

/-- The years of later dates are no earlier ones. -/
theorem year_monotone (date : Date) : Monotone fun days => (dateAfter date days).year := by
  refine monotone_nat_of_le_succ fun days => ?_
  rw [dateAfter_succ]
  unfold Date.next
  split_ifs
  · exact le_refl _
  · exact le_refl _
  · exact Nat.le_succ _

/-- Dates are ordered as the days are. -/
theorem dateAfter_lt_iff {date : Date} {days days' : ℕ} :
    (dateAfter date days).fields < (dateAfter date days').fields ↔ days < days' :=
  (fields_strictMono date).lt_iff_lt

/-- Different numbers of days lead to different dates. -/
theorem dateAfter_eq_iff {date : Date} {days days' : ℕ} :
    (dateAfter date days).fields = (dateAfter date days').fields ↔ days = days' :=
  (fields_strictMono date).injective.eq_iff

end Mio.Library
