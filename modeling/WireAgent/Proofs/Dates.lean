import Mathlib.Order.Monotone.Basic
import WireAgent.Calendar.Moment

/-!
# The dates of days

A day lies in the year and the month of its date, and the day of the month is counted from their
first (`isOf_ofDayNumber`). So the date of a day has the number of the day
(`dayNumber_ofDayNumber`), and read as one number, year before month before day, dates grow with the
days (`strictMono_rank`).

A reading of a clock has a universal time if its offset is known and universal time lies in the
calendar (`Reading.IsDatable`).
-/

namespace WireAgent.Calendar

/-! ## Years and months -/

theorem daysBeforeYear_succ {year : Nat} (h : 0 < year) :
    daysBeforeYear (year + 1) = daysBeforeYear year + 365 + if isLeap year then 1 else 0 := by
  obtain ⟨past, rfl⟩ := Nat.exists_eq_succ_of_ne_zero h.ne'
  -- A quotient grows by one where the divisor divides the next number, as a leap year is told.
  simp only [daysBeforeYear, isLeap, Nat.succ_eq_add_one, Nat.add_sub_cancel, Nat.succ_div,
    Nat.dvd_iff_mod_eq_zero, Bool.and_eq_true, Bool.or_eq_true, decide_eq_true_eq]
  have hquarter : past / 100 ≤ past / 4 := by omega
  split_ifs <;> omega

theorem daysBeforeYear_mono : Monotone daysBeforeYear := by
  refine monotone_nat_of_le_succ fun year => ?_
  rcases Nat.eq_zero_or_pos year with rfl | hyear
  · exact le_refl 0
  · rw [daysBeforeYear_succ hyear]
    omega

/-- No month has more than 31 days. -/
theorem daysBeforeMonth_succ (year month : Nat) :
    daysBeforeMonth year month ≤ daysBeforeMonth year (month + 1) ∧
      daysBeforeMonth year (month + 1) ≤ daysBeforeMonth year month + 31 := by
  unfold daysBeforeMonth
  match month with
  | 0 | 1 | 2 | 3 | 4 | 5 | 6 | 7 | 8 | 9 | 10 | 11 => cases isLeap year <;> decide
  | month + 12 => simp

theorem daysBeforeMonth_mono (year : Nat) : Monotone (daysBeforeMonth year) :=
  monotone_nat_of_le_succ fun month => (daysBeforeMonth_succ year month).1

theorem daysBeforeMonth_december (year : Nat) :
    daysBeforeMonth year 12 = 334 + if isLeap year then 1 else 0 := by
  unfold daysBeforeMonth
  cases isLeap year <;> rfl

namespace Date

/-! ## The date of a day -/

/-- A day lies in a year from its first day on, and before the next year if it lies before the last
one that is looked at. -/
theorem yearOf_spec (number last : Nat) :
    1 ≤ yearOf number last ∧ daysBeforeYear (yearOf number last) ≤ number ∧
      (number < daysBeforeYear (last + 1) → number < daysBeforeYear (yearOf number last + 1)) := by
  induction last with
  | zero =>
    have hfirst : daysBeforeYear 1 = 0 := rfl
    rw [yearOf, hfirst]
    exact ⟨le_refl 1, Nat.zero_le _, fun hlt => absurd hlt (Nat.not_lt_zero number)⟩
  | succ last ih =>
    rw [yearOf]
    split
    · next hbegun => exact ⟨Nat.le_add_left 1 last, hbegun, id⟩
    · next hbegun => exact ⟨ih.1, ih.2.1, fun _ => ih.2.2 (Nat.lt_of_not_le hbegun)⟩

/-- A day lies in a month from its first day on, and before the next month, unless the month is the
last one that is looked at. -/
theorem monthOf_spec (year dayOfYear : Nat) {last : Nat} (h : 1 ≤ last) :
    1 ≤ monthOf year dayOfYear last ∧ monthOf year dayOfYear last ≤ last ∧
      daysBeforeMonth year (monthOf year dayOfYear last) ≤ dayOfYear ∧
      (monthOf year dayOfYear last < last →
        dayOfYear < daysBeforeMonth year (monthOf year dayOfYear last + 1)) := by
  induction last, h using Nat.le_induction with
  | base =>
    have hfirst : daysBeforeMonth year 1 = 0 := rfl
    rw [monthOf, hfirst, if_pos (Nat.zero_le _)]
    exact ⟨le_refl 1, le_refl 1, Nat.zero_le _, fun hlt => absurd hlt (Nat.lt_irrefl 1)⟩
  | succ last hlast ih =>
    rw [monthOf]
    split
    · next hbegun =>
      exact ⟨Nat.le_add_left 1 last, le_refl _, hbegun, fun hlt => absurd hlt (Nat.lt_irrefl _)⟩
    · next hbegun =>
      obtain ⟨hpos, hle, hdays, hnext⟩ := ih
      refine ⟨hpos, Nat.le_succ_of_le hle, hdays, fun _ => ?_⟩
      rcases Nat.lt_or_eq_of_le hle with hlt | heq
      · exact hnext hlt
      · rw [heq]
        exact Nat.lt_of_not_le hbegun

/-- A date is that of a day: the day lies in its year and its month, and is counted from there. -/
structure IsOf (date : Date) (number : Nat) : Prop where
  year_pos : 1 ≤ date.year
  month_pos : 1 ≤ date.month
  month_le : date.month ≤ 12
  day_pos : 1 ≤ date.day
  number_eq :
    daysBeforeYear date.year + daysBeforeMonth date.year date.month + date.day = number + 1
  lt_nextYear : number < daysBeforeYear (date.year + 1)
  lt_nextMonth : date.month < 12 →
    number < daysBeforeYear date.year + daysBeforeMonth date.year (date.month + 1)

theorem isOf_ofDayNumber (number : Nat) : (ofDayNumber number).IsOf number := by
  obtain ⟨hyear, hbegun, hended⟩ := yearOf_spec number (number / 365 + 1)
  have hlast : number < daysBeforeYear (number / 365 + 1 + 1) := by
    simp only [daysBeforeYear]
    omega
  have hyearEnd := hended hlast
  rw [ofDayNumber]
  generalize yearOf number (number / 365 + 1) = year at hyear hbegun hyearEnd ⊢
  have hmonths := monthOf_spec year (number - daysBeforeYear year) (by decide : 1 ≤ 12)
  generalize monthOf year (number - daysBeforeYear year) 12 = month at hmonths ⊢
  obtain ⟨hmonth, hmonthLe, hdays, hmonthEnd⟩ := hmonths
  refine ⟨hyear, hmonth, hmonthLe, Nat.le_add_left 1 _, ?_, hyearEnd, fun hlt => ?_⟩
  · show daysBeforeYear year + daysBeforeMonth year month +
      (number - daysBeforeYear year - daysBeforeMonth year month + 1) = number + 1
    omega
  · have hbefore := hmonthEnd hlt
    show number < daysBeforeYear year + daysBeforeMonth year (month + 1)
    omega

/-- A date as one number. -/
def rank (date : Date) : Nat := 100 * (100 * date.year + date.month) + date.day

namespace IsOf

variable {date date' : Date} {number number' : Nat} (h : date.IsOf number)

include h

theorem dayNumber_eq : date.dayNumber = number := by
  rw [dayNumber, h.number_eq, Nat.add_sub_cancel]

theorem day_le : date.day ≤ 31 := by
  have hnumber := h.number_eq
  rcases Nat.lt_or_eq_of_le h.month_le with hmonth | hmonth
  · have hnext := h.lt_nextMonth hmonth
    have hlength := (daysBeforeMonth_succ date.year date.month).2
    omega
  · have hnext := h.lt_nextYear
    rw [daysBeforeYear_succ h.year_pos] at hnext
    rw [hmonth, daysBeforeMonth_december] at hnumber
    omega

/-- The days of the calendar end with its last year. -/
theorem year_le (hnumber : number < dayCount) : date.year ≤ lastYear := by
  by_contra hlate
  have hmono : daysBeforeYear (lastYear + 1) ≤ daysBeforeYear date.year :=
    daysBeforeYear_mono (Nat.lt_of_not_le hlate)
  have hbegun := h.number_eq
  have hday := h.day_pos
  unfold dayCount at hnumber
  omega

variable (h' : date'.IsOf number') (hlt : number < number')

include h' hlt

/-- A later day is in no earlier year. -/
theorem year_le_year : date.year ≤ date'.year := by
  by_contra hyear
  have hmono : daysBeforeYear (date'.year + 1) ≤ daysBeforeYear date.year :=
    daysBeforeYear_mono (Nat.lt_of_not_le hyear)
  have hbegun := h.number_eq
  have hday := h.day_pos
  have hended := h'.lt_nextYear
  omega

/-- A later day of a year is in no earlier month. -/
theorem month_le_month (hyear : date.year = date'.year) : date.month ≤ date'.month := by
  by_contra hmonth
  have hlater := Nat.lt_of_not_le hmonth
  have hmono : daysBeforeMonth date.year (date'.month + 1) ≤ daysBeforeMonth date.year date.month :=
    daysBeforeMonth_mono date.year hlater
  have hbegun := h.number_eq
  have hday := h.day_pos
  have hended := h'.lt_nextMonth (Nat.lt_of_lt_of_le hlater h.month_le)
  rw [← hyear] at hended
  omega

/-- A later day has a greater date. -/
theorem rank_lt_rank : date.rank < date'.rank := by
  have hday := h.day_le
  have hmonth := h.month_le
  unfold rank
  rcases Nat.lt_or_eq_of_le (h.year_le_year h' hlt) with hyear | hyear
  · omega
  · rcases Nat.lt_or_eq_of_le (h.month_le_month h' hlt hyear) with hmonths | hmonths
    · omega
    · have hnumber := h.number_eq
      have hnumber' := h'.number_eq
      rw [← hyear, ← hmonths] at hnumber'
      omega

end IsOf

/-- The date of a day has the number of the day. -/
theorem dayNumber_ofDayNumber (number : Nat) : (ofDayNumber number).dayNumber = number :=
  (isOf_ofDayNumber number).dayNumber_eq

/-- Dates are in the order of their days. -/
theorem strictMono_rank : StrictMono fun number => (ofDayNumber number).rank :=
  fun number number' hlt => (isOf_ofDayNumber number).rank_lt_rank (isOf_ofDayNumber number') hlt

/-- The day after the last one of February in a leap year at a century's end. -/
example : ofDayNumber (⟨2000, 2, 29⟩ : Date).dayNumber = ⟨2000, 2, 29⟩ := by
  decide +kernel

end Date

/-! ## Readings in the calendar -/

/-- A reading has an offset, and lies in the calendar by universal time. -/
structure Reading.IsDatable (r : Reading) : Prop where
  hasOffset : r.offset ≠ none
  first : 0 ≤ r.instant
  last : r.instant < (dayCount * daySeconds * 1000000 : Nat)

theorem Reading.IsDatable.toUtc_eq {r : Reading} (h : r.IsDatable) :
    r.toUtc = .ok (Utc.ofInstant r.instant.toNat) := by
  rw [toUtc, if_neg (fun hnaive => h.hasOffset hnaive.1)]
  exact if_neg (not_or.mpr ⟨not_lt.mpr h.first, not_le.mpr h.last⟩)

end WireAgent.Calendar
