import Mathlib
import ChartFeed.Time.Calendar

/-!
# Counting days through months

The calendar counts days through years that begin in March, which is good for computing and bad for
comparing.  Here they are counted through months: a month has a number, begins on some day and has a
length, and the next month begins where it ends.

* `Date.monthIndex`, `Date.monthStart`, `Date.monthLength` — the number of a month, the day number
  of its first day, and its length; `Date.monthStart_succ` — months follow one another;
* `Date.InCalendar` — the calendar has the date, of whatever year;
* `Date.inCalendar_ofDayNumber`, `Date.dayNumber_ofDayNumber` — every day number is that of a date
  of the calendar;
* `Date.dayNumber_addMonths` — moving by months goes from month to month and keeps the day as far as
  the month goes;
* `Date.InCalendar.dayNumber_addMonths_eq_iff` — so an earlier date stays earlier, unless both dates
  are of one month and become the last day of another.
-/

set_option autoImplicit false

namespace ChartFeed.Date

/-! ## Months -/

/-- The number of a date's month, counted through all years. -/
def monthIndex (d : Date) : ℤ := 12 * d.year + (d.month - 1 : ℤ)

/-- The date in a month. -/
def ofMonth (m : ℤ) (day : ℕ) : Date := ⟨m / 12, (m % 12).toNat + 1, day⟩

/-- The day number of the first day of a month. -/
def monthStart (m : ℤ) : ℤ := (ofMonth m 1).dayNumber

/-- The length of a month. -/
def monthLength (m : ℤ) : ℕ := daysInMonth (m / 12) ((m % 12).toNat + 1)

/-- The calendar has this date. -/
structure InCalendar (d : Date) : Prop where
  one_le_month : 1 ≤ d.month
  month_le : d.month ≤ 12
  one_le_day : 1 ≤ d.day
  day_le : d.day ≤ daysInMonth d.year d.month

theorem ofMonth_eq (year : ℤ) {r : ℕ} (hr : r < 12) (day : ℕ) :
    ofMonth (12 * year + r) day = ⟨year, r + 1, day⟩ := by
  have hyear : (12 * year + r) / 12 = year := by omega
  have hmonth : ((12 * year + r) % 12).toNat = r := by omega
  rw [ofMonth, hyear, hmonth]

theorem monthLength_eq (year : ℤ) {r : ℕ} (hr : r < 12) :
    monthLength (12 * year + r) = daysInMonth year (r + 1) := by
  have hyear : (12 * year + r) / 12 = year := by omega
  have hmonth : ((12 * year + r) % 12).toNat = r := by omega
  rw [monthLength, hyear, hmonth]

/-- Every month is some month of some year. -/
theorem exists_month (m : ℤ) : ∃ (year : ℤ) (r : ℕ), r < 12 ∧ m = 12 * year + r :=
  ⟨m / 12, (m % 12).toNat, by omega, by omega⟩

theorem InCalendar.monthIndex_eq {d : Date} (h : d.InCalendar) :
    d.monthIndex = 12 * d.year + (d.month - 1 : ℕ) := by
  have := h.one_le_month
  rw [monthIndex]
  omega

theorem InCalendar.ofMonth_monthIndex {d : Date} (h : d.InCalendar) :
    ofMonth d.monthIndex d.day = d := by
  have hone := h.one_le_month
  have htwelve := h.month_le
  rw [h.monthIndex_eq, ofMonth_eq _ (by omega), Nat.sub_add_cancel hone]

theorem InCalendar.monthLength_monthIndex {d : Date} (h : d.InCalendar) :
    monthLength d.monthIndex = daysInMonth d.year d.month := by
  have hone := h.one_le_month
  have htwelve := h.month_le
  rw [h.monthIndex_eq, monthLength_eq _ (by omega), Nat.sub_add_cancel hone]

theorem dayNumber_ofMonth (m : ℤ) (day : ℕ) :
    (ofMonth m day).dayNumber = monthStart m + day - 1 := by
  rw [monthStart, ofMonth, ofMonth, dayNumber, dayNumber]
  push_cast
  ring

/-- A date is as many days after the first of its month as its day says. -/
theorem InCalendar.dayNumber_eq {d : Date} (h : d.InCalendar) :
    d.dayNumber = monthStart d.monthIndex + d.day - 1 := by
  rw [← dayNumber_ofMonth, h.ofMonth_monthIndex]

theorem isLeapYear_iff (year : ℤ) :
    isLeapYear year = true ↔ year % 4 = 0 ∧ (year % 100 ≠ 0 ∨ year % 400 = 0) := by
  simp [isLeapYear]

/-- February has a day more in leap years. -/
theorem dayNumber_march (year : ℤ) :
    dayNumber ⟨year, 3, 1⟩ = dayNumber ⟨year, 2, 1⟩ + daysInMonth year 2 := by
  have hleap := isLeapYear_iff year
  simp only [dayNumber, daysInMonth, Nat.reduceLeDiff, if_true, if_false]
  by_cases h : isLeapYear year = true
  · rw [if_pos h]
    have := hleap.1 h
    omega
  · rw [if_neg h]
    have := mt hleap.2 h
    omega

/-- Within a year, a month begins where the one before it ends. -/
theorem dayNumber_next_month (year : ℤ) {r : ℕ} (hr : r < 11) :
    dayNumber ⟨year, r + 2, 1⟩ = dayNumber ⟨year, r + 1, 1⟩ + daysInMonth year (r + 1) := by
  by_cases hfebruary : r = 1
  · rw [hfebruary]
    exact dayNumber_march year
  · interval_cases r <;> first | exact absurd rfl hfebruary | (simp [dayNumber, daysInMonth]; ring)

/-- **Months follow one another.** -/
theorem monthStart_succ (m : ℤ) : monthStart (m + 1) = monthStart m + monthLength m := by
  obtain ⟨year, r, hr, rfl⟩ := exists_month m
  rw [monthLength_eq year hr, monthStart, monthStart, ofMonth_eq year hr]
  by_cases hlast : r = 11
  · have hnext : 12 * year + (r : ℤ) + 1 = 12 * (year + 1) + (0 : ℕ) := by
      rw [hlast]
      push_cast
      ring
    rw [hnext, ofMonth_eq _ (by decide), hlast]
    simp [dayNumber, daysInMonth]
    omega
  · have hnext : 12 * year + (r : ℤ) + 1 = 12 * year + (r + 1 : ℕ) := by
      push_cast
      ring
    rw [hnext, ofMonth_eq year (by omega)]
    exact dayNumber_next_month year (by omega)

theorem one_le_monthLength (m : ℤ) : 1 ≤ monthLength m := by
  rw [monthLength, daysInMonth]
  repeat' split
  all_goals decide

theorem monthStart_add_monthLength_le {m n : ℤ} (h : m < n) :
    monthStart m + monthLength m ≤ monthStart n := by
  obtain ⟨k, rfl⟩ : ∃ k : ℕ, n = m + 1 + k := ⟨(n - (m + 1)).toNat, by omega⟩
  clear h
  induction k with
  | zero => exact (monthStart_succ m).ge.trans_eq (by simp)
  | succ k ih =>
    have hnext : m + 1 + (k + 1 : ℕ) = m + 1 + k + 1 := by
      push_cast
      ring
    rw [hnext, monthStart_succ]
    omega

/-! ## Every day number is that of a date -/

/-- The days from 1 March of a year that begins an era to 1 March some years later. -/
def eraDays (years : ℤ) : ℤ := 365 * years + years / 4 - years / 100 + years / 400

/-- The days of an era without its leap days, up to one of its days. -/
def leaplessDays (day : ℤ) : ℤ := day - day / 1460 + day / 36524 - day / 146096

theorem leaplessDays_mono {d e : ℤ} (h : d ≤ e) : leaplessDays d ≤ leaplessDays e := by
  have hquads : e / 1460 - d / 1460 ≤ e - d := by omega
  have hcenturies : d / 146096 - d / 36524 ≥ e / 146096 - e / 36524 := by omega
  rw [leaplessDays, leaplessDays]
  omega

/-- A year begins when the days without leap days of the years before it are over. -/
theorem leaplessDays_eraDays : ∀ years : Fin 401,
    (0 < years.1 → leaplessDays (eraDays years - 1) < 365 * years) ∧
      (years.1 < 400 → 365 * (years : ℤ) ≤ leaplessDays (eraDays years)) := by
  decide +kernel

/-- The year of a day of an era. -/
theorem eraDays_le {day year : ℤ} (hday : 0 ≤ day ∧ day < 146097)
    (hyear : year = leaplessDays day / 365) :
    (0 ≤ year ∧ year < 400) ∧ eraDays year ≤ day ∧ day < eraDays (year + 1) := by
  have hfirst : leaplessDays 0 ≤ leaplessDays day := leaplessDays_mono hday.1
  have hlast : leaplessDays day ≤ leaplessDays 146096 := leaplessDays_mono (by omega)
  have hzero : leaplessDays 0 = 0 := by decide
  have hmost : leaplessDays 146096 = 145999 := by decide
  have hrange : 0 ≤ year ∧ year < 400 := by omega
  refine ⟨hrange, ?_, ?_⟩
  · by_contra hlt
    have hpos : year ≠ 0 := by
      rintro rfl
      exact hlt hday.1
    have hyears := (leaplessDays_eraDays ⟨year.toNat, by omega⟩).1 (by simp; omega)
    have hmono : leaplessDays day ≤ leaplessDays (eraDays year - 1) := leaplessDays_mono (by omega)
    simp only [Int.toNat_of_nonneg hrange.1] at hyears
    omega
  · by_contra hge
    by_cases hend : year = 399
    · rw [hend] at hge
      exact hge hday.2
    · have hyears := (leaplessDays_eraDays ⟨(year + 1).toNat, by omega⟩).2 (by simp; omega)
      have hmono : leaplessDays (eraDays (year + 1)) ≤ leaplessDays day :=
        leaplessDays_mono (by omega)
      simp only [Int.toNat_of_nonneg (show 0 ≤ year + 1 by omega)] at hyears
      omega

/-- The days of a year from 1 March to the first of a month some months later. -/
def monthDays (months : ℤ) : ℤ := (153 * months + 2) / 5

/-- The month of a day of a year that begins in March. -/
theorem monthDays_le : ∀ day : Fin 366,
    (5 * (day : ℤ) + 2) / 153 < 12 ∧ monthDays ((5 * (day : ℤ) + 2) / 153) ≤ day ∧
      (day : ℤ) < monthDays ((5 * (day : ℤ) + 2) / 153 + 1) := by
  decide +kernel

/-- The date of a day, from its era, year, month and day, the years beginning in March. -/
def ofMarch (era year month day : ℤ) : Date :=
  if month < 10 then ⟨year + 400 * era, (month + 3).toNat, day.toNat⟩
  else ⟨year + 400 * era + 1, (month - 9).toNat, day.toNat⟩

/-- **What the date of a day number is.** -/
theorem exists_ofDayNumber (n : ℤ) : ∃ era year month day : ℤ,
    ofDayNumber n = ofMarch era year month day ∧ (0 ≤ year ∧ year < 400) ∧
      (0 ≤ month ∧ month < 12) ∧ 1 ≤ day ∧ day ≤ monthDays (month + 1) - monthDays month ∧
      monthDays month + day ≤ eraDays (year + 1) - eraDays year ∧
      n + 719469 = 146097 * era + eraDays year + monthDays month + day := by
  have hday : 0 ≤ (n + 719468) % 146097 ∧ (n + 719468) % 146097 < 146097 := by omega
  obtain ⟨hyear, hstart, hstop⟩ := eraDays_le hday rfl
  set year := leaplessDays ((n + 719468) % 146097) / 365 with hyearOf
  have hyearDays : eraDays (year + 1) - eraDays year ≤ 366 := by
    rw [eraDays, eraDays]
    omega
  have hmonth := monthDays_le ⟨((n + 719468) % 146097 - eraDays year).toNat, by omega⟩
  have hdayOf : (((n + 719468) % 146097 - eraDays year).toNat : ℤ) =
      (n + 719468) % 146097 - eraDays year := Int.toNat_of_nonneg (by omega)
  simp only [hdayOf] at hmonth
  refine ⟨(n + 719468) / 146097, year, _, (n + 719468) % 146097 - eraDays year -
    monthDays ((5 * ((n + 719468) % 146097 - eraDays year) + 2) / 153) + 1, ?_, hyear,
    ⟨?_, hmonth.1⟩, ?_, ?_, ?_, ?_⟩
  · have hera : 365 * year + year / 4 - year / 100 = eraDays year := by
      rw [eraDays]
      omega
    have hyearOf' : ((n + 719468) % 146097 - (n + 719468) % 146097 / 1460 +
        (n + 719468) % 146097 / 36524 - (n + 719468) % 146097 / 146096) / 365 = year := rfl
    simp only [ofDayNumber, ofMarch, hyearOf', hera]
    split
    · rw [if_neg (by omega), add_zero]
      rfl
    · rw [if_pos (by omega)]
      rfl
  all_goals omega

section

variable {era year month day : ℤ} (hyear : 0 ≤ year ∧ year < 400) (hmonth : 0 ≤ month ∧ month < 12)
  (hday : 1 ≤ day)

include hyear hmonth hday

theorem dayNumber_ofMarch : (ofMarch era year month day).dayNumber =
    146097 * era + eraDays year + monthDays month + day - 719469 := by
  rw [ofMarch, eraDays, monthDays]
  split
  · rw [dayNumber]
    simp only
    rw [if_neg (by omega), if_neg (by omega)]
    omega
  · rw [dayNumber]
    simp only
    rw [if_pos (by omega), if_pos (by omega)]
    omega

theorem inCalendar_ofMarch (hlength : day ≤ monthDays (month + 1) - monthDays month)
    (hend : monthDays month + day ≤ eraDays (year + 1) - eraDays year) :
    (ofMarch era year month day).InCalendar := by
  rw [ofMarch]
  split
  · next hlt =>
    refine ⟨by simp; omega, by simp; omega, by simp; omega, ?_⟩
    rw [daysInMonth, if_neg (by simp; omega)]
    obtain ⟨hzero, -⟩ := hmonth
    interval_cases month <;> simp [monthDays] at hlength ⊢ <;> omega
  · next hge =>
    refine ⟨by simp; omega, by simp; omega, by simp; omega, ?_⟩
    rw [not_lt] at hge
    obtain ⟨-, htwelve⟩ := hmonth
    interval_cases month
    · simp [monthDays, daysInMonth] at hlength ⊢
      omega
    · have hleap := isLeapYear_iff (year + 400 * era + 1)
      rw [eraDays, eraDays, monthDays] at hend
      simp only [daysInMonth]
      rw [if_pos (by rfl)]
      split
      · simp
        omega
      · next h =>
        have := mt hleap.2 h
        simp
        omega

end

/-- **Every day number is that of a date of the calendar.** -/
theorem inCalendar_ofDayNumber (n : ℤ) : (ofDayNumber n).InCalendar := by
  obtain ⟨era, year, month, day, hdate, hyear, hmonth, hday, hlength, hend, -⟩ :=
    exists_ofDayNumber n
  rw [hdate]
  exact inCalendar_ofMarch hyear hmonth hday hlength hend

theorem dayNumber_ofDayNumber (n : ℤ) : (ofDayNumber n).dayNumber = n := by
  obtain ⟨era, year, month, day, hdate, hyear, hmonth, hday, -, -, hn⟩ := exists_ofDayNumber n
  rw [hdate, dayNumber_ofMarch hyear hmonth hday]
  omega

/-! ## Moving by months -/

variable {d e : Date}

/-- Moving by months keeps the day as far as the month goes. -/
theorem dayNumber_addMonths (d : Date) (months : ℤ) : (d.addMonths months).dayNumber =
    monthStart (d.monthIndex + months) +
      (min d.day (monthLength (d.monthIndex + months)) : ℕ) - 1 :=
  dayNumber_ofMonth ..

/-- Both dates are of one month, and become the last day of another. -/
def MeetsAtEnd (months : ℤ) (d e : Date) : Prop :=
  d.monthIndex = e.monthIndex ∧ d.day < e.day ∧ monthLength (d.monthIndex + months) ≤ d.day

/-- A date of an earlier month is earlier. -/
theorem InCalendar.dayNumber_lt (hd : d.InCalendar) (he : e.InCalendar)
    (h : d.monthIndex < e.monthIndex) : d.dayNumber < e.dayNumber := by
  have hstart := monthStart_add_monthLength_le h
  have hday := hd.day_le
  have hone := he.one_le_day
  rw [← hd.monthLength_monthIndex] at hday
  rw [hd.dayNumber_eq, he.dayNumber_eq]
  omega

/-- Of two dates the earlier has an earlier month, or an earlier day of the same month. -/
theorem InCalendar.dayNumber_lt_iff (hd : d.InCalendar) (he : e.InCalendar) :
    d.dayNumber < e.dayNumber ↔
      d.monthIndex < e.monthIndex ∨ d.monthIndex = e.monthIndex ∧ d.day < e.day := by
  rcases lt_trichotomy d.monthIndex e.monthIndex with hlt | heq | hgt
  · exact iff_of_true (hd.dayNumber_lt he hlt) (.inl hlt)
  · rw [hd.dayNumber_eq, he.dayNumber_eq, heq]
    omega
  · have := he.dayNumber_lt hd hgt
    omega

/-- **An earlier date is not later after moving by months**, and still earlier unless both dates
meet at the end of a month. -/
theorem InCalendar.dayNumber_addMonths_eq_iff (hd : d.InCalendar) (he : e.InCalendar)
    (months : ℤ) (h : d.dayNumber < e.dayNumber) :
    (d.addMonths months).dayNumber ≤ (e.addMonths months).dayNumber ∧
      ((d.addMonths months).dayNumber = (e.addMonths months).dayNumber ↔
        MeetsAtEnd months d e) := by
  have hlength := one_le_monthLength (d.monthIndex + months)
  rw [dayNumber_addMonths, dayNumber_addMonths, MeetsAtEnd]
  rcases (hd.dayNumber_lt_iff he).1 h with hlt | ⟨heq, hday⟩
  · have hstart := monthStart_add_monthLength_le (show d.monthIndex + months < e.monthIndex + months
      by omega)
    have hone := he.one_le_day
    have hlength' := one_le_monthLength (e.monthIndex + months)
    omega
  · rw [← heq]
    omega

end ChartFeed.Date
