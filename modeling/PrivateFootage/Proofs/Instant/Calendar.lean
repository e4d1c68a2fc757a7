import Mathlib
import PrivateFootage.Instant

/-!
# Days and dates

The calendar repeats every 400 years, which are counted from a first of March. Such an era has 146097
days: four centuries of 36524 days each, in them spans of four years of 1461 days, and the leap day at
the end of the span, which is missing where a century ends and there again where the era ends. The
year in which a day falls is found by one quotient that corrects for the leap days before it.
-/

namespace PrivateFootage.Instant

/-- Whether the leap day at the end of a year counted from March exists. -/
def EndsInLeapDay (year : ℤ) : Prop :=
  (year + 1) % 4 = 0 ∧ ((year + 1) % 100 ≠ 0 ∨ (year + 1) % 400 = 0)

/-- The year of the era in which a day of the era falls. -/
def yearOfEra (dayOfEra : ℤ) : ℤ :=
  (dayOfEra - dayOfEra / 1460 + dayOfEra / 36524 - dayOfEra / 146096) / 365

/-- The first day of a year of the era. -/
def firstDay (year : ℤ) : ℤ :=
  365 * year + year / 4 - year / 100

/-- A day of the era by its century, its span of four years and its day of the span. -/
theorem exists_century_span {dayOfEra : ℤ} (hpos : 0 ≤ dayOfEra) (hlt : dayOfEra < 146097) :
    ∃ century span day : ℤ, 0 ≤ century ∧ century ≤ 3 ∧ 0 ≤ span ∧ span ≤ 24 ∧ 0 ≤ day ∧ day ≤ 1460 ∧
      (span = 24 → day = 1460 → century = 3) ∧
      dayOfEra = 36524 * century + 1461 * span + day := by
  by_cases hlast : dayOfEra = 146096
  · exact ⟨3, 24, 1460, by omega⟩
  · exact ⟨dayOfEra / 36524, dayOfEra % 36524 / 1461, dayOfEra % 36524 % 1461, by omega⟩

/-- The year of a day is the one of its span that the day has reached. -/
theorem yearOfEra_eq {century span day : ℤ} (hcentury : 0 ≤ century ∧ century ≤ 3)
    (hspan : 0 ≤ span ∧ span ≤ 24) (hday : 0 ≤ day ∧ day ≤ 1460)
    (hlast : span = 24 → day = 1460 → century = 3) :
    yearOfEra (36524 * century + 1461 * span + day) =
      100 * century + 4 * span + (if day = 1460 then 3 else day / 365) := by
  obtain ⟨dayOfEra, hdayOfEra⟩ : ∃ dayOfEra, dayOfEra = 36524 * century + 1461 * span + day := ⟨_, rfl⟩
  have hleapDays : dayOfEra / 1460 =
      25 * century + span + (24 * century + span + day) / 1460 := by omega
  have hcenturies : dayOfEra / 36524 - dayOfEra / 146096 = century := by
    by_cases hend : span = 24 ∧ day = 1460
    · have hthird := hlast hend.1 hend.2
      omega
    · have hcount : dayOfEra / 36524 = century := by omega
      have hnone : dayOfEra / 146096 = 0 := by omega
      omega
  rw [← hdayOfEra, yearOfEra]
  split
  · omega
  · omega

/-- The first day of a year by its century, its span and its place in the span. -/
theorem firstDay_eq {century span year : ℤ} (hspan : 0 ≤ span ∧ span ≤ 24)
    (hyear : 0 ≤ year ∧ year ≤ 3) :
    firstDay (100 * century + 4 * span + year) = 36524 * century + 1461 * span + 365 * year := by
  unfold firstDay
  omega

/-- The day of a year is at most the 366th, and only in years that end in a leap day. -/
theorem dayOfYear_bounds {dayOfEra : ℤ} (hpos : 0 ≤ dayOfEra) (hlt : dayOfEra < 146097) :
    0 ≤ yearOfEra dayOfEra ∧ yearOfEra dayOfEra ≤ 399 ∧
      0 ≤ dayOfEra - firstDay (yearOfEra dayOfEra) ∧
      dayOfEra - firstDay (yearOfEra dayOfEra) ≤ 365 ∧
      (dayOfEra - firstDay (yearOfEra dayOfEra) = 365 → EndsInLeapDay (yearOfEra dayOfEra)) := by
  obtain ⟨century, span, day, hcentury, hcentury', hspan, hspan', hday, hday', hlast, rfl⟩ :=
    exists_century_span hpos hlt
  rw [yearOfEra_eq ⟨hcentury, hcentury'⟩ ⟨hspan, hspan'⟩ ⟨hday, hday'⟩ hlast]
  obtain ⟨year, hyear, hyear', hstart, hend⟩ : ∃ year : ℤ, 0 ≤ year ∧ year ≤ 3 ∧
      (if day = 1460 then 3 else day / 365) = year ∧
      0 ≤ day - 365 * year ∧ day - 365 * year ≤ 365 ∧ (day - 365 * year = 365 → day = 1460) := by
    split
    · exact ⟨3, by omega⟩
    · exact ⟨day / 365, by omega⟩
  rw [hstart, firstDay_eq ⟨hspan, hspan'⟩ ⟨hyear, hyear'⟩]
  refine ⟨by omega, by omega, by omega, by omega, fun hleap => ?_⟩
  unfold EndsInLeapDay
  omega

/-- The year, month and day of a day of a year counted from March. -/
def dateOfYearDay (year dayOfYear : ℤ) : ℤ × ℤ × ℤ :=
  let marchMonth := (5 * dayOfYear + 2) / 153
  let month := if marchMonth < 10 then marchMonth + 3 else marchMonth - 9
  (year + (if month ≤ 2 then 1 else 0), month, dayOfYear - (153 * marchMonth + 2) / 5 + 1)

/-- The date of a day is the date of its day in its year. -/
theorem dateOfDays_eq (days : ℤ) :
    ∃ era year dayOfYear : ℤ, 0 ≤ year ∧ year ≤ 399 ∧ 0 ≤ dayOfYear ∧ dayOfYear ≤ 365 ∧
      (dayOfYear = 365 → EndsInLeapDay year) ∧
      days + 719468 = era * 146097 + (firstDay year + dayOfYear) ∧
      dateOfDays days = dateOfYearDay (year + era * 400) dayOfYear := by
  obtain ⟨dayOfEra, hdayOfEra⟩ :
      ∃ dayOfEra, dayOfEra = days + 719468 - (days + 719468) / 146097 * 146097 := ⟨_, rfl⟩
  have hpos : 0 ≤ dayOfEra := by omega
  have hlt : dayOfEra < 146097 := by omega
  obtain ⟨hyear, hyear', hday, hday', hleap⟩ := dayOfYear_bounds hpos hlt
  refine ⟨(days + 719468) / 146097, yearOfEra dayOfEra, dayOfEra - firstDay (yearOfEra dayOfEra),
    hyear, hyear', hday, hday', hleap, by omega, ?_⟩
  rw [hdayOfEra]
  rfl

/-- The leap day belongs to the calendar year that starts in the year counted from March. -/
theorem isLeapYear_of_endsInLeapDay {year : ℤ} (hleap : EndsInLeapDay year) (era : ℤ) :
    isLeapYear (year + era * 400 + 1) = true := by
  unfold EndsInLeapDay at hleap
  have hfour : (year + era * 400 + 1) % 4 = 0 := by omega
  have hcentury : (year + era * 400 + 1) % 100 ≠ 0 ∨ (year + era * 400 + 1) % 400 = 0 := by omega
  simpa [isLeapYear, hfour] using hcentury

/-- A day of a year has a month and a day of that month. -/
theorem dateOfYearDay_valid {year dayOfYear : ℤ} (era : ℤ) (hday : 0 ≤ dayOfYear) (hday' : dayOfYear ≤ 365)
    (hleap : dayOfYear = 365 → EndsInLeapDay year) :
    let date := dateOfYearDay (year + era * 400) dayOfYear
    1 ≤ date.2.1 ∧ date.2.1 ≤ 12 ∧ 1 ≤ date.2.2 ∧ date.2.2 ≤ daysInMonth date.1 date.2.1 := by
  obtain ⟨marchMonth, hmonth, hcases⟩ : ∃ marchMonth : ℤ, (5 * dayOfYear + 2) / 153 = marchMonth ∧
      (marchMonth = 0 ∨ marchMonth = 1 ∨ marchMonth = 2 ∨ marchMonth = 3 ∨ marchMonth = 4 ∨
        marchMonth = 5 ∨ marchMonth = 6 ∨ marchMonth = 7 ∨ marchMonth = 8 ∨ marchMonth = 9 ∨
        marchMonth = 10 ∨ marchMonth = 11) := ⟨_, rfl, by omega⟩
  unfold dateOfYearDay
  rw [hmonth]
  rcases hcases with rfl | rfl | rfl | rfl | rfl | rfl | rfl | rfl | rfl | rfl | rfl | rfl
  case inr.inr.inr.inr.inr.inr.inr.inr.inr.inr.inr =>
    -- February is the last month, and the 366th day its 29th.
    by_cases hlast : dayOfYear = 365
    · have hyear := isLeapYear_of_endsInLeapDay (hleap hlast) era
      simp [daysInMonth, hyear]
      omega
    · simp [daysInMonth]
      split <;> omega
  all_goals
    simp [daysInMonth]
    omega

/-- The day is found again from its date. -/
theorem daysOfDate_dateOfYearDay {year dayOfYear : ℤ} (era : ℤ) (hyear : 0 ≤ year)
    (hyear' : year ≤ 399) (hday : 0 ≤ dayOfYear) (hday' : dayOfYear ≤ 365) :
    let date := dateOfYearDay (year + era * 400) dayOfYear
    daysOfDate date.1 date.2.1 date.2.2 = era * 146097 + (firstDay year + dayOfYear) - 719468 := by
  obtain ⟨marchMonth, hmonth, hpos, hlt⟩ : ∃ marchMonth : ℤ, (5 * dayOfYear + 2) / 153 = marchMonth ∧
      0 ≤ marchMonth ∧ marchMonth < 12 := ⟨_, rfl, by omega⟩
  obtain ⟨month, hdate, hback⟩ : ∃ month : ℤ,
      (if marchMonth < 10 then marchMonth + 3 else marchMonth - 9) = month ∧
        (month + 9) % 12 = marchMonth := by
    refine ⟨_, rfl, ?_⟩
    split <;> omega
  have hmarchYear : ∀ marchYear : ℤ,
      (if month ≤ 2 then marchYear + (if month ≤ 2 then 1 else 0) - 1
        else marchYear + (if month ≤ 2 then 1 else 0)) = marchYear := by
    intro marchYear
    split <;> omega
  have hera : (year + era * 400) / 400 = era := by omega
  unfold dateOfYearDay daysOfDate
  dsimp only
  rw [hmonth, hdate, hmarchYear, hback, hera, add_sub_cancel_right, firstDay]
  omega

/-- The date of a day is a date of the calendar, and the day is found again from it. -/
theorem dateOfDays_valid (days : ℤ) :
    1 ≤ (dateOfDays days).2.1 ∧ (dateOfDays days).2.1 ≤ 12 ∧ 1 ≤ (dateOfDays days).2.2 ∧
      (dateOfDays days).2.2 ≤ daysInMonth (dateOfDays days).1 (dateOfDays days).2.1 ∧
      daysOfDate (dateOfDays days).1 (dateOfDays days).2.1 (dateOfDays days).2.2 = days := by
  obtain ⟨era, year, dayOfYear, hyear, hyear', hday, hday', hleap, hdays, heq⟩ := dateOfDays_eq days
  obtain ⟨hmonth, hmonth', hdate, hdate'⟩ := dateOfYearDay_valid era hday hday' hleap
  rw [heq]
  refine ⟨hmonth, hmonth', hdate, hdate', ?_⟩
  rw [daysOfDate_dateOfYearDay era hyear hyear' hday hday']
  omega

end PrivateFootage.Instant
