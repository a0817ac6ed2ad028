import Mathlib.Algebra.Group.Int.Defs
import Mathlib.Algebra.Order.Ring.Int
import Mathlib.Tactic.IntervalCases
import Mathlib.Tactic.SplitIfs

/-!
# Civil dates

Days are counted from the first of January 1970 in the proleptic Gregorian calendar. The count
of a date and the date of a count are computed in eras of four hundred years that begin in
March, so that the day that leap years add is the last one of a year.
-/

namespace CivilTime

/-- A date. -/
structure CivilDate where
  year : ℤ
  month : ℤ
  day : ℤ
  deriving DecidableEq

/-- The days before a month of a year that begins in March. -/
def daysBeforeMonth (month : ℤ) : ℤ := (153 * month + 2) / 5

/-- The days before a year of an era. -/
def daysBeforeYear (year : ℤ) : ℤ := 365 * year + year / 4 - year / 100

/-- The count of a date. -/
def daysFromCivil (year month day : ℤ) : ℤ :=
  let marchYear := if month ≤ 2 then year - 1 else year
  let marchMonth := if month ≤ 2 then month + 9 else month - 3
  marchYear / 400 * 146097 + daysBeforeYear (marchYear % 400) + daysBeforeMonth marchMonth +
    day - 1 - 719468

/-- The day of the week of a count, from Sunday on. -/
def weekday (days : ℤ) : ℤ := (days + 4) % 7

/-- The year of an era that a day of the era lies in: its century, its leap cycle of four
years, and its year in the cycle. -/
def yearOfEra (day : ℤ) : ℤ :=
  let century := min (day / 36524) 3
  let dayOfCentury := day - 36524 * century
  let cycle := dayOfCentury / 1461
  century * 100 + cycle * 4 + min ((dayOfCentury - 1461 * cycle) / 365) 3

/-- The date of a count. -/
def civilFromDays (days : ℤ) : CivilDate :=
  let shifted := days + 719468
  let dayOfEra := shifted % 146097
  let marchYear := yearOfEra dayOfEra
  let dayOfYear := dayOfEra - daysBeforeYear marchYear
  let marchMonth := (5 * dayOfYear + 2) / 153
  let month := if marchMonth < 10 then marchMonth + 3 else marchMonth - 9
  { year := shifted / 146097 * 400 + marchYear + if month ≤ 2 then 1 else 0
    month := month
    day := dayOfYear - daysBeforeMonth marchMonth + 1 }

/-- The days before a year, by its century and its place in the leap cycle. -/
theorem daysBeforeYear_eq {century cycle year : ℤ} (hcycle : 0 ≤ cycle ∧ cycle < 25)
    (hyear : 0 ≤ year ∧ year < 4) : daysBeforeYear (century * 100 + cycle * 4 + year) =
      century * 36524 + cycle * 1461 + year * 365 := by
  unfold daysBeforeYear
  omega

/-- The year of a day in its era. -/
theorem yearOfEra_spec {day : ℤ} (low : 0 ≤ day) (high : day < 146097) :
    0 ≤ yearOfEra day ∧ yearOfEra day < 400 ∧ daysBeforeYear (yearOfEra day) ≤ day ∧
      day - daysBeforeYear (yearOfEra day) < 366 := by
  unfold yearOfEra
  dsimp only
  generalize hcentury : min (day / 36524) 3 = century
  generalize hcycle : (day - 36524 * century) / 1461 = cycle
  generalize hyear : min ((day - 36524 * century - 1461 * cycle) / 365) 3 = year
  rw [daysBeforeYear_eq (by omega) (by omega)]
  omega

/-- The month of a day in its year that begins in March. -/
theorem daysBeforeMonth_spec (day : ℤ) (low : 0 ≤ day) (high : day < 366) :
    0 ≤ (5 * day + 2) / 153 ∧ (5 * day + 2) / 153 < 12 ∧
      daysBeforeMonth ((5 * day + 2) / 153) ≤ day ∧
      day - daysBeforeMonth ((5 * day + 2) / 153) < 31 := by
  unfold daysBeforeMonth
  omega

/-- What the date of a count is made of. -/
theorem civilFromDays_spec (days : ℤ) : ∃ era marchYear marchMonth day : ℤ,
    0 ≤ marchYear ∧ marchYear < 400 ∧ 0 ≤ marchMonth ∧ marchMonth < 12 ∧ 0 ≤ day ∧ day < 31 ∧
      days = era * 146097 + daysBeforeYear marchYear + daysBeforeMonth marchMonth + day - 719468 ∧
      civilFromDays days =
        { year := era * 400 + marchYear + if 10 ≤ marchMonth then 1 else 0
          month := if marchMonth < 10 then marchMonth + 3 else marchMonth - 9
          day := day + 1 } := by
  have hyear := yearOfEra_spec (Int.emod_nonneg (days + 719468) (by decide))
    (Int.emod_lt_of_pos (days + 719468) (by decide))
  generalize hday : (days + 719468) % 146097 = dayOfEra at hyear
  have hmonth := daysBeforeMonth_spec (dayOfEra - daysBeforeYear (yearOfEra dayOfEra)) (by omega)
    (by omega)
  refine ⟨(days + 719468) / 146097, yearOfEra dayOfEra,
    (5 * (dayOfEra - daysBeforeYear (yearOfEra dayOfEra)) + 2) / 153, _, hyear.1, hyear.2.1,
    hmonth.1, hmonth.2.1, sub_nonneg.mpr hmonth.2.2.1, hmonth.2.2.2, by omega, ?_⟩
  simp only [civilFromDays, hday, CivilDate.mk.injEq]
  generalize (5 * (dayOfEra - daysBeforeYear (yearOfEra dayOfEra)) + 2) / 153 = marchMonth at hmonth
  refine ⟨?_, trivial, trivial⟩
  split_ifs <;> omega

/-- The months and days of a date are in range. -/
theorem civilFromDays_range (days : ℤ) :
    1 ≤ (civilFromDays days).month ∧ (civilFromDays days).month ≤ 12 ∧
      1 ≤ (civilFromDays days).day ∧ (civilFromDays days).day ≤ 31 := by
  obtain ⟨era, marchYear, marchMonth, day, -, -, hmonth, hmonth', hday, hday', -, hdate⟩ :=
    civilFromDays_spec days
  rw [hdate]
  dsimp only
  split_ifs <;> omega

/-- An era later the date is the same in another year. -/
theorem civilFromDays_add_era (days : ℤ) : civilFromDays (days + 146097) =
    { civilFromDays days with year := (civilFromDays days).year + 400 } := by
  have hquotient : (days + 146097 + 719468) / 146097 = (days + 719468) / 146097 + 1 := by omega
  have hremainder : (days + 146097 + 719468) % 146097 = (days + 719468) % 146097 := by omega
  simp only [civilFromDays, hquotient, hremainder, CivilDate.mk.injEq, and_true]
  omega

/-- An era is a number of whole weeks. -/
theorem weekday_add_era (days : ℤ) : weekday (days + 146097) = weekday days := by
  unfold weekday
  omega

/-- Counting the date of a count gives the count. -/
theorem daysFromCivil_civilFromDays (days : ℤ) :
    daysFromCivil (civilFromDays days).year (civilFromDays days).month (civilFromDays days).day =
      days := by
  obtain ⟨era, marchYear, marchMonth, day, hyear, hyear', hmonth, hmonth', hday, hday', hdays,
    hdate⟩ := civilFromDays_spec days
  rw [hdate, hdays]
  unfold daysFromCivil
  dsimp only
  by_cases hlate : 10 ≤ marchMonth
  · have hera : era * 400 + marchYear + 1 - 1 = era * 400 + marchYear := by omega
    have hlow : marchMonth - 9 ≤ 2 := by omega
    have hmarch : ¬marchMonth < 10 := by omega
    simp only [if_pos hlate, if_neg hmarch, if_pos hlow, hera]
    have hdiv : (era * 400 + marchYear) / 400 = era := by omega
    have hmod : (era * 400 + marchYear) % 400 = marchYear := by omega
    rw [hdiv, hmod, Int.sub_add_cancel]
    omega
  · have hhigh : ¬marchMonth + 3 ≤ 2 := by omega
    have hmarch : marchMonth < 10 := by omega
    simp only [if_neg hlate, if_pos hmarch, if_neg hhigh, Int.add_zero]
    have hdiv : (era * 400 + marchYear) / 400 = era := by omega
    have hmod : (era * 400 + marchYear) % 400 = marchYear := by omega
    rw [hdiv, hmod, Int.add_sub_cancel]
    omega

/-- Leap years. -/
def IsLeap (year : ℤ) : Prop := year % 4 = 0 ∧ (year % 100 ≠ 0 ∨ year % 400 = 0)

instance (year : ℤ) : Decidable (IsLeap year) := inferInstanceAs (Decidable (_ ∧ _))

/-- The days of a month. -/
def monthLength (year month : ℤ) : ℤ :=
  if month = 2 then if IsLeap year then 29 else 28
  else if month = 4 ∨ month = 6 ∨ month = 9 ∨ month = 11 then 30 else 31

/-- The month of a day that is counted from the beginning of its month. -/
theorem month_of_day {marchMonth day : ℤ} (hmonth : 0 ≤ marchMonth ∧ marchMonth < 12)
    (hday : 0 ≤ day ∧ day < 31)
    (hshort : marchMonth = 1 ∨ marchMonth = 3 ∨ marchMonth = 6 ∨ marchMonth = 8 → day < 30)
    (hlast : marchMonth = 11 → day < 29) :
    (5 * (daysBeforeMonth marchMonth + day) + 2) / 153 = marchMonth := by
  unfold daysBeforeMonth
  obtain ⟨low, high⟩ := hmonth
  interval_cases marchMonth <;> omega

/-- The year of a day that is counted from the beginning of its year. -/
theorem yearOfEra_daysBeforeYear {year day : ℤ} (hyear : 0 ≤ year ∧ year < 400)
    (hday : 0 ≤ day ∧ day < 366) (hleap : day = 365 → IsLeap (year + 1)) :
    yearOfEra (daysBeforeYear year + day) = year := by
  have hsplit : year = year / 100 * 100 + year % 100 / 4 * 4 + year % 4 := by omega
  have hbefore : daysBeforeYear year =
      year / 100 * 36524 + year % 100 / 4 * 1461 + year % 4 * 365 := by
    unfold daysBeforeYear
    omega
  have hcentury : 0 ≤ year / 100 ∧ year / 100 < 4 := by omega
  have hcycle : 0 ≤ year % 100 / 4 ∧ year % 100 / 4 < 25 := by omega
  have hplace : 0 ≤ year % 4 ∧ year % 4 < 4 := by omega
  have hlast : day = 365 → year % 4 = 3 ∧ (year % 100 / 4 < 24 ∨ year / 100 = 3) := by
    unfold IsLeap at hleap
    omega
  unfold yearOfEra
  dsimp only
  rw [hbefore]
  generalize year / 100 = century at *
  generalize year % 100 / 4 = cycle at *
  generalize year % 4 = place at *
  have hmin : min ((century * 36524 + cycle * 1461 + place * 365 + day) / 36524) 3 = century := by
    omega
  rw [hmin]
  have hrest : century * 36524 + cycle * 1461 + place * 365 + day - 36524 * century =
      cycle * 1461 + place * 365 + day := by omega
  rw [hrest]
  have hdiv : (cycle * 1461 + place * 365 + day) / 1461 = cycle := by omega
  rw [hdiv]
  omega

/-- The last day of a leap year. -/
theorem isLeap_of_last_day {day : ℤ} (low : 0 ≤ day) (high : day < 146097)
    (hlast : day - daysBeforeYear (yearOfEra day) = 365) : IsLeap (yearOfEra day + 1) := by
  unfold yearOfEra at *
  dsimp only at *
  generalize hcentury : min (day / 36524) 3 = century at *
  generalize hcycle : (day - 36524 * century) / 1461 = cycle at *
  generalize hplace : min ((day - 36524 * century - 1461 * cycle) / 365) 3 = place at *
  rw [daysBeforeYear_eq (by omega) (by omega)] at hlast
  have hrange : 0 ≤ century ∧ century ≤ 3 ∧ 0 ≤ cycle ∧ cycle ≤ 24 := by omega
  have hthird : place = 3 := by omega
  have hcycles : cycle < 24 ∨ century = 3 := by omega
  rw [hthird]
  unfold IsLeap
  omega

/-- The day of a month is not behind its last one. -/
theorem day_of_month {marchMonth day : ℤ} (low : 0 ≤ day) (high : day < 366)
    (hmonth : (5 * day + 2) / 153 = marchMonth) :
    (marchMonth = 1 ∨ marchMonth = 3 ∨ marchMonth = 6 ∨ marchMonth = 8 →
      day - daysBeforeMonth marchMonth < 30) ∧
    (marchMonth = 11 → day - daysBeforeMonth marchMonth ≤ 28 ∧
      (day - daysBeforeMonth marchMonth = 28 → day = 365)) := by
  have hbounds := daysBeforeMonth_spec day low high
  rw [hmonth] at hbounds
  obtain ⟨hlow, hhigh, -, -⟩ := hbounds
  unfold daysBeforeMonth
  interval_cases marchMonth <;> omega

/-- The day of the date of a count exists in its month. -/
theorem civilFromDays_day_le (days : ℤ) : (civilFromDays days).day ≤
    monthLength (civilFromDays days).year (civilFromDays days).month := by
  have hlow : 0 ≤ (days + 719468) % 146097 := Int.emod_nonneg _ (by decide)
  have hhigh : (days + 719468) % 146097 < 146097 := Int.emod_lt_of_pos _ (by decide)
  have hyear := yearOfEra_spec hlow hhigh
  have hleap := isLeap_of_last_day hlow hhigh
  simp only [civilFromDays]
  generalize (days + 719468) % 146097 = dayOfEra at *
  generalize hmarch : yearOfEra dayOfEra = marchYear at *
  generalize hday : dayOfEra - daysBeforeYear marchYear = dayOfYear at *
  generalize (days + 719468) / 146097 = era
  have hmonth := day_of_month (by omega) (by omega) (Eq.refl ((5 * dayOfYear + 2) / 153))
  have hbounds := daysBeforeMonth_spec dayOfYear (by omega) (by omega)
  generalize (5 * dayOfYear + 2) / 153 = marchMonth at *
  by_cases hfebruary : marchMonth = 11
  · have hlate : ¬marchMonth < 10 := by omega
    have htwo : marchMonth - 9 = 2 := by omega
    simp only [if_neg hlate, htwo, monthLength]
    by_cases hlast : dayOfYear - daysBeforeMonth marchMonth = 28
    · have hshown := hleap ((hmonth.2 hfebruary).2 hlast)
      have hyears : IsLeap (era * 400 + marchYear + 1) := by
        unfold IsLeap at hshown ⊢
        omega
      simp only [le_refl, if_true, if_pos hyears]
      omega
    · have hshort := (hmonth.2 hfebruary).1
      split_ifs <;> omega
  · unfold monthLength
    split_ifs <;> omega

/-- The date of the count of a date is the date. -/
theorem civilFromDays_daysFromCivil {year month day : ℤ} (hmonth : 1 ≤ month ∧ month ≤ 12)
    (hday : 1 ≤ day ∧ day ≤ monthLength year month) :
    civilFromDays (daysFromCivil year month day) = ⟨year, month, day⟩ := by
  generalize hyear : (if month ≤ 2 then year - 1 else year) = marchYear
  generalize hmarch : (if month ≤ 2 then month + 9 else month - 3) = marchMonth
  have hrange : 0 ≤ marchMonth ∧ marchMonth < 12 := by
    rw [← hmarch]
    split_ifs <;> omega
  have hshort : day ≤ 31 ∧
      (marchMonth = 1 ∨ marchMonth = 3 ∨ marchMonth = 6 ∨ marchMonth = 8 → day ≤ 30) := by
    unfold monthLength at hday
    split_ifs at hday hmarch <;> omega
  have hfebruary : marchMonth = 11 → day ≤ 28 ∨ day = 29 ∧ IsLeap (marchYear + 1) := by
    intro hlast
    have hmonth2 : month = 2 := by split_ifs at hmarch <;> omega
    have hyear2 : marchYear + 1 = year := by
      rw [← hyear, hmonth2]
      omega
    rw [monthLength, if_pos hmonth2] at hday
    rw [hyear2]
    by_cases hleap : IsLeap year
    · rw [if_pos hleap] at hday
      by_cases hshorter : day ≤ 28
      · exact .inl hshorter
      · exact .inr ⟨by omega, hleap⟩
    · rw [if_neg hleap] at hday
      exact .inl hday.2
  have hbefore : 0 ≤ daysBeforeMonth marchMonth ∧ daysBeforeMonth marchMonth ≤ 337 ∧
      (marchMonth ≠ 11 → daysBeforeMonth marchMonth ≤ 306) := by
    unfold daysBeforeMonth
    omega
  have hlate : marchMonth = 11 → day ≤ 29 := fun hlast => by
    rcases hfebruary hlast with hshorter | ⟨hlonger, -⟩ <;> omega
  have hdayOfYear : 0 ≤ daysBeforeMonth marchMonth + (day - 1) ∧
      daysBeforeMonth marchMonth + (day - 1) < 366 := by omega
  have hleap : daysBeforeMonth marchMonth + (day - 1) = 365 → IsLeap (marchYear % 400 + 1) := by
    intro hlast
    have hshown : IsLeap (marchYear + 1) := by
      rcases hfebruary (by omega) with hshorter | ⟨-, hleap⟩
      · omega
      · exact hleap
    unfold IsLeap at hshown ⊢
    omega
  have hyearOfEra := yearOfEra_daysBeforeYear (by omega) hdayOfYear hleap
  have hera : 0 ≤ daysBeforeYear (marchYear % 400) ∧
      daysBeforeYear (marchYear % 400) + (daysBeforeMonth marchMonth + (day - 1)) < 146097 := by
    by_cases hlast : daysBeforeMonth marchMonth + (day - 1) = 365
    · have hshown := hleap hlast
      unfold IsLeap at hshown
      unfold daysBeforeYear
      omega
    · unfold daysBeforeYear
      omega
  have hmonthOfDay : (5 * (daysBeforeMonth marchMonth + (day - 1)) + 2) / 153 = marchMonth :=
    month_of_day hrange (by omega) (by omega) (by omega)
  generalize hdayOfEra : daysBeforeYear (marchYear % 400) +
    (daysBeforeMonth marchMonth + (day - 1)) = dayOfEra at hyearOfEra hera
  have hcount : daysFromCivil year month day + 719468 = marchYear / 400 * 146097 + dayOfEra := by
    simp only [daysFromCivil, hyear, hmarch]
    omega
  have hquotient : (marchYear / 400 * 146097 + dayOfEra) / 146097 = marchYear / 400 := by omega
  have hremainder : (marchYear / 400 * 146097 + dayOfEra) % 146097 = dayOfEra := by omega
  have hrest : dayOfEra - daysBeforeYear (marchYear % 400) =
      daysBeforeMonth marchMonth + (day - 1) := by omega
  have hmonth' : (if marchMonth < 10 then marchMonth + 3 else marchMonth - 9) = month := by
    rw [← hmarch]
    split_ifs <;> omega
  simp only [civilFromDays, hcount, hquotient, hremainder, hyearOfEra, hrest, hmonthOfDay, hmonth',
    CivilDate.mk.injEq]
  refine ⟨?_, trivial, by omega⟩
  rw [← hyear]
  split_ifs <;> omega

end CivilTime
