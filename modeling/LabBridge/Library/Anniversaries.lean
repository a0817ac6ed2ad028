import LabBridge.Library.CivilTime

/-!
# The days on which a date recurs

A year that begins in March has its leap day at its end, so the place of a day in such a year
fixes its month and its day. Every date recurs within a year, and the leap day within eight years
less the days in between that a century may leave out.
-/

namespace CivilTime

/-- The count of the first of March of a year. -/
def marchStart (year : ℤ) : ℤ := year / 400 * 146097 + daysBeforeYear (year % 400) - 719468

/-- The place of a day in its year that begins in March. -/
def dayOfMarchYear (days : ℤ) : ℤ :=
  (days + 719468) % 146097 - daysBeforeYear (yearOfEra ((days + 719468) % 146097))

/-- The place of a day in its year fixes its month and its day. -/
theorem sameDate_of_dayOfMarchYear {left right : ℤ}
    (h : dayOfMarchYear left = dayOfMarchYear right) :
    (civilFromDays left).month = (civilFromDays right).month ∧
      (civilFromDays left).day = (civilFromDays right).day := by
  unfold dayOfMarchYear at h
  simp only [civilFromDays, h, and_self]

/-- Every day has its place in a year that begins in March. -/
theorem exists_marchStart (days : ℤ) : ∃ year, days = marchStart year + dayOfMarchYear days ∧
    0 ≤ dayOfMarchYear days ∧ dayOfMarchYear days ≤ 365 ∧
    (dayOfMarchYear days = 365 → IsLeap (year + 1)) := by
  have hlow : 0 ≤ (days + 719468) % 146097 := Int.emod_nonneg _ (by decide)
  have hhigh : (days + 719468) % 146097 < 146097 := Int.emod_lt_of_pos _ (by decide)
  obtain ⟨hyear, hyear', hstart, hlength⟩ := yearOfEra_spec hlow hhigh
  have hleap := isLeap_of_last_day hlow hhigh
  unfold marchStart dayOfMarchYear
  generalize hday : (days + 719468) % 146097 = dayOfEra at *
  generalize yearOfEra dayOfEra = year at *
  have hdiv : ((days + 719468) / 146097 * 400 + year) / 400 = (days + 719468) / 146097 := by omega
  have hmod : ((days + 719468) / 146097 * 400 + year) % 400 = year := by omega
  refine ⟨(days + 719468) / 146097 * 400 + year, ?_, by omega, by omega, fun hlast => ?_⟩
  · rw [hdiv, hmod]
    omega
  · have hshown := hleap hlast
    unfold IsLeap at hshown ⊢
    omega

/-- The day at a place of a year, the last place in leap years alone. -/
theorem dayOfMarchYear_marchStart {year place : ℤ} (hplace : 0 ≤ place ∧ place ≤ 365)
    (hleap : place = 365 → IsLeap (year + 1)) : dayOfMarchYear (marchStart year + place) = place := by
  have hleap' : place = 365 → IsLeap (year % 400 + 1) := by
    intro hlast
    have hshown := hleap hlast
    unfold IsLeap at hshown ⊢
    omega
  have hyear := yearOfEra_daysBeforeYear (by omega) (by omega) hleap'
  have hera : 0 ≤ daysBeforeYear (year % 400) + place ∧
      daysBeforeYear (year % 400) + place < 146097 := by
    by_cases hlast : place = 365
    · have hshown := hleap' hlast
      unfold IsLeap at hshown
      unfold daysBeforeYear
      omega
    · unfold daysBeforeYear
      omega
  unfold dayOfMarchYear marchStart
  generalize hbefore : daysBeforeYear (year % 400) = before at *
  have hday : (year / 400 * 146097 + before - 719468 + place + 719468) % 146097 =
      before + place := by omega
  rw [hday, hyear, hbefore]
  omega

/-- The first of March of two years. -/
theorem marchStart_eq (year : ℤ) :
    marchStart year = 365 * year + year / 4 - year / 100 + year / 400 - 719468 := by
  unfold marchStart daysBeforeYear
  omega

/-- The count of the first of January of a year. -/
theorem daysFromCivil_newYear (year : ℤ) :
    daysFromCivil year 1 1 = marchStart (year - 1) + 306 := by
  have hjanuary : (1 : ℤ) ≤ 2 := by decide
  have hmonth : daysBeforeMonth (1 + 9) = 306 := by decide
  simp only [daysFromCivil, if_pos hjanuary, hmonth, marchStart]
  omega

/-- The day after a date. -/
def nextDay (date : CivilDate) : CivilDate :=
  if date.day < monthLength date.year date.month then { date with day := date.day + 1 }
  else if date.month < 12 then ⟨date.year, date.month + 1, 1⟩
  else ⟨date.year + 1, 1, 1⟩

/-- A count numbers the days of the calendar: it starts at the epoch and goes on day by day. -/
structure NumbersDays (count : CivilDate → ℤ) : Prop where
  epoch : count ⟨1970, 1, 1⟩ = 0
  next : ∀ date : CivilDate, 1 ≤ date.month ∧ date.month ≤ 12 →
    1 ≤ date.day ∧ date.day ≤ monthLength date.year date.month →
      count (nextDay date) = count date + 1

/-- The count of a date from the March before it. -/
theorem daysFromCivil_eq (year month day : ℤ) : daysFromCivil year month day =
    marchStart (if month ≤ 2 then year - 1 else year) +
      daysBeforeMonth (if month ≤ 2 then month + 9 else month - 3) + day - 1 := by
  simp only [daysFromCivil, marchStart]
  omega

/-- The first day of a month is the one after the last day of the month before. -/
theorem daysFromCivil_nextMonth {year month : ℤ} (hlow : 1 ≤ month) (hhigh : month < 12) :
    daysFromCivil year (month + 1) 1 =
      daysFromCivil year month (monthLength year month) + 1 := by
  rw [daysFromCivil_eq, daysFromCivil_eq]
  by_cases hfebruary : month = 2
  · subst hfebruary
    have hfirst : daysBeforeMonth 0 = 0 ∧ daysBeforeMonth 11 = 337 := by decide
    norm_num [monthLength, hfirst.1, hfirst.2]
    rw [marchStart_eq, marchStart_eq]
    unfold IsLeap
    split_ifs <;> omega
  · interval_cases month
    case «2» => contradiction
    all_goals norm_num [daysBeforeMonth, monthLength] <;> omega

/-- The count of dates numbers the days. -/
theorem numbersDays_daysFromCivil :
    NumbersDays fun date => daysFromCivil date.year date.month date.day where
  epoch := by decide
  next date hmonth hday := by
    unfold nextDay
    split_ifs with hlast hmonths
    · dsimp only
      rw [daysFromCivil_eq, daysFromCivil_eq]
      omega
    · have hend : date.day = monthLength date.year date.month := by omega
      rw [hend]
      exact daysFromCivil_nextMonth hmonth.1 hmonths
    · have hend : date.day = monthLength date.year date.month := by omega
      have hdecember : date.month = 12 := by omega
      have hdays : monthLength date.year 12 = 31 := by simp [monthLength]
      have hbefore : daysBeforeMonth (12 - 3) = 275 := by decide
      dsimp only
      rw [hend, hdecember, hdays, daysFromCivil_newYear, daysFromCivil_eq, if_neg (by decide),
        if_neg (by decide), hbefore, add_sub_cancel_right]
      omega

/-- A leap year follows within eight years, and within seven unless the year was one itself. -/
theorem exists_leap (year : ℤ) : ∃ later, year < later ∧ later ≤ year + 8 ∧ IsLeap later ∧
    (later = year + 8 → IsLeap year) := by
  by_cases hleap : IsLeap (year / 4 * 4 + 4)
  · exact ⟨_, by omega, by omega, hleap, by omega⟩
  · refine ⟨year / 4 * 4 + 8, by omega, by omega, ?_, fun hlast => ?_⟩
    · unfold IsLeap at hleap ⊢
      omega
    · unfold IsLeap at hleap ⊢
      omega

/-- A date recurs within eight years. -/
theorem exists_anniversary (first day : ℤ) : ∃ later, first < later ∧ later < first + 8 * 366 ∧
    (civilFromDays later).month = (civilFromDays day).month ∧
    (civilFromDays later).day = (civilFromDays day).day := by
  obtain ⟨-, -, hlow, hhigh, -⟩ := exists_marchStart day
  obtain ⟨year, hfirst, hlow', hhigh', hleap⟩ := exists_marchStart first
  have hrecurs : ∀ later, (dayOfMarchYear day = 365 → IsLeap (later + 1)) →
      (civilFromDays (marchStart later + dayOfMarchYear day)).month = (civilFromDays day).month ∧
        (civilFromDays (marchStart later + dayOfMarchYear day)).day = (civilFromDays day).day :=
    fun later h => sameDate_of_dayOfMarchYear (dayOfMarchYear_marchStart ⟨hlow, hhigh⟩ h)
  generalize dayOfMarchYear day = place at *
  generalize dayOfMarchYear first = start at *
  rw [marchStart_eq] at hfirst
  unfold IsLeap at hleap
  by_cases hlast : place = 365
  · by_cases hthis : IsLeap (year + 1) ∧ start < 365
    · refine ⟨_, ?_, ?_, hrecurs year fun _ => hthis.1⟩
      · rw [marchStart_eq]
        omega
      · rw [marchStart_eq]
        omega
    · obtain ⟨later, hbehind, hnear, hlater, hcentury⟩ := exists_leap (year + 1)
      have hsame : later - 1 + 1 = later := by omega
      refine ⟨_, ?_, ?_, hrecurs (later - 1) fun _ => by rwa [hsame]⟩
      · rw [marchStart_eq]
        omega
      · rw [marchStart_eq]
        unfold IsLeap at hthis hcentury hlater
        omega
  · refine ⟨_, ?_, ?_, hrecurs (year + 1) fun h => absurd h hlast⟩
    · rw [marchStart_eq]
      omega
    · rw [marchStart_eq]
      omega

end CivilTime
