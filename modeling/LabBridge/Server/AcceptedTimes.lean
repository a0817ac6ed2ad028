import LabBridge.Server.UtcTexts

/-!
# Which times are accepted

A time is accepted exactly when it is the text of an existing date and a time of that day. Such
a text names one instant, and no other accepted text names the same one.
-/

namespace LabBridge.Server

open ByteText CivilTime

/-- A date of the proleptic Gregorian calendar in the years `0001` to `9999`. -/
structure IsCalendarDate (date : CivilDate) : Prop where
  year : 1 ≤ date.year ∧ date.year ≤ 9999
  month : 1 ≤ date.month ∧ date.month ≤ 12
  day : 1 ≤ date.day ∧ date.day ≤ monthLength date.year date.month

/-- A text is the text of an existing date and a time of day, and a number of seconds since the
epoch is its instant. -/
def NamesInstant (value : Bytes) (seconds : ℤ) : Prop :=
  ∃ date hour minute second, IsCalendarDate date ∧ (0 ≤ hour ∧ hour ≤ 23) ∧
    (0 ≤ minute ∧ minute ≤ 59) ∧ (0 ≤ second ∧ second ≤ 59) ∧
    value = padded 4 date.year.toNat ++ byte '-' :: (padded 2 date.month.toNat ++ byte '-' ::
      (padded 2 date.day.toNat ++ byte 'T' :: (padded 2 hour.toNat ++ byte ':' ::
        (padded 2 minute.toNat ++ byte ':' :: (padded 2 second.toNat ++ [byte 'Z']))))) ∧
    seconds = daysFromCivil date.year date.month date.day * 86400 + hour * 3600 + minute * 60 +
      second

/-- The text of a date and a second of its day. -/
theorem namesInstant_iff {value : Bytes} {seconds : ℤ} : NamesInstant value seconds ↔
    ∃ date time, IsCalendarDate date ∧ (0 ≤ time ∧ time < 86400) ∧ value = utcTextOf date time ∧
      seconds = daysFromCivil date.year date.month date.day * 86400 + time := by
  constructor
  · rintro ⟨date, hour, minute, second, hdate, hhour, hminute, hsecond, rfl, hseconds⟩
    have hhours : (hour * 3600 + minute * 60 + second) / 3600 = hour := by omega
    have hminutes : (hour * 3600 + minute * 60 + second) % 3600 / 60 = minute := by omega
    have hrest : (hour * 3600 + minute * 60 + second) % 60 = second := by omega
    refine ⟨date, hour * 3600 + minute * 60 + second, hdate, by omega, ?_, by omega⟩
    rw [utcTextOf, hhours, hminutes, hrest]
  · rintro ⟨date, time, hdate, htime, rfl, hseconds⟩
    exact ⟨date, time / 3600, time % 3600 / 60, time % 60, hdate, by omega, by omega, by omega,
      rfl, by omega⟩

/-- A time is accepted exactly when it names an instant. -/
theorem isRfc3339Utc_iff (value : Bytes) :
    isRfc3339Utc value = true ↔ ∃ seconds, NamesInstant value seconds := by
  constructor
  · intro h
    obtain ⟨date, time, hvalue, hyear, hmonth, hday, htime⟩ := exists_date_of_isRfc3339Utc h
    exact ⟨_, namesInstant_iff.mpr ⟨date, time, ⟨hyear, hmonth, hday⟩, htime, hvalue, rfl⟩⟩
  · rintro ⟨seconds, h⟩
    obtain ⟨date, time, hdate, htime, rfl, -⟩ := namesInstant_iff.mp h
    exact isRfc3339Utc_utcTextOf hdate.year hdate.month hdate.day htime

/-- The text that names an instant is the printed instant. -/
theorem NamesInstant.eq_format {value : Bytes} {seconds : ℤ} (h : NamesInstant value seconds) :
    value = formatUtcTimestamp seconds := by
  obtain ⟨date, time, hdate, htime, rfl, rfl⟩ := namesInstant_iff.mp h
  have hdays : (daysFromCivil date.year date.month date.day * 86400 + time) / 86400 =
      daysFromCivil date.year date.month date.day := by omega
  have htimes : (daysFromCivil date.year date.month date.day * 86400 + time) % 86400 = time := by
    omega
  rw [formatUtcTimestamp, hdays, htimes, civilFromDays_daysFromCivil hdate.month hdate.day]

/-- The printed instant of a year of four digits names the instant. -/
theorem namesInstant_format {seconds : ℤ} (hyear : 1 ≤ yearOf seconds ∧ yearOf seconds ≤ 9999) :
    NamesInstant (formatUtcTimestamp seconds) seconds := by
  have hrange := civilFromDays_range (seconds / 86400)
  have hcount := daysFromCivil_civilFromDays (seconds / 86400)
  rw [namesInstant_iff]
  refine ⟨civilFromDays (seconds / 86400), seconds % 86400, ?_, by omega, rfl, by omega⟩
  exact ⟨hyear, ⟨hrange.1, hrange.2.1⟩, ⟨hrange.2.2.1, civilFromDays_day_le _⟩⟩

/-- Exactly the texts of existing dates and times are accepted, the printed instants of the
years `1000` to `9999` among them, and accepted texts of one instant are equal. -/
theorem slot_timestamps_exact :
    (∀ value, isRfc3339Utc value = true ↔ ∃ seconds, NamesInstant value seconds) ∧
      (∀ seconds, 1000 ≤ yearOf seconds ∧ yearOf seconds ≤ 9999 →
        isRfc3339Utc (formatUtcTimestamp seconds) = true) ∧
      ∀ left right seconds, NamesInstant left seconds → NamesInstant right seconds →
        left = right := by
  refine ⟨isRfc3339Utc_iff, ?_, ?_⟩
  · intro seconds hyear
    rw [isRfc3339Utc_iff]
    exact ⟨seconds, namesInstant_format ⟨by omega, hyear.2⟩⟩
  · intro left right seconds hleft hright
    rw [hleft.eq_format, hright.eq_format]

end LabBridge.Server
