import LabBridge.Library.Anniversaries
import LabBridge.Server.AcceptedTimes
import Mathlib.Data.Int.Basic

/-!
# Reading instants back on the machine

The query service counts days in 32-bit numbers, some of them unsigned, and seconds in 64 bits.
For the texts of four-digit years nothing is lost on the way, so that the counts are the ones of
the calendar and a printed instant is read back.
-/

namespace LabBridge.Server

open ByteText CivilTime

/-! ## The count of a date -/

/-- `days_from_civil`, with the conversions of the source. -/
def daysFromCivil32 (year : Int32) (month day : UInt32) : Int64 :=
  let year := if month ≤ 2 then year - 1 else year
  let era := (if 0 ≤ year then year else year - 399) / 400
  let yearOfEra := (year - era * 400).toUInt32
  -- Minus three is converted to an unsigned number, and the sum with the month wraps around.
  let shift : Int32 := if 2 < month then -3 else 9
  let dayOfYear := (153 * (month + shift.toUInt32) + 2) / 5 + day - 1
  let dayOfEra := yearOfEra * 365 + yearOfEra / 4 - yearOfEra / 100 + dayOfYear
  era.toInt64 * 146097 + dayOfEra.toUInt64.toInt64 - 719468

example : (daysFromCivil32 1969 2 28).toInt = -307 := by decide

/-- A number of 32 bits is not changed by the reduction to them. -/
theorem bmod_of_small {n : ℤ} (h : -2 ^ 31 ≤ n ∧ n < 2 ^ 31) : n.bmod (2 ^ 32) = n :=
  Int.bmod_eq_of_le (by omega) (by omega)

/-- The era of a year, rounded down. -/
theorem toInt_era {year : Int32} (h : -100000 ≤ year.toInt ∧ year.toInt ≤ 100000) :
    ((if 0 ≤ year then year else year - 399) / 400).toInt = year.toInt / 400 := by
  have hsize : (400 : Int32).toInt = 400 ∧ (399 : Int32).toInt = 399 ∧ (0 : Int32).toInt = 0 := by
    decide
  by_cases hpos : 0 ≤ year
  · have hpos' : 0 ≤ year.toInt := by
      rw [Int32.le_iff_toInt_le] at hpos
      omega
    rw [if_pos hpos, Int32.toInt_div, hsize.1, Int.tdiv_eq_ediv_of_nonneg hpos',
      bmod_of_small (by omega)]
  · have hneg : year.toInt < 0 := by
      rw [Int32.le_iff_toInt_le] at hpos
      omega
    have hshift : (year - 399).toInt = year.toInt - 399 := by
      rw [Int32.toInt_sub, hsize.2.1, bmod_of_small (by omega)]
    have hdiv : (year.toInt - 399).tdiv 400 = year.toInt / 400 := by
      rw [← Int.neg_neg (year.toInt - 399), Int.neg_tdiv, Int.tdiv_eq_ediv_of_nonneg (by omega)]
      omega
    rw [if_neg hpos, Int32.toInt_div, hsize.1, hshift, hdiv, bmod_of_small (by omega)]

/-- The year of an era is converted to an unsigned number that it fits into. -/
theorem toNat_yearOfEra {year era : Int32} (h : -100000 ≤ year.toInt ∧ year.toInt ≤ 100000)
    (hera : era.toInt = year.toInt / 400) :
    ((year - era * 400).toUInt32.toNat : ℤ) = year.toInt % 400 := by
  have hsize : (400 : Int32).toInt = 400 := by decide
  have hproduct : (era * 400).toInt = year.toInt / 400 * 400 := by
    rw [Int32.toInt_mul, hera, hsize, bmod_of_small (by omega)]
  have hrest : (year - era * 400).toInt = year.toInt % 400 := by
    rw [Int32.toInt_sub, hproduct, bmod_of_small (by omega)]
    omega
  have hpos : 0 ≤ year - era * 400 := by
    rw [Int32.le_iff_toInt_le, hrest]
    have hzero : (0 : Int32).toInt = 0 := by decide
    omega
  rw [Int32.toNat_toUInt32_of_le hpos, Int32.toNatClampNeg]
  omega

/-- The sum that wraps around is the month that is counted from March. -/
theorem toNat_marchMonth {month : UInt32} (h : 1 ≤ month.toNat ∧ month.toNat ≤ 12) :
    ((month + (if 2 < month then -3 else 9 : Int32).toUInt32).toNat : ℤ) =
      if (month.toNat : ℤ) ≤ 2 then (month.toNat : ℤ) + 9 else (month.toNat : ℤ) - 3 := by
  have hsize : (-3 : Int32).toUInt32.toNat = 4294967293 ∧ (9 : Int32).toUInt32.toNat = 9 ∧
      (2 : UInt32).toNat = 2 := by decide
  by_cases hlate : 2 < month
  · have hlate' : 2 < month.toNat := by
      rw [UInt32.lt_iff_toNat_lt] at hlate
      omega
    rw [if_pos hlate, if_neg (by omega), UInt32.toNat_add, hsize.1]
    omega
  · have hlate' : month.toNat ≤ 2 := by
      rw [UInt32.lt_iff_toNat_lt] at hlate
      omega
    rw [if_neg hlate, if_pos (by omega), UInt32.toNat_add, hsize.2.1]
    omega

/-- The day of the year that begins in March. -/
theorem toNat_dayOfYear {marchMonth day : UInt32} (hmonth : marchMonth.toNat ≤ 11)
    (hday : 1 ≤ day.toNat ∧ day.toNat ≤ 31) :
    (((153 * marchMonth + 2) / 5 + day - 1).toNat : ℤ) =
      daysBeforeMonth marchMonth.toNat + day.toNat - 1 := by
  have hsize : (153 : UInt32).toNat = 153 ∧ (2 : UInt32).toNat = 2 ∧ (5 : UInt32).toNat = 5 ∧
      (1 : UInt32).toNat = 1 := by decide
  have hproduct : (153 * marchMonth + 2).toNat = 153 * marchMonth.toNat + 2 := by
    rw [UInt32.toNat_add, UInt32.toNat_mul, hsize.1, hsize.2.1]
    omega
  have hbefore : ((153 * marchMonth + 2) / 5).toNat = (153 * marchMonth.toNat + 2) / 5 := by
    rw [UInt32.toNat_div, hproduct, hsize.2.2.1]
  have hsum : ((153 * marchMonth + 2) / 5 + day).toNat =
      (153 * marchMonth.toNat + 2) / 5 + day.toNat := by
    rw [UInt32.toNat_add, hbefore]
    omega
  have hdays : (((153 * marchMonth.toNat + 2) / 5 : ℕ) : ℤ) = daysBeforeMonth marchMonth.toNat := by
    rw [daysBeforeMonth]
    push_cast
    rfl
  rw [UInt32.toNat_sub, hsum, hsize.2.2.2, ← hdays]
  omega

/-- The day of an era. -/
theorem toNat_dayOfEra {yearOfEra dayOfYear : UInt32} (hyear : yearOfEra.toNat < 400)
    (hday : dayOfYear.toNat ≤ 1000) :
    ((yearOfEra * 365 + yearOfEra / 4 - yearOfEra / 100 + dayOfYear).toNat : ℤ) =
      daysBeforeYear yearOfEra.toNat + dayOfYear.toNat := by
  have hsize : (365 : UInt32).toNat = 365 ∧ (4 : UInt32).toNat = 4 ∧
      (100 : UInt32).toNat = 100 := by decide
  rw [UInt32.toNat_add, UInt32.toNat_sub, UInt32.toNat_add, UInt32.toNat_div, UInt32.toNat_div,
    UInt32.toNat_mul, hsize.1, hsize.2.1, hsize.2.2]
  unfold daysBeforeYear
  omega

/-- A number of 64 bits is not changed by the reduction to them. -/
theorem bmod_of_small' {n : ℤ} (h : -2 ^ 63 ≤ n ∧ n < 2 ^ 63) : n.bmod (2 ^ 64) = n :=
  Int.bmod_eq_of_le (by omega) (by omega)

/-- The days of the eras and of the last one fit into 64 bits. -/
theorem toInt_dayCount {era : Int32} {dayOfEra : UInt32}
    (hera : -100000 ≤ era.toInt ∧ era.toInt ≤ 100000) (hday : dayOfEra.toNat ≤ 1000000) :
    (era.toInt64 * 146097 + dayOfEra.toUInt64.toInt64 - 719468).toInt =
      era.toInt * 146097 + dayOfEra.toNat - 719468 := by
  have hsize : (146097 : Int64).toInt = 146097 ∧ (719468 : Int64).toInt = 719468 := by decide
  have hlast : dayOfEra.toUInt64.toInt64.toInt = dayOfEra.toNat := by
    rw [← Int64.toInt_toBitVec, UInt64.toBitVec_toInt64]
    apply BitVec.toInt_eq_toNat_of_lt
    rw [UInt64.toNat_toBitVec, UInt32.toNat_toUInt64]
    omega
  have hproduct : (era.toInt64 * 146097).toInt = era.toInt * 146097 := by
    rw [Int64.toInt_mul, Int32.toInt_toInt64, hsize.1, bmod_of_small' (by omega)]
  have hsum : (era.toInt64 * 146097 + dayOfEra.toUInt64.toInt64).toInt =
      era.toInt * 146097 + dayOfEra.toNat := by
    rw [Int64.toInt_add, hproduct, hlast, bmod_of_small' (by omega)]
  rw [Int64.toInt_sub, hsum, hsize.2, bmod_of_small' (by omega)]

/-- The count of the machine is the count of the calendar. -/
theorem toInt_daysFromCivil32 {year : Int32} {month day : UInt32}
    (hyear : -99999 ≤ year.toInt ∧ year.toInt ≤ 99999)
    (hmonth : 1 ≤ month.toNat ∧ month.toNat ≤ 12) (hday : 1 ≤ day.toNat ∧ day.toNat ≤ 31) :
    (daysFromCivil32 year month day).toInt = daysFromCivil year.toInt month.toNat day.toNat := by
  have hmarchYear : (if month ≤ 2 then year - 1 else year).toInt =
      if (month.toNat : ℤ) ≤ 2 then year.toInt - 1 else year.toInt := by
    have hsize : (1 : Int32).toInt = 1 ∧ (2 : UInt32).toNat = 2 := by decide
    by_cases hearly : month ≤ 2
    · have hearly' : (month.toNat : ℤ) ≤ 2 := by
        rw [UInt32.le_iff_toNat_le] at hearly
        omega
      rw [if_pos hearly, if_pos hearly', Int32.toInt_sub, hsize.1, bmod_of_small (by omega)]
    · have hearly' : ¬(month.toNat : ℤ) ≤ 2 := by
        rw [UInt32.le_iff_toNat_le] at hearly
        omega
      rw [if_neg hearly, if_neg hearly']
  have hmarchMonth := toNat_marchMonth hmonth
  simp only [daysFromCivil32, daysFromCivil, ← hmarchYear, ← hmarchMonth]
  generalize (if month ≤ 2 then year - 1 else year) = marchYear at *
  generalize month + (if 2 < month then -3 else 9 : Int32).toUInt32 = marchMonth at *
  have hbound : -100000 ≤ marchYear.toInt ∧ marchYear.toInt ≤ 100000 := by
    split_ifs at hmarchYear <;> omega
  have hmarchRange : marchMonth.toNat ≤ 11 := by
    split_ifs at hmarchMonth <;> omega
  have hera := toInt_era hbound
  generalize (if 0 ≤ marchYear then marchYear else marchYear - 399) / 400 = era at *
  have hyearOfEra := toNat_yearOfEra hbound hera
  generalize (marchYear - era * 400).toUInt32 = yearOfEra at *
  have hdayOfYear := toNat_dayOfYear hmarchRange hday
  generalize (153 * marchMonth + 2) / 5 + day - 1 = dayOfYear at *
  have hsmall : 0 ≤ daysBeforeMonth marchMonth.toNat ∧ daysBeforeMonth marchMonth.toNat ≤ 400 := by
    unfold daysBeforeMonth
    omega
  have hdayOfEra := toNat_dayOfEra (show yearOfEra.toNat < 400 by omega)
    (show dayOfYear.toNat ≤ 1000 by omega)
  generalize yearOfEra * 365 + yearOfEra / 4 - yearOfEra / 100 + dayOfYear = dayOfEra at *
  have hdays : daysBeforeYear yearOfEra.toNat ≤ 200000 ∧ 0 ≤ daysBeforeYear yearOfEra.toNat := by
    unfold daysBeforeYear
    omega
  rw [toInt_dayCount (by omega) (by omega), hera, hdayOfEra, hdayOfYear, hyearOfEra]
  omega

/-! ## The seconds of a text -/

/-- `parse_utc_timestamp` with the numbers of the source, as the seconds since the epoch. -/
def parseUtcSeconds (value : Bytes) : Option Int64 :=
  if value.length ≠ 20 ∨ value.getD 4 0 ≠ byte '-' ∨ value.getD 7 0 ≠ byte '-' ∨
      value.getD 10 0 ≠ byte 'T' ∨ value.getD 13 0 ≠ byte ':' ∨ value.getD 16 0 ≠ byte ':' ∨
      value.getD 19 0 ≠ byte 'Z' then none
  else do
    let year ← numberAt value 0 4
    let month ← numberAt value 5 2
    let day ← numberAt value 8 2
    let hour ← numberAt value 11 2
    let minute ← numberAt value 14 2
    let second ← numberAt value 17 2
    if month < 1 ∨ 12 < month ∨ day < 1 ∨ 31 < day ∨ 23 < hour ∨ 59 < minute ∨ 59 < second then
      none
    else some (daysFromCivil32 (.ofInt year) (.ofInt month) (.ofInt day) * 86400 +
      (Int32.ofInt hour * 3600).toInt64 + (Int32.ofInt minute * 60).toInt64 +
      (Int32.ofInt second).toInt64)

/-- A number of few bytes is small. -/
theorem bounds_of_numberAt {value : Bytes} {offset count : ℕ} {n : ℤ}
    (h : numberAt value offset count = some n) : -10 ^ count < n ∧ n < 10 ^ count := by
  have hlength : ((value.drop offset).take count).length ≤ count := List.length_take_le _ _
  rw [numberAt] at h
  generalize (value.drop offset).take count = digits at h hlength
  have hdigits {body : Bytes} (hbody : body.length ≤ count)
      (hall : (body.all fun b => decide (IsDigit b)) = true) :
      (numeralValue body : ℤ) < 10 ^ count := by
    have hsmall : numeralValue body < 10 ^ body.length :=
      numeralValue_lt (by simpa using hall)
    have hpow : 10 ^ body.length ≤ 10 ^ count := Nat.pow_le_pow_right (by decide) hbody
    exact_mod_cast lt_of_lt_of_le hsmall hpow
  have hpositive : (0 : ℤ) < 10 ^ count := by positivity
  rw [fromChars] at h
  by_cases hminus : digits.head? = some (byte '-')
  · simp only [if_pos hminus] at h
    split_ifs at h with hall
    have hsmall := hdigits (by rw [List.length_tail]; omega) hall.2
    injection h with h
    omega
  · simp only [if_neg hminus] at h
    split_ifs at h with hall
    have hsmall := hdigits hlength hall.2
    injection h with h
    omega

/-- The seconds of a time of the day fit into 64 bits with the seconds of the days. -/
theorem toInt_seconds {days : Int64} {hour minute second : ℤ}
    (hdays : -1000000000 ≤ days.toInt ∧ days.toInt ≤ 1000000000) (hhour : -100 < hour ∧ hour < 100)
    (hminute : -100 < minute ∧ minute < 100) (hsecond : -100 < second ∧ second < 100) :
    (days * 86400 + (Int32.ofInt hour * 3600).toInt64 + (Int32.ofInt minute * 60).toInt64 +
      (Int32.ofInt second).toInt64).toInt =
      days.toInt * 86400 + hour * 3600 + minute * 60 + second := by
  have hsize : (86400 : Int64).toInt = 86400 ∧ (3600 : Int32).toInt = 3600 ∧
      (60 : Int32).toInt = 60 := by decide
  have hwidth : Int32.size = 2 ^ 32 := rfl
  have hseconds : (Int32.ofInt second).toInt64.toInt = second := by
    rw [Int32.toInt_toInt64, Int32.toInt_ofInt, hwidth, bmod_of_small (by omega)]
  have hminutes : (Int32.ofInt minute * 60).toInt64.toInt = minute * 60 := by
    rw [Int32.toInt_toInt64, Int32.toInt_mul, Int32.toInt_ofInt, hwidth, hsize.2.2,
      bmod_of_small (by omega : -2 ^ 31 ≤ minute ∧ minute < 2 ^ 31), bmod_of_small (by omega)]
  have hhours : (Int32.ofInt hour * 3600).toInt64.toInt = hour * 3600 := by
    rw [Int32.toInt_toInt64, Int32.toInt_mul, Int32.toInt_ofInt, hwidth, hsize.2.1,
      bmod_of_small (by omega : -2 ^ 31 ≤ hour ∧ hour < 2 ^ 31), bmod_of_small (by omega)]
  have hall : (days * 86400).toInt = days.toInt * 86400 := by
    rw [Int64.toInt_mul, hsize.1, bmod_of_small' (by omega)]
  have hwithHours : (days * 86400 + (Int32.ofInt hour * 3600).toInt64).toInt =
      days.toInt * 86400 + hour * 3600 := by
    rw [Int64.toInt_add, hall, hhours, bmod_of_small' (by omega)]
  have hwithMinutes : (days * 86400 + (Int32.ofInt hour * 3600).toInt64 +
      (Int32.ofInt minute * 60).toInt64).toInt =
        days.toInt * 86400 + hour * 3600 + minute * 60 := by
    rw [Int64.toInt_add, hwithHours, hminutes, bmod_of_small' (by omega)]
  rw [Int64.toInt_add, hwithMinutes, hseconds, bmod_of_small' (by omega)]

/-- A small number is not changed by the conversion to an unsigned one. -/
theorem toNat_ofInt {n : ℤ} (h : 0 ≤ n ∧ n < 100) : ((UInt32.ofInt n).toNat : ℤ) = n := by
  rw [UInt32.ofInt, UInt32.toNat_ofNat']
  omega

/-- Reading a text on the machine gives the seconds of the calendar. -/
theorem parseUtcSeconds_eq (value : Bytes) :
    (parseUtcSeconds value).map Int64.toInt = parseUtcTimestamp value := by
  unfold parseUtcSeconds parseUtcTimestamp
  split_ifs
  · rfl
  cases hyear : numberAt value 0 4 with
  | none => rfl
  | some year =>
  cases hmonth : numberAt value 5 2 with
  | none => rfl
  | some month =>
  cases hday : numberAt value 8 2 with
  | none => rfl
  | some day =>
  cases hhour : numberAt value 11 2 with
  | none => rfl
  | some hour =>
  cases hminute : numberAt value 14 2 with
  | none => rfl
  | some minute =>
  cases hsecond : numberAt value 17 2 with
  | none => rfl
  | some second =>
    have hyear := bounds_of_numberAt hyear
    have hhour := bounds_of_numberAt hhour
    have hminute := bounds_of_numberAt hminute
    have hsecond := bounds_of_numberAt hsecond
    simp only [Option.bind_eq_bind, Option.bind_some]
    split_ifs with hrange
    · rfl
    · have hmonths := toNat_ofInt (show 0 ≤ month ∧ month < 100 by omega)
      have hdays := toNat_ofInt (show 0 ≤ day ∧ day < 100 by omega)
      have hwidth : Int32.size = 2 ^ 32 := rfl
      have hyears : (Int32.ofInt year).toInt = year := by
        rw [Int32.toInt_ofInt, hwidth, bmod_of_small (by omega)]
      have hcount := toInt_daysFromCivil32 (show _ ∧ (Int32.ofInt year).toInt ≤ 99999 by omega)
        (show _ ∧ (UInt32.ofInt month).toNat ≤ 12 by omega)
        (show _ ∧ (UInt32.ofInt day).toNat ≤ 31 by omega)
      rw [hyears, hmonths, hdays] at hcount
      have hbounds : -1000000000 ≤ daysFromCivil year month day ∧
          daysFromCivil year month day ≤ 1000000000 := by
        rw [daysFromCivil_eq, marchStart_eq]
        unfold daysBeforeMonth
        split_ifs <;> omega
      rw [← hcount] at hbounds
      rw [Option.map_some, toInt_seconds hbounds (by omega) (by omega) (by omega), hcount]

/-! ## Printed instants -/

/-- A printed instant of a year of four digits is read back. -/
theorem parseUtcSeconds_format {seconds : ℤ}
    (hyear : 1 ≤ yearOf seconds ∧ yearOf seconds ≤ 9999) :
    (parseUtcSeconds (formatUtcTimestamp seconds)).map Int64.toInt = some seconds := by
  have hrange := civilFromDays_range (seconds / 86400)
  have hcount := daysFromCivil_civilFromDays (seconds / 86400)
  unfold yearOf at hyear
  rw [parseUtcSeconds_eq, formatUtcTimestamp, parseUtcTimestamp_utcTextOf ⟨by omega, hyear.2⟩
    ⟨hrange.1, hrange.2.1⟩ hrange.2.2 ⟨by omega, by omega⟩, hcount, Option.some.injEq]
  omega

/-- The time point of some seconds, as a number of nanoseconds. -/
def timePoint (seconds : Int64) : Int64 := seconds * 1000000000

/-- The clock time of a printed whole second is the clock time it was printed from. -/
theorem timePoint_format {time : ClockTime} (hwhole : time.fraction = 0) {seconds : Int64}
    (h : parseUtcSeconds (formatUtcTimestamp time.seconds) = some seconds) :
    (timePoint seconds).toInt = time.nanoseconds := by
  have hread := parseUtcSeconds_format time.yearOf_seconds
  rw [h, Option.map_some, Option.some.injEq] at hread
  have hsize : (1000000000 : Int64).toInt = 1000000000 := by decide
  have hfits := time.fits
  unfold FitsClock at hfits
  unfold ClockTime.fraction at hwhole
  rw [timePoint, Int64.toInt_mul, hsize, hread, bmod_of_small' (by omega)]
  omega

/-- Every whole second of the years `1000` to `9999` is read back from its text, as the time
point it was printed from where the clock holds it, and the count of the machine numbers the
days of these years exactly. -/
theorem timestamps_read_back :
    (∀ seconds, 1000 ≤ yearOf seconds ∧ yearOf seconds ≤ 9999 →
      (parseUtcSeconds (formatUtcTimestamp seconds)).map Int64.toInt = some seconds) ∧
    (∀ time : ClockTime, time.fraction = 0 →
      (parseUtcSeconds (formatUtcTimestamp time.seconds)).map (fun seconds =>
        (timePoint seconds).toInt) = some time.nanoseconds) ∧
    (∃ count, NumbersDays count ∧ ∀ date, IsCalendarDate date → 1000 ≤ date.year →
      (daysFromCivil32 (.ofInt date.year) (.ofInt date.month) (.ofInt date.day)).toInt =
        count date) := by
  refine ⟨?_, ?_, ?_⟩
  · intro seconds hyear
    exact parseUtcSeconds_format ⟨by omega, hyear.2⟩
  · intro time hwhole
    have hread := parseUtcSeconds_format time.yearOf_seconds
    obtain ⟨seconds, hseconds, -⟩ := Option.map_eq_some_iff.mp hread
    rw [hseconds, Option.map_some, timePoint_format hwhole hseconds]
  · refine ⟨_, numbersDays_daysFromCivil, ?_⟩
    intro date hdate _
    have hyear := hdate.year
    have hmonth := hdate.month
    have hday := hdate.day
    have hlength : monthLength date.year date.month ≤ 31 := by
      unfold monthLength
      split_ifs <;> decide
    have hmonths := toNat_ofInt (show 0 ≤ date.month ∧ date.month < 100 by omega)
    have hdays := toNat_ofInt (show 0 ≤ date.day ∧ date.day < 100 by omega)
    have hwidth : Int32.size = 2 ^ 32 := rfl
    have hyears : (Int32.ofInt date.year).toInt = date.year := by
      rw [Int32.toInt_ofInt, hwidth, bmod_of_small (by omega)]
    rw [toInt_daysFromCivil32 (by omega) (by omega) (by omega), hyears, hmonths, hdays]

end LabBridge.Server
