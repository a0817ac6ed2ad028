import LabBridge.Library.CivilTime
import LabBridge.Library.PaddedNumerals
import LabBridge.Server.Timestamps

/-!
# UTC texts

Instants are shown as texts of a UTC second. The server prints its clock in this form, the
database prints stored instants in it, and the query service reads the texts back.
-/

namespace LabBridge.Server

open ByteText CivilTime

/-- The text of a date and a second of its day. -/
def utcTextOf (date : CivilDate) (time : ℤ) : Bytes :=
  padded 4 date.year.toNat ++ byte '-' :: (padded 2 date.month.toNat ++ byte '-' ::
    (padded 2 date.day.toNat ++ byte 'T' :: (padded 2 (time / 3600).toNat ++ byte ':' ::
      (padded 2 (time % 3600 / 60).toNat ++ byte ':' ::
        (padded 2 (time % 60).toNat ++ [byte 'Z'])))))

/-- `format_utc_timestamp` on a clock whose years have four digits. -/
def formatUtcTimestamp (seconds : ℤ) : Bytes :=
  utcTextOf (civilFromDays (seconds / 86400)) (seconds % 86400)

/-- The year that `to_char` prints: years before the first one are counted backwards. -/
def shownYear (year : ℤ) : ℤ := if year ≤ 0 then 1 - year else year

/-- The date that `to_char` prints. -/
def shownDate (seconds : ℤ) : CivilDate :=
  let date := civilFromDays (seconds / 86400)
  { date with year := shownYear date.year }

/-- `to_char(… AT TIME ZONE 'UTC', 'YYYY-MM-DD"T"HH24:MI:SS"Z"')` of a second. -/
def toCharUtc (seconds : ℤ) : Bytes := utcTextOf (shownDate seconds) (seconds % 86400)

/-- `std::from_chars` on a whole text. -/
def fromChars (value : Bytes) : Option ℤ :=
  let digits := if value.head? = some (byte '-') then value.tail else value
  if digits ≠ [] ∧ digits.all fun b => IsDigit b then
    some (if value.head? = some (byte '-') then -(numeralValue digits : ℤ)
      else (numeralValue digits : ℤ))
  else none

/-- The number in some bytes of a text. -/
def numberAt (value : Bytes) (offset count : ℕ) : Option ℤ :=
  fromChars ((value.drop offset).take count)

/-- `parse_utc_timestamp`, as the seconds since the epoch. -/
def parseUtcTimestamp (value : Bytes) : Option ℤ :=
  if value.length ≠ 20 ∨ value.getD 4 0 ≠ byte '-' ∨ value.getD 7 0 ≠ byte '-' ∨
      value.getD 10 0 ≠ byte 'T' ∨ value.getD 13 0 ≠ byte ':' ∨ value.getD 16 0 ≠ byte ':' ∨
      value.getD 19 0 ≠ byte 'Z' then none
  else do
    let year ← numberAt value 0 4
    let month ← numberAt value 5 2
    let day ← numberAt value 8 2
    let hour ← numberAt value 11 2
    let minute ← numberAt value 14 2
    let second ← numberAt value 17 2
    if month < 1 ∨ 12 < month ∨ day < 1 ∨ 31 < day ∨ 23 < hour ∨ 59 < minute ∨ 59 < second then
      none
    else some (daysFromCivil year month day * 86400 + hour * 3600 + minute * 60 + second)

example : parseUtcTimestamp (text "2024-02-29T23:59:59Z") = some 1709251199 := by decide +kernel

/-- A digit string is read as its value. -/
theorem fromChars_of_digits {digits : Bytes} (hne : digits ≠ []) (h : ∀ b ∈ digits, IsDigit b) :
    fromChars digits = some ((numeralValue digits : ℕ) : ℤ) := by
  have hhead : digits.head? ≠ some (byte '-') := by
    intro hminus
    exact absurd (h _ (List.mem_of_mem_head? hminus)) (by decide)
  rw [fromChars]
  simp only [if_neg hhead]
  rw [if_pos ⟨hne, by simpa using h⟩]

/-- The pieces of a text of twenty bytes between its separators. -/
theorem parseUtcTimestamp_pieces {year month day hour minute second : Bytes}
    (hyear : year.length = 4) (hmonth : month.length = 2) (hday : day.length = 2)
    (hhour : hour.length = 2) (hminute : minute.length = 2) (hsecond : second.length = 2) :
    parseUtcTimestamp (year ++ byte '-' :: (month ++ byte '-' :: (day ++ byte 'T' ::
      (hour ++ byte ':' :: (minute ++ byte ':' :: (second ++ [byte 'Z'])))))) = (do
    let year ← fromChars year
    let month ← fromChars month
    let day ← fromChars day
    let hour ← fromChars hour
    let minute ← fromChars minute
    let second ← fromChars second
    if month < 1 ∨ 12 < month ∨ day < 1 ∨ 31 < day ∨ 23 < hour ∨ 59 < minute ∨ 59 < second then
      none
    else some (daysFromCivil year month day * 86400 + hour * 3600 + minute * 60 + second)) := by
  obtain ⟨y₁, rest, rfl⟩ := List.exists_cons_of_length_eq_add_one hyear
  obtain ⟨y₂, y₃, y₄, rfl⟩ := List.length_eq_three.mp (Nat.succ.inj hyear)
  obtain ⟨m₁, m₂, rfl⟩ := List.length_eq_two.mp hmonth
  obtain ⟨d₁, d₂, rfl⟩ := List.length_eq_two.mp hday
  obtain ⟨h₁, h₂, rfl⟩ := List.length_eq_two.mp hhour
  obtain ⟨n₁, n₂, rfl⟩ := List.length_eq_two.mp hminute
  obtain ⟨s₁, s₂, rfl⟩ := List.length_eq_two.mp hsecond
  rfl

/-- A padded number is read as the number. -/
theorem fromChars_padded (width : ℕ) {n : ℤ} (h : 0 ≤ n) :
    fromChars (padded width n.toNat) = some n := by
  have hne : padded width n.toNat ≠ [] := by simp [padded]
  rw [fromChars_of_digits hne fun b hb => isDigit_of_mem_padded hb, numeralValue_padded,
    Int.toNat_of_nonneg h]

/-- A padded number of few digits has the width. -/
theorem length_padded_two {n : ℤ} (h : 0 ≤ n ∧ n < 100) : (padded 2 n.toNat).length = 2 :=
  length_padded (by decide) (by omega)

/-- The text of a date is read as the date. -/
theorem parseUtcTimestamp_utcTextOf {date : CivilDate} {time : ℤ}
    (hyear : 0 ≤ date.year ∧ date.year ≤ 9999) (hmonth : 1 ≤ date.month ∧ date.month ≤ 12)
    (hday : 1 ≤ date.day ∧ date.day ≤ 31) (htime : 0 ≤ time ∧ time < 86400) :
    parseUtcTimestamp (utcTextOf date time) =
      some (daysFromCivil date.year date.month date.day * 86400 + time) := by
  have hwidth : (padded 4 date.year.toNat).length = 4 := length_padded (by decide) (by omega)
  rw [utcTextOf, parseUtcTimestamp_pieces hwidth (length_padded_two (by omega))
    (length_padded_two (by omega)) (length_padded_two (by omega)) (length_padded_two (by omega))
    (length_padded_two (by omega))]
  have hrange : ¬(date.month < 1 ∨ 12 < date.month ∨ date.day < 1 ∨ 31 < date.day ∨
      23 < time / 3600 ∨ 59 < time % 3600 / 60 ∨ 59 < time % 60) := by omega
  rw [fromChars_padded 4 (by omega), fromChars_padded 2 (by omega), fromChars_padded 2 (by omega),
    fromChars_padded 2 (by omega), fromChars_padded 2 (by omega), fromChars_padded 2 (by omega)]
  simp only [Option.bind_eq_bind, Option.bind_some, if_neg hrange, Option.some.injEq]
  omega

/-- The text of a year of five digits is not read. -/
theorem parseUtcTimestamp_of_late {date : CivilDate} {time : ℤ} (h : 10000 ≤ date.year) :
    parseUtcTimestamp (utcTextOf date time) = none := by
  have hyear : 4 < (padded 4 date.year.toNat).length := lt_length_padded (by omega)
  have htwo (n : ℕ) : 2 ≤ (padded 2 n).length := le_length_padded 2 n
  have hlength : (utcTextOf date time).length ≠ 20 := by
    have h₁ := htwo date.month.toNat
    have h₂ := htwo date.day.toNat
    have h₃ := htwo (time / 3600).toNat
    have h₄ := htwo (time % 3600 / 60).toNat
    have h₅ := htwo (time % 60).toNat
    simp only [utcTextOf, List.length_append, List.length_cons, List.length_nil]
    omega
  rw [parseUtcTimestamp, if_pos (.inl hlength)]

/-- The year of a second. -/
def yearOf (seconds : ℤ) : ℤ := (civilFromDays (seconds / 86400)).year

/-- The second that the printed text of a second names. -/
def shownSeconds (seconds : ℤ) : ℤ :=
  let date := shownDate seconds
  daysFromCivil date.year date.month date.day * 86400 + seconds % 86400

/-- A second of a year of the common era is shown as itself. -/
theorem shownSeconds_of_pos {seconds : ℤ} (h : 1 ≤ yearOf seconds) :
    shownSeconds seconds = seconds := by
  have hyear : shownYear (civilFromDays (seconds / 86400)).year =
      (civilFromDays (seconds / 86400)).year := if_neg (not_le.mpr h)
  have hcount := daysFromCivil_civilFromDays (seconds / 86400)
  simp only [shownSeconds, shownDate, hyear, hcount]
  omega

/-- The text of a stored instant is read as the second it shows, unless the year is too long. -/
theorem parseUtcTimestamp_toCharUtc (seconds : ℤ) : parseUtcTimestamp (toCharUtc seconds) =
    if shownYear (yearOf seconds) ≤ 9999 then some (shownSeconds seconds) else none := by
  have hrange := civilFromDays_range (seconds / 86400)
  have hpos : 1 ≤ shownYear (yearOf seconds) := by
    unfold shownYear
    split_ifs <;> omega
  by_cases hshort : shownYear (yearOf seconds) ≤ 9999
  · rw [if_pos hshort]
    have hyear : 0 ≤ (shownDate seconds).year ∧ (shownDate seconds).year ≤ 9999 :=
      ⟨Int.le_of_lt hpos, hshort⟩
    exact parseUtcTimestamp_utcTextOf hyear ⟨hrange.1, hrange.2.1⟩ hrange.2.2
      ⟨by omega, by omega⟩
  · rw [if_neg hshort]
    exact parseUtcTimestamp_of_late (by
      change 10000 ≤ shownYear (yearOf seconds)
      omega)

/-- A component of digits is their value. -/
theorem digits_eq_foldl {digits : Bytes} (h : ∀ b ∈ digits, IsDigit b) :
    ∀ result : ℕ, decimalComponent.digits digits result =
      (digits.foldl (fun acc b => 10 * acc + (b.toNat - 48)) result : ℕ) := by
  induction digits with
  | nil => exact fun _ => rfl
  | cons b rest ih =>
    intro result
    have hb := digit_lt_ten (h b List.mem_cons_self)
    rw [decimalComponent.digits, if_pos (h b List.mem_cons_self), List.foldl_cons,
      ← ih fun c hc => h c (List.mem_cons_of_mem _ hc)]
    congr 1
    omega

/-- A component that was read is the padded numeral of its value. -/
theorem padded_decimalComponent {value : Bytes} {offset length : ℕ} (hlength : 0 < length)
    (hfits : offset + length ≤ value.length) (h : 0 ≤ decimalComponent value offset length) :
    padded length (decimalComponent value offset length).toNat =
      (value.drop offset).take length := by
  have hdigits : ∀ b ∈ (value.drop offset).take length, IsDigit b := by
    intro b hb
    obtain ⟨index, hindex, rfl⟩ := List.mem_iff_getElem.mp hb
    rw [List.length_take, List.length_drop] at hindex
    rw [List.getElem_take, List.getElem_drop]
    exact isDigit_of_decimalComponent h (by omega) (by omega) (by omega)
  have hwidth : ((value.drop offset).take length).length = length := by
    rw [List.length_take, List.length_drop]
    omega
  have hvalue : decimalComponent value offset length =
      (numeralValue ((value.drop offset).take length) : ℕ) :=
    digits_eq_foldl hdigits 0
  have hpadded := padded_numeralValue (List.ne_nil_of_length_pos (by omega)) hdigits
  rw [hwidth] at hpadded
  rw [hvalue, Int.toNat_natCast, hpadded]

/-- A text in front of one of its bytes, and behind it. -/
theorem drop_eq_take_append {value : Bytes} {offset length : ℕ} {c : UInt8}
    (h : offset + length < value.length) (hc : value.getD (offset + length) 0 = c) :
    value.drop offset =
      (value.drop offset).take length ++ c :: value.drop (offset + length + 1) := by
  calc value.drop offset
      = (value.drop offset).take length ++ value.drop (offset + length) := by
        rw [← List.drop_drop, List.take_append_drop]
    _ = _ := by rw [← hc, List.getD_eq_getElem _ _ h, List.drop_eq_getElem_cons h]

/-- The pieces of a text between the separators of a time. -/
theorem eq_pieces {value : Bytes} (hlength : value.length = 20)
    (h4 : value.getD 4 0 = byte '-') (h7 : value.getD 7 0 = byte '-')
    (h10 : value.getD 10 0 = byte 'T') (h13 : value.getD 13 0 = byte ':')
    (h16 : value.getD 16 0 = byte ':') (h19 : value.getD 19 0 = byte 'Z') :
    value = (value.drop 0).take 4 ++ byte '-' :: ((value.drop 5).take 2 ++ byte '-' ::
      ((value.drop 8).take 2 ++ byte 'T' :: ((value.drop 11).take 2 ++ byte ':' ::
        ((value.drop 14).take 2 ++ byte ':' :: ((value.drop 17).take 2 ++ [byte 'Z']))))) := by
  have hyear : value.drop 0 = (value.drop 0).take 4 ++ byte '-' :: value.drop 5 :=
    drop_eq_take_append (by omega) h4
  have hmonth : value.drop 5 = (value.drop 5).take 2 ++ byte '-' :: value.drop 8 :=
    drop_eq_take_append (by omega) h7
  have hday : value.drop 8 = (value.drop 8).take 2 ++ byte 'T' :: value.drop 11 :=
    drop_eq_take_append (by omega) h10
  have hhour : value.drop 11 = (value.drop 11).take 2 ++ byte ':' :: value.drop 14 :=
    drop_eq_take_append (by omega) h13
  have hminute : value.drop 14 = (value.drop 14).take 2 ++ byte ':' :: value.drop 17 :=
    drop_eq_take_append (by omega) h16
  have hsecond : value.drop 17 = (value.drop 17).take 2 ++ byte 'Z' :: value.drop 20 :=
    drop_eq_take_append (by omega) h19
  have hend : value.drop 20 = [] := List.drop_eq_nil_of_le hlength.le
  generalize (value.drop 0).take 4 = year at *
  generalize (value.drop 5).take 2 = month at *
  generalize (value.drop 8).take 2 = day at *
  generalize (value.drop 11).take 2 = hour at *
  generalize (value.drop 14).take 2 = minute at *
  generalize (value.drop 17).take 2 = second at *
  rw [hmonth, hday, hhour, hminute, hsecond, hend] at hyear
  exact hyear

/-- The days of a month, as start requests check them. -/
theorem maximumDay_eq {year month : ℤ} (h : 1 ≤ month ∧ month ≤ 12) :
    maximumDay year month = monthLength year month := by
  have hleap : isLeapYear year = decide (IsLeap year) := by
    rw [Bool.eq_iff_iff, decide_eq_true_eq]
    simp only [isLeapYear, IsLeap, Bool.or_eq_true, Bool.and_eq_true, beq_iff_eq, bne_iff_ne]
    omega
  obtain ⟨low, high⟩ := h
  by_cases hyear : IsLeap year <;>
    interval_cases month <;> simp [maximumDay, monthLength, hleap, hyear, daysByMonth]

/-- A component of some digits is below their power of ten. -/
theorem decimalComponent_lt {value : Bytes} {offset length : ℕ} (hlength : 0 < length)
    (hfits : offset + length ≤ value.length) (h : 0 ≤ decimalComponent value offset length) :
    decimalComponent value offset length < 10 ^ length := by
  have hpadded := padded_decimalComponent hlength hfits h
  have hwidth : (padded length (decimalComponent value offset length).toNat).length = length := by
    rw [hpadded, List.length_take, List.length_drop]
    omega
  by_contra hlarge
  have hcast : ((10 ^ length : ℕ) : ℤ) = 10 ^ length := by push_cast; rfl
  have hlong : length < (padded length (decimalComponent value offset length).toNat).length :=
    lt_length_padded (by omega)
  omega

/-- An accepted time is the text of an existing date. -/
theorem exists_date_of_isRfc3339Utc {value : Bytes} (h : isRfc3339Utc value = true) :
    ∃ date time, value = utcTextOf date time ∧ (1 ≤ date.year ∧ date.year ≤ 9999) ∧
      (1 ≤ date.month ∧ date.month ≤ 12) ∧
      (1 ≤ date.day ∧ date.day ≤ monthLength date.year date.month) ∧
      (0 ≤ time ∧ time < 86400) := by
  have hlength := length_of_isRfc3339Utc h
  unfold isRfc3339Utc at h
  split at h
  · cases h
  rename_i hshape
  simp only at h
  split at h
  · cases h
  rename_i hrange
  simp only [Bool.or_eq_true, not_or, bne_iff_ne, ne_eq, not_not, decide_eq_true_eq, not_lt]
    at hshape hrange
  simp only [Bool.and_eq_true, decide_eq_true_eq] at h
  obtain ⟨⟨⟨⟨⟨⟨-, h4⟩, h7⟩, h10⟩, h13⟩, h16⟩, h19⟩ := hshape
  generalize hyear : decimalComponent value 0 4 = year at *
  generalize hmonth : decimalComponent value 5 2 = month at *
  generalize hday : decimalComponent value 8 2 = day at *
  generalize hhour : decimalComponent value 11 2 = hour at *
  generalize hminute : decimalComponent value 14 2 = minute at *
  generalize hsecond : decimalComponent value 17 2 = second at *
  have hbound : year < 10 ^ 4 :=
    hyear ▸ decimalComponent_lt (by decide) (by omega) (by omega)
  have hrest : value = utcTextOf ⟨year, month, day⟩ (hour * 3600 + minute * 60 + second) := by
    have hhours : (hour * 3600 + minute * 60 + second) / 3600 = hour := by omega
    have hminutes : (hour * 3600 + minute * 60 + second) % 3600 / 60 = minute := by omega
    have hseconds : (hour * 3600 + minute * 60 + second) % 60 = second := by omega
    have hpiece (offset length : ℕ) (hwidth : 0 < length) (hfits : offset + length ≤ 20)
        (hread : 0 ≤ decimalComponent value offset length) :=
      padded_decimalComponent hwidth (hlength ▸ hfits) hread
    rw [utcTextOf, hhours, hminutes, hseconds]
    dsimp only
    rw [← hyear, ← hmonth, ← hday, ← hhour, ← hminute, ← hsecond, hpiece 0 4 (by decide)
      (by decide) (by omega), hpiece 5 2 (by decide) (by decide) (by omega), hpiece 8 2 (by decide)
      (by decide) (by omega), hpiece 11 2 (by decide) (by decide) (by omega), hpiece 14 2
      (by decide) (by decide) (by omega), hpiece 17 2 (by decide) (by decide) (by omega)]
    exact eq_pieces hlength h4 h7 h10 h13 h16 h19
  rw [maximumDay_eq ⟨by omega, by omega⟩] at h
  refine ⟨_, _, hrest, ?_⟩
  dsimp only
  exact ⟨⟨by omega, by omega⟩, ⟨by omega, by omega⟩, h, by omega, by omega⟩

/-- The pieces of a text of twenty bytes, as start requests read them. -/
theorem isRfc3339Utc_pieces {year month day hour minute second : Bytes}
    (hyear : year.length = 4) (hmonth : month.length = 2) (hday : day.length = 2)
    (hhour : hour.length = 2) (hminute : minute.length = 2) (hsecond : second.length = 2) :
    isRfc3339Utc (year ++ byte '-' :: (month ++ byte '-' :: (day ++ byte 'T' ::
      (hour ++ byte ':' :: (minute ++ byte ':' :: (second ++ [byte 'Z'])))))) =
    (let number (digits : Bytes) := decimalComponent.digits digits 0
    if number year < 1 || number month < 1 || number month > 12 || number hour < 0 ||
        number hour > 23 || number minute < 0 || number minute > 59 || number second < 0 ||
        number second > 59 then false
    else number day ≥ 1 && number day ≤ maximumDay (number year) (number month)) := by
  obtain ⟨y₁, rest, rfl⟩ := List.exists_cons_of_length_eq_add_one hyear
  obtain ⟨y₂, y₃, y₄, rfl⟩ := List.length_eq_three.mp (Nat.succ.inj hyear)
  obtain ⟨m₁, m₂, rfl⟩ := List.length_eq_two.mp hmonth
  obtain ⟨d₁, d₂, rfl⟩ := List.length_eq_two.mp hday
  obtain ⟨h₁, h₂, rfl⟩ := List.length_eq_two.mp hhour
  obtain ⟨n₁, n₂, rfl⟩ := List.length_eq_two.mp hminute
  obtain ⟨s₁, s₂, rfl⟩ := List.length_eq_two.mp hsecond
  rfl

/-- A padded number is the number that start requests read. -/
theorem digits_padded (width : ℕ) {n : ℤ} (h : 0 ≤ n) :
    decimalComponent.digits (padded width n.toNat) 0 = n := by
  have hdigits : decimalComponent.digits (padded width n.toNat) 0 =
      (numeralValue (padded width n.toNat) : ℕ) :=
    digits_eq_foldl (fun b hb => isDigit_of_mem_padded hb) 0
  rw [hdigits, numeralValue_padded, Int.toNat_of_nonneg h]

/-- The text of an existing date is an accepted time. -/
theorem isRfc3339Utc_utcTextOf {date : CivilDate} {time : ℤ}
    (hyear : 1 ≤ date.year ∧ date.year ≤ 9999) (hmonth : 1 ≤ date.month ∧ date.month ≤ 12)
    (hday : 1 ≤ date.day ∧ date.day ≤ monthLength date.year date.month)
    (htime : 0 ≤ time ∧ time < 86400) : isRfc3339Utc (utcTextOf date time) = true := by
  have hlength : monthLength date.year date.month ≤ 31 := by
    unfold monthLength
    split_ifs <;> decide
  have hwidth : (padded 4 date.year.toNat).length = 4 := length_padded (by decide) (by omega)
  rw [utcTextOf, isRfc3339Utc_pieces hwidth (length_padded_two (by omega))
    (length_padded_two (by omega)) (length_padded_two (by omega)) (length_padded_two (by omega))
    (length_padded_two (by omega))]
  have hyears := digits_padded 4 (show 0 ≤ date.year by omega)
  have hmonths := digits_padded 2 (show 0 ≤ date.month by omega)
  have hdays := digits_padded 2 (show 0 ≤ date.day by omega)
  have hhours := digits_padded 2 (show 0 ≤ time / 3600 by omega)
  have hminutes := digits_padded 2 (show 0 ≤ time % 3600 / 60 by omega)
  have hseconds := digits_padded 2 (show 0 ≤ time % 60 by omega)
  simp only [hyears, hmonths, hdays, hhours, hminutes, hseconds, maximumDay_eq hmonth]
  rw [if_neg]
  · simpa using hday
  · simp only [Bool.or_eq_true, decide_eq_true_eq, not_or, not_lt, gt_iff_lt]
    omega

/-- An accepted time is read as a second that is shown as the time. -/
theorem toCharUtc_of_isRfc3339Utc {value : Bytes} (h : isRfc3339Utc value = true) :
    ∃ seconds, parseUtcTimestamp value = some seconds ∧ toCharUtc seconds = value := by
  obtain ⟨date, time, rfl, hyear, hmonth, hday, htime⟩ := exists_date_of_isRfc3339Utc h
  have hlength : monthLength date.year date.month ≤ 31 := by
    unfold monthLength
    split_ifs <;> decide
  refine ⟨_, parseUtcTimestamp_utcTextOf ⟨by omega, hyear.2⟩ hmonth ⟨hday.1, by omega⟩ htime, ?_⟩
  have hdays : (daysFromCivil date.year date.month date.day * 86400 + time) / 86400 =
      daysFromCivil date.year date.month date.day := by omega
  have htimes : (daysFromCivil date.year date.month date.day * 86400 + time) % 86400 = time := by
    omega
  have hshown : shownYear date.year = date.year := if_neg (by omega)
  simp only [toCharUtc, shownDate, hdays, htimes, civilFromDays_daysFromCivil hmonth hday, hshown]

/-- Whether a number of nanoseconds fits into the clock. -/
def FitsClock (nanoseconds : ℤ) : Prop := -2 ^ 63 ≤ nanoseconds ∧ nanoseconds < 2 ^ 63

instance (nanoseconds : ℤ) : Decidable (FitsClock nanoseconds) :=
  inferInstanceAs (Decidable (_ ∧ _))

/-- A time of the system clock. -/
structure ClockTime where
  nanoseconds : ℤ
  fits : FitsClock nanoseconds

/-- `std::chrono::system_clock::to_time_t`. -/
def ClockTime.seconds (time : ClockTime) : ℤ := time.nanoseconds.tdiv 1000000000

/-- The seconds of the years before the common era, and of the years of five digits. -/
theorem bounds_of_yearOf (seconds : ℤ) : (yearOf seconds ≤ 0 → seconds < -60000000000) ∧
    (10000 ≤ yearOf seconds → 200000000000 < seconds) := by
  obtain ⟨era, marchYear, marchMonth, day, hyear, hyear', hmonth, hmonth', hday, hday', hdays,
    hdate⟩ := civilFromDays_spec (seconds / 86400)
  unfold yearOf
  rw [hdate]
  unfold daysBeforeYear daysBeforeMonth at hdays
  dsimp only
  constructor
  · split_ifs <;> omega
  · split_ifs <;> omega

/-- The seconds that the clock shows. -/
theorem ClockTime.bounds_seconds (time : ClockTime) :
    -10000000000 ≤ time.seconds ∧ time.seconds ≤ 10000000000 := by
  have hfits := time.fits
  unfold FitsClock at hfits
  unfold ClockTime.seconds
  rcases Int.le_total 0 time.nanoseconds with hpos | hneg
  · rw [Int.tdiv_eq_ediv_of_nonneg hpos]
    omega
  · rw [← Int.neg_neg time.nanoseconds, Int.neg_tdiv, Int.tdiv_eq_ediv_of_nonneg (by omega)]
    omega

/-- The part of a second that the clock has passed; it is negative before the epoch. -/
def ClockTime.fraction (time : ClockTime) : ℤ := time.nanoseconds - time.seconds * 1000000000

/-- A fraction is shorter than a second. -/
theorem ClockTime.bounds_fraction (time : ClockTime) :
    -1000000000 < time.fraction ∧ time.fraction < 1000000000 := by
  unfold ClockTime.fraction ClockTime.seconds
  rcases Int.le_total 0 time.nanoseconds with hpos | hneg
  · rw [Int.tdiv_eq_ediv_of_nonneg hpos]
    omega
  · rw [← Int.neg_neg time.nanoseconds, Int.neg_tdiv, Int.tdiv_eq_ediv_of_nonneg (by omega)]
    omega

/-- The clock shows years of four digits. -/
theorem ClockTime.yearOf_seconds (time : ClockTime) :
    1 ≤ yearOf time.seconds ∧ yearOf time.seconds ≤ 9999 := by
  have hseconds := time.bounds_seconds
  obtain ⟨era, marchYear, marchMonth, day, hyear, hyear', hmonth, hmonth', hday, hday', hdays,
    hdate⟩ := civilFromDays_spec (time.seconds / 86400)
  unfold yearOf
  rw [hdate]
  unfold daysBeforeYear daysBeforeMonth at hdays
  dsimp only
  split_ifs <;> omega

/-- The printed clock is read back. -/
theorem ClockTime.parse_format (time : ClockTime) :
    parseUtcTimestamp (formatUtcTimestamp time.seconds) = some time.seconds := by
  have hrange := civilFromDays_range (time.seconds / 86400)
  have hyear := time.yearOf_seconds
  unfold yearOf at hyear
  have hday := hrange.2.2.2
  rw [formatUtcTimestamp, parseUtcTimestamp_utcTextOf ⟨by omega, hyear.2⟩
    ⟨hrange.1, hrange.2.1⟩ ⟨hrange.2.2.1, by omega⟩ ⟨by omega, by omega⟩,
    daysFromCivil_civilFromDays, Option.some.injEq]
  omega

/-- The printed clock is an accepted time. -/
theorem ClockTime.isRfc3339Utc_format (time : ClockTime) :
    isRfc3339Utc (formatUtcTimestamp time.seconds) = true := by
  have hrange := civilFromDays_range (time.seconds / 86400)
  exact isRfc3339Utc_utcTextOf time.yearOf_seconds ⟨hrange.1, hrange.2.1⟩
    ⟨hrange.2.2.1, civilFromDays_day_le _⟩ ⟨by omega, by omega⟩

end LabBridge.Server
