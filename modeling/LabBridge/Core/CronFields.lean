import LabBridge.Core.CronSchedule
import LabBridge.Library.Fallible
import Mathlib.Data.List.Forall2

/-!
# What a cron expression accepts

The meaning of an expression over the minutes of the calendar, and that a parsed schedule accepts
just these minutes. An expression is split at its white space; a field is a star, a star with a
step that counts from the least value of the field, or a single number.
-/

namespace LabBridge.Core

open ByteText CivilTime Fallible

/-- The parts of an expression between runs of white space. -/
def expressionFields (expression : Bytes) : List Bytes :=
  (expression.splitOnP isSpaceByte).filter fun field => !field.isEmpty

/-- A nonempty string of digits. -/
def IsNumeral (digits : Bytes) : Prop := digits ≠ [] ∧ ∀ b ∈ digits, IsDigit b

/-- What the text of a field accepts between the least and the greatest value of the field: with
a star everything, with a step what it reaches from the least value, else the number itself. -/
def FieldAccepts (minimum maximum : ℕ) (value : Bytes) (number : ℕ) : Prop :=
  minimum ≤ number ∧ number ≤ maximum ∧
    (value = text "*" ∨
      (∃ digits count, IsNumeral digits ∧ value = text "*/" ++ digits ∧
        number = minimum + count * numeralValue digits) ∨
      IsNumeral value ∧ number = numeralValue value)

/-- The calendar reading of a point of time that is a whole minute. -/
structure IsUtcMinute (time : SystemTime) (year : ℤ) (month day hour minute weekDay : ℕ) :
    Prop where
  month_range : 1 ≤ month ∧ month ≤ 12
  day_range : 1 ≤ day ∧ (day : ℤ) ≤ monthLength year month
  hour_lt : hour < 24
  minute_lt : minute < 60
  weekDay_eq : weekday (daysFromCivil year month day) = weekDay
  time_eq : time = ((daysFromCivil year month day * 24 + hour) * 60 + minute) * nanosecondsPerMinute

/-- An expression accepts a whole minute when each of its five fields accepts its part. -/
def ExpressionAccepts (expression : Bytes) (time : SystemTime) : Prop :=
  ∃ (year : ℤ) (month day hour minute weekDay : ℕ),
    IsUtcMinute time year month day hour minute weekDay ∧
    ∃ minuteField hourField dayField monthField weekDayField : Bytes,
      expressionFields expression =
        [minuteField, hourField, dayField, monthField, weekDayField] ∧
      FieldAccepts 0 59 minuteField minute ∧ FieldAccepts 0 23 hourField hour ∧
      FieldAccepts 1 31 dayField day ∧ FieldAccepts 1 12 monthField month ∧
      FieldAccepts 0 6 weekDayField weekDay

/-- Splitting at white space leaves the nonempty parts. -/
theorem splitFields_eq (expression : Bytes) :
    splitFields [] expression = expressionFields expression := by
  have hsplit : ∀ (rest current : Bytes), splitFields current rest =
      ((rest.splitOnP isSpaceByte).modifyHead (current ++ ·)).filter
        fun field => !field.isEmpty := by
    intro rest
    induction rest with
    | nil =>
      intro current
      cases current <;> simp [splitFields, List.splitOnP_nil]
    | cons b rest ih =>
      intro current
      obtain ⟨first, others, hparts⟩ := List.exists_cons_of_ne_nil
        (List.splitOnP_ne_nil isSpaceByte rest)
      by_cases hspace : isSpaceByte b = true
      · rw [splitFields, if_pos hspace, List.splitOnP_cons_eq_if_modifyHead, if_pos hspace, ih, hparts]
        cases current <;> simp
      · rw [splitFields, if_neg hspace, List.splitOnP_cons_eq_if_modifyHead, if_neg hspace, ih, hparts]
        simp
  rw [hsplit, expressionFields]
  congr 1
  cases expression.splitOnP isSpaceByte <;> simp

/-- A decimal number that is read is the value of its digits. -/
theorem parseDecimal_eq_ok {value fieldName : Bytes} {result : ℕ}
    (h : parseDecimal value fieldName = .ok result) :
    IsNumeral value ∧ result = numeralValue value := by
  unfold parseDecimal at h
  split at h
  · cases h
  · rename_i hdigits
    have hnonempty : value ≠ [] := by
      rintro rfl
      exact hdigits (Or.inl rfl)
    have hall : ∀ b ∈ value, IsDigit b := by
      by_contra hother
      exact hdigits (Or.inr (by simpa using hother))
    refine ⟨⟨hnonempty, hall⟩, foldl_of_foldlM (fun start b next hnext => ?_) h⟩
    split at hnext
    · cases hnext
    · cases hnext
      rw [Nat.mul_comm]

/-- The values of a stepped field. -/
theorem mem_steppedValues {minimum maximum step value : ℕ} :
    value ∈ steppedValues minimum maximum step ↔
      ∃ count, value = minimum + count * step ∧ value ≤ maximum := by
  simp only [steppedValues, List.mem_filter, List.mem_range, decide_eq_true_eq]
  constructor
  · rintro ⟨hhigh, hlow, hstep⟩
    obtain ⟨count, hcount⟩ := Nat.dvd_of_mod_eq_zero hstep
    exact ⟨count, by rw [Nat.mul_comm, ← hcount]; omega, by omega⟩
  · rintro ⟨count, rfl, hhigh⟩
    refine ⟨by omega, by omega, ?_⟩
    rw [Nat.add_sub_cancel_left, Nat.mul_mod_left]

/-- A numeral does not begin with a star. -/
theorem not_isNumeral_star (rest : Bytes) : ¬IsNumeral (text "*" ++ rest) := fun h =>
  absurd (h.2 42 (List.mem_append_left rest (by decide))) (by decide)

/-- The parsed values of a field are the values its text accepts. -/
theorem mem_parseField {minimum maximum : ℕ} {name value : Bytes} {accepted : List ℕ}
    (h : parseField (minimum, maximum, name) value = .ok accepted) (number : ℕ) :
    number ∈ accepted ↔ FieldAccepts minimum maximum value number := by
  have hstep : text "*/" = text "*" ++ text "/" := rfl
  unfold parseField at h
  dsimp only at h
  split at h
  · rename_i hstar
    cases h
    rw [mem_steppedValues]
    constructor
    · rintro ⟨count, rfl, hhigh⟩
      exact ⟨by omega, hhigh, .inl hstar⟩
    · rintro ⟨hlow, hhigh, -⟩
      exact ⟨number - minimum, by omega, hhigh⟩
  · rename_i hstar
    split at h
    · rename_i hslash
      obtain ⟨step, hstepped, hrest⟩ := bind_eq_ok.mp h
      obtain ⟨hchecked, hresult⟩ := check_eq_ok.mp hrest
      cases hresult
      obtain ⟨hnumeral, rfl⟩ := parseDecimal_eq_ok hstepped
      have hvalue : value = text "*/" ++ value.drop 2 := by
        rw [← hslash.2, List.take_append_drop]
      rw [mem_steppedValues]
      constructor
      · rintro ⟨count, rfl, hhigh⟩
        exact ⟨by omega, hhigh, .inr (.inl ⟨_, count, hnumeral, hvalue, rfl⟩)⟩
      · rintro ⟨-, hhigh, hevery | ⟨digits, count, -, hdigits, rfl⟩ | ⟨hsingle, -⟩⟩
        · exact absurd hevery hstar
        · refine ⟨count, ?_, hhigh⟩
          rw [hdigits]
          rfl
        · rw [hvalue, hstep, List.append_assoc] at hsingle
          exact absurd hsingle (not_isNumeral_star _)
    · rename_i hslash
      obtain ⟨single, hparsed, hrest⟩ := bind_eq_ok.mp h
      obtain ⟨hchecked, hresult⟩ := check_eq_ok.mp hrest
      cases hresult
      obtain ⟨hnumeral, rfl⟩ := parseDecimal_eq_ok hparsed
      rw [List.mem_singleton]
      constructor
      · rintro rfl
        exact ⟨by omega, by omega, .inr (.inr ⟨hnumeral, rfl⟩)⟩
      · rintro ⟨-, -, hevery | ⟨digits, count, hdigits, rfl, -⟩ | ⟨-, hsingle⟩⟩
        · exact absurd hevery hstar
        · have hlength : 0 < digits.length := List.length_pos_iff.mpr hdigits.1
          have htwo : (text "*/").length = 2 := rfl
          refine absurd ⟨?_, ?_⟩ hslash
          · rw [List.length_append]
            omega
          · rfl
        · exact hsingle

/-- A parsed field accepts something. -/
theorem parseField_ne_nil {minimum maximum : ℕ} {name value : Bytes} {accepted : List ℕ}
    (hrange : minimum ≤ maximum) (h : parseField (minimum, maximum, name) value = .ok accepted) :
    accepted ≠ [] := by
  have hleast : ∀ step, minimum ∈ steppedValues minimum maximum step := fun step =>
    mem_steppedValues.mpr ⟨0, by omega, hrange⟩
  unfold parseField at h
  dsimp only at h
  split at h
  · cases h
    exact List.ne_nil_of_mem (hleast 1)
  · split at h
    · obtain ⟨step, -, hrest⟩ := bind_eq_ok.mp h
      obtain ⟨-, hresult⟩ := check_eq_ok.mp hrest
      cases hresult
      exact List.ne_nil_of_mem (hleast step)
    · obtain ⟨single, -, hrest⟩ := bind_eq_ok.mp h
      obtain ⟨-, hresult⟩ := check_eq_ok.mp hrest
      cases hresult
      exact List.cons_ne_nil _ _

/-- The items of a list of five. -/
theorem eq_five_of_length {α : Type} {items : List α} (h : items.length = 5) :
    ∃ a b c d e, items = [a, b, c, d, e] := by
  obtain _ | ⟨a, _ | ⟨b, _ | ⟨c, _ | ⟨d, _ | ⟨e, _ | ⟨f, rest⟩⟩⟩⟩⟩⟩ := items <;> simp at h
  exact ⟨a, b, c, d, e, rfl⟩

/-- A parsed schedule has the values of each field, and some time of the day. -/
theorem parse_eq_ok {expression : Bytes} {schedule : CronSchedule}
    (h : CronSchedule.parse expression = .ok schedule) :
    ∃ minuteField hourField dayField monthField weekDayField : Bytes,
      expressionFields expression =
        [minuteField, hourField, dayField, monthField, weekDayField] ∧
      ∃ minutes hours days months weekDays : List ℕ,
        schedule.accepted = [minutes, hours, days, months, weekDays] ∧
        minutes ≠ [] ∧ hours ≠ [] ∧
        (∀ number, number ∈ minutes ↔ FieldAccepts 0 59 minuteField number) ∧
        (∀ number, number ∈ hours ↔ FieldAccepts 0 23 hourField number) ∧
        (∀ number, number ∈ days ↔ FieldAccepts 1 31 dayField number) ∧
        (∀ number, number ∈ months ↔ FieldAccepts 1 12 monthField number) ∧
        ∀ number, number ∈ weekDays ↔ FieldAccepts 0 6 weekDayField number := by
  unfold CronSchedule.parse at h
  obtain ⟨hlength, hrest⟩ := check_eq_ok.mp h
  obtain ⟨accepted, hfields, hschedule⟩ := bind_eq_ok.mp hrest
  cases hschedule
  rw [splitFields_eq] at hlength hfields
  generalize expressionFields expression = fields at *
  obtain ⟨minuteField, hourField, dayField, monthField, weekDayField, rfl⟩ :=
    eq_five_of_length (not_not.mp hlength)
  have hvalues := mapM_eq_ok.mp hfields
  simp only [cronFields, List.zip_cons_cons, List.zip_nil_right, List.forall₂_cons_left_iff,
    List.forall₂_nil_left_iff] at hvalues
  obtain ⟨minutes, _, hminutes, ⟨hours, _, hhours, ⟨days, _, hdays, ⟨months, _, hmonths,
    ⟨weekDays, _, hweekDays, rfl, rfl⟩, rfl⟩, rfl⟩, rfl⟩, rfl⟩ := hvalues
  exact ⟨_, _, _, _, _, rfl, _, _, _, _, _, rfl, parseField_ne_nil (by decide) hminutes,
    parseField_ne_nil (by decide) hhours, mem_parseField hminutes, mem_parseField hhours,
    mem_parseField hdays, mem_parseField hmonths, mem_parseField hweekDays⟩

/-- The parts of a whole minute since the epoch. -/
theorem utcParts_minute {count : ℤ} (h : 0 ≤ count) :
    utcParts (count * nanosecondsPerMinute) =
      [count % 60, count % 1440 / 60, (civilFromDays (count / 1440)).day,
        (civilFromDays (count / 1440)).month, weekday (count / 1440)] := by
  have hnonneg : 0 ≤ count * 60000000000 := by omega
  have hseconds : (count * 60000000000).tdiv 1000000000 = count * 60 := by
    rw [Int.tdiv_eq_ediv_of_nonneg hnonneg]
    omega
  have hdays : count * 60 / 86400 = count / 1440 := by omega
  have hminute : count * 60 % 3600 / 60 = count % 60 := by omega
  have hhour : count * 60 % 86400 / 3600 = count % 1440 / 60 := by omega
  simp only [utcParts, nanosecondsPerMinute, nanosecondsPerSecond, hseconds, hdays, hminute, hhour]

/-- A whole minute has one calendar reading, the one of its count. -/
theorem isUtcMinute_iff {count year : ℤ} {month day hour minute weekDay : ℕ} :
    IsUtcMinute (count * nanosecondsPerMinute) year month day hour minute weekDay ↔
      civilFromDays (count / 1440) = ⟨year, month, day⟩ ∧ count % 1440 / 60 = hour ∧
        count % 60 = minute ∧ weekday (count / 1440) = weekDay := by
  unfold nanosecondsPerMinute
  constructor
  · intro h
    have htime : count * 60000000000 =
        ((daysFromCivil year month day * 24 + hour) * 60 + minute) * 60000000000 := h.time_eq
    have hhour := h.hour_lt
    have hminute := h.minute_lt
    have hday : count / 1440 = daysFromCivil year month day := by omega
    refine ⟨?_, by omega, by omega, ?_⟩
    · rw [hday]
      apply civilFromDays_daysFromCivil
      · exact ⟨by exact_mod_cast h.month_range.1, by exact_mod_cast h.month_range.2⟩
      · exact ⟨by exact_mod_cast h.day_range.1, h.day_range.2⟩
    · rw [hday]
      exact h.weekDay_eq
  · rintro ⟨hdate, hhour, hminute, hweekDay⟩
    have hcount := daysFromCivil_civilFromDays (count / 1440)
    have hrange := civilFromDays_range (count / 1440)
    have hlength := civilFromDays_day_le (count / 1440)
    rw [hdate] at hcount hrange hlength
    dsimp only at hcount hrange hlength
    constructor
    · omega
    · exact ⟨by omega, hlength⟩
    · omega
    · omega
    · rw [hcount]
      exact hweekDay
    · have htime : count * 60000000000 =
          ((count / 1440 * 24 + hour) * 60 + minute) * 60000000000 := by omega
      rw [hcount]
      exact htime

/-- A parsed schedule accepts the whole minutes its expression accepts. -/
theorem accepts_iff {expression : Bytes} {schedule : CronSchedule}
    (hparse : CronSchedule.parse expression = .ok schedule) {count : ℤ} (h : 0 ≤ count) :
    schedule.accepts (count * nanosecondsPerMinute) = true ↔
      ExpressionAccepts expression (count * nanosecondsPerMinute) := by
  obtain ⟨minuteField, hourField, dayField, monthField, weekDayField, hfields, minutes, hours,
    days, months, weekDays, hvalues, -, -, hminutes, hhours, hdays, hmonths, hweekDays⟩ :=
    parse_eq_ok hparse
  have hany : ∀ (values : List ℕ) (part : ℤ), (values.any fun value => (value : ℤ) == part) =
      true ↔ ∃ number ∈ values, (number : ℤ) = part := by
    simp
  simp only [CronSchedule.accepts, hvalues, utcParts_minute h, List.zip_cons_cons,
    List.zip_nil_right, List.all_cons, List.all_nil, Bool.and_eq_true, hany, and_true]
  unfold ExpressionAccepts
  simp only [isUtcMinute_iff, hfields]
  constructor
  · rintro ⟨⟨minute, hminute, hminutePart⟩, ⟨hour, hhour, hhourPart⟩, ⟨day, hday, hdayPart⟩,
      ⟨month, hmonth, hmonthPart⟩, weekDay, hweekDay, hweekDayPart⟩
    refine ⟨(civilFromDays (count / 1440)).year, month, day, hour, minute, weekDay,
      ⟨?_, hhourPart.symm, hminutePart.symm, hweekDayPart.symm⟩, _, _, _, _, _, rfl, ?_⟩
    · rw [hmonthPart, hdayPart]
    · exact ⟨(hminutes _).mp hminute, (hhours _).mp hhour, (hdays _).mp hday,
        (hmonths _).mp hmonth, (hweekDays _).mp hweekDay⟩
  · rintro ⟨year, month, day, hour, minute, weekDay, ⟨hdate, hhour, hminute, hweekDay⟩, _, _, _, _,
      _, hsame, hminuteField, hhourField, hdayField, hmonthField, hweekDayField⟩
    cases hsame
    rw [hdate]
    exact ⟨⟨minute, (hminutes _).mpr hminuteField, hminute.symm⟩,
      ⟨hour, (hhours _).mpr hhourField, hhour.symm⟩, ⟨day, (hdays _).mpr hdayField, rfl⟩,
      ⟨month, (hmonths _).mpr hmonthField, rfl⟩,
      ⟨weekDay, (hweekDays _).mpr hweekDayField, hweekDay.symm⟩⟩

/-- The text of a field that is read is plain ASCII. -/
theorem ascii_of_parseField {field : ℕ × ℕ × Bytes} {value : Bytes} {accepted : List ℕ}
    (h : parseField field value = .ok accepted) : ∀ b ∈ value, 0 < b ∧ b < 128 := by
  have hdigit {b : UInt8} (hb : IsDigit b) : 0 < b ∧ b < 128 :=
    ⟨UInt8.lt_of_lt_of_le (by decide) hb.1, UInt8.lt_of_le_of_lt hb.2 (by decide)⟩
  unfold parseField at h
  dsimp only at h
  split at h
  · rename_i hstar
    rw [hstar]
    decide +kernel
  · split at h
    · rename_i hstep
      obtain ⟨step, hread, -⟩ := bind_eq_ok.mp h
      intro b hb
      rw [← List.take_append_drop 2 value, hstep.2] at hb
      rcases List.mem_append.mp hb with hb | hb
      · have hsign : ∀ b ∈ text "*/", 0 < b ∧ b < 128 := by decide +kernel
        exact hsign b hb
      · exact hdigit ((parseDecimal_eq_ok hread).1.2 b hb)
    · obtain ⟨single, hread, -⟩ := bind_eq_ok.mp h
      exact fun b hb => hdigit ((parseDecimal_eq_ok hread).1.2 b hb)

/-- A byte of an expression is white space or in one of its fields. -/
theorem mem_splitFields {current rest : Bytes} {b : UInt8} (h : b ∈ current ++ rest) :
    isSpaceByte b = true ∨ ∃ field ∈ splitFields current rest, b ∈ field := by
  induction rest generalizing current with
  | nil =>
    rw [List.append_nil] at h
    cases current with
    | nil => cases h
    | cons first others => exact .inr ⟨first :: others, by simp [splitFields], h⟩
  | cons next rest ih =>
    by_cases hspace : isSpaceByte next = true
    · rw [splitFields, if_pos hspace]
      rcases List.mem_append.mp h with hcurrent | hrest
      · cases current with
        | nil => cases hcurrent
        | cons first others => exact .inr ⟨first :: others, by simp, hcurrent⟩
      · rcases List.mem_cons.mp hrest with rfl | hrest
        · exact .inl hspace
        · have hmem : b ∈ [] ++ rest := hrest
          rcases ih hmem with hb | ⟨field, hfield, hb⟩
          · exact .inl hb
          · refine .inr ⟨field, ?_, hb⟩
            split
            · exact hfield
            · exact List.mem_cons_of_mem _ hfield
    · rw [splitFields, if_neg hspace]
      apply ih
      rw [List.append_assoc]
      exact h

/-- The text of a schedule is plain ASCII. -/
theorem CronSchedule.ascii_of_parse {expression : Bytes} {schedule : CronSchedule}
    (h : CronSchedule.parse expression = .ok schedule) : ∀ b ∈ expression, 0 < b ∧ b < 128 := by
  intro b hb
  unfold CronSchedule.parse at h
  obtain ⟨hlength, hrest⟩ := check_eq_ok.mp h
  obtain ⟨accepted, hfields, -⟩ := bind_eq_ok.mp hrest
  have hmem : b ∈ [] ++ expression := hb
  rcases mem_splitFields hmem with hspace | ⟨field, hfield, hb⟩
  · simp only [isSpaceByte, Bool.or_eq_true, beq_iff_eq, Bool.and_eq_true, decide_eq_true_eq]
      at hspace
    rcases hspace with rfl | ⟨hlow, hhigh⟩
    · decide
    · exact ⟨UInt8.lt_of_lt_of_le (by decide) hlow, UInt8.lt_of_le_of_lt hhigh (by decide)⟩
  · have hzip : (cronFields.zip (splitFields [] expression)).map Prod.snd =
        splitFields [] expression :=
      List.map_snd_zip (by rw [not_not.mp hlength]; rfl)
    rw [← hzip] at hfield
    obtain ⟨pair, hpair, rfl⟩ := List.mem_map.mp hfield
    obtain ⟨values, -, hread⟩ := exists_right (mapM_eq_ok.mp hfields) hpair
    exact ascii_of_parseField hread b hb

end LabBridge.Core
