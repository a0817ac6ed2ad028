import LabBridge.Core.CronSlots
import LabBridge.Library.Anniversaries

/-!
# Which schedules outrun the search window

A schedule accepts days and times of the day apart, and the calendar repeats after an era. So a
schedule has later slots exactly when it accepts some day, and the search finds one exactly when
the window ends on the clock and an accepted day reaches into it.
-/

namespace LabBridge.Core

open ByteText CivilTime

namespace CronSchedule

/-- The minutes of a day. -/
def minutesPerDay : ℤ := 1440

/-- The fields for the day, the month and the day of the week accept a day. -/
def acceptsDay (schedule : CronSchedule) (day : ℤ) : Bool :=
  ((schedule.accepted.drop 2).zip [(civilFromDays day).day, (civilFromDays day).month,
    weekday day]).all fun field => field.1.any fun value => (value : ℤ) == field.2

/-- The fields for the minute and the hour accept a minute of the day. -/
def acceptsTime (schedule : CronSchedule) (minute : ℤ) : Bool :=
  ((schedule.accepted.take 2).zip [minute % 60, minute / 60]).all fun field =>
    field.1.any fun value => (value : ℤ) == field.2

/-- The days of the window. -/
def windowDays : ℤ := 8 * 366

/-- A day reaches into the window: it lies between the first and the last day of the window, or it
is the first one and has a time left, or it is the last one and its first time still counts. -/
def Reaches (schedule : CronSchedule) (time : SystemTime) (day : ℤ) : Prop :=
  let first := firstMinute time
  first / minutesPerDay < day ∧ day < first / minutesPerDay + windowDays ∨
    day = first / minutesPerDay ∧ (∃ minute, first % minutesPerDay ≤ minute ∧
      minute < minutesPerDay ∧ schedule.acceptsTime minute = true) ∨
    day = first / minutesPerDay + windowDays ∧ ∃ minute, 0 ≤ minute ∧
      minute ≤ first % minutesPerDay ∧ schedule.acceptsTime minute = true

variable {schedule : CronSchedule} {expression : Bytes} {time : ℤ}

/-- The parts of a minute since the epoch are those of its day and of its time of the day. -/
theorem accepts_minute {count : ℤ} (h : 0 ≤ count) :
    schedule.accepts (count * nanosecondsPerMinute) =
      (schedule.acceptsTime (count % minutesPerDay) &&
        schedule.acceptsDay (count / minutesPerDay)) := by
  have hminute : count % 1440 % 60 = count % 60 := by omega
  unfold accepts acceptsTime acceptsDay minutesPerDay
  rw [utcParts_minute h, hminute]
  rcases schedule.accepted with _ | ⟨minutes, _ | ⟨hours, rest⟩⟩
  · rfl
  · simp
  · simp only [List.zip_cons_cons, List.all_cons, List.take_succ_cons, List.take_zero,
      List.zip_nil_left, List.all_nil, Bool.and_true, List.drop_succ_cons, List.drop_zero,
      Bool.and_assoc]

/-- A day is accepted again an era later. -/
theorem acceptsDay_add_era (day : ℤ) (eras : ℕ) :
    schedule.acceptsDay (day + eras * 146097) = schedule.acceptsDay day := by
  induction eras with
  | zero => simp
  | succ eras ih =>
    have hnext : day + (eras + 1 : ℕ) * 146097 = day + eras * 146097 + 146097 := by
      push_cast
      ring
    rw [hnext, ← ih]
    unfold acceptsDay
    rw [civilFromDays_add_era, weekday_add_era]

/-- A parsed schedule accepts some time of the day. -/
theorem exists_acceptsTime (hparse : parse expression = .ok schedule) :
    ∃ minute, 0 ≤ minute ∧ minute < minutesPerDay ∧ schedule.acceptsTime minute = true := by
  obtain ⟨minuteField, hourField, -, -, -, -, minutes, hours, days, months, weekDays, hvalues,
    hminutes, hhours, hminute, hhour, -⟩ := parse_eq_ok hparse
  obtain ⟨minute, hmemMinute⟩ := List.exists_mem_of_ne_nil minutes hminutes
  obtain ⟨hour, hmemHour⟩ := List.exists_mem_of_ne_nil hours hhours
  have hminuteHigh := ((hminute minute).mp hmemMinute).2.1
  have hhourHigh := ((hhour hour).mp hmemHour).2.1
  refine ⟨hour * 60 + minute, by omega, by unfold minutesPerDay; omega, ?_⟩
  have hpart : ((hour : ℤ) * 60 + minute) % 60 = minute := by omega
  have hquotient : ((hour : ℤ) * 60 + minute) / 60 = hour := by omega
  simp only [acceptsTime, hvalues, List.take_succ_cons, List.take_zero, List.zip_cons_cons,
    List.zip_nil_right, List.all_cons, List.all_nil, hpart, hquotient, List.any_eq_true,
    Bool.and_true, Bool.and_eq_true, beq_iff_eq, Nat.cast_inj]
  exact ⟨⟨minute, hmemMinute, rfl⟩, hour, hmemHour, rfl⟩

/-- Whole minutes behind a time. -/
theorem slot_iff_of_count (hparse : parse expression = .ok schedule) {count : ℤ} (htime : 0 ≤ time) :
    count * nanosecondsPerMinute ∈ slotsAfter expression time ↔
      firstMinute time ≤ count ∧ schedule.acceptsTime (count % minutesPerDay) = true ∧
        schedule.acceptsDay (count / minutesPerDay) = true := by
  have hlater : time < count * nanosecondsPerMinute ↔ firstMinute time ≤ count := by
    unfold nanosecondsPerMinute firstMinute nanosecondsPerMinute
    omega
  by_cases hnonneg : 0 ≤ count
  · rw [← Bool.and_eq_true, ← accepts_minute hnonneg, accepts_iff hparse hnonneg, ← hlater]
    rfl
  · constructor
    · intro h
      have hbehind := hlater.mp h.1
      unfold firstMinute nanosecondsPerMinute at hbehind
      omega
    · rintro ⟨hbehind, -⟩
      unfold firstMinute nanosecondsPerMinute at hbehind
      omega

/-- There are later slots when some day of the calendar is accepted. -/
theorem slotsAfter_nonempty_iff (hparse : parse expression = .ok schedule) (htime : 0 ≤ time) :
    (slotsAfter expression time).Nonempty ↔ ∃ day, schedule.acceptsDay day = true := by
  constructor
  · rintro ⟨slot, hslot⟩
    obtain ⟨count, rfl⟩ := hslot.2.whole
    exact ⟨_, ((slot_iff_of_count hparse htime).mp hslot).2.2⟩
  · rintro ⟨day, hday⟩
    obtain ⟨minute, hlow, hhigh, haccepts⟩ := exists_acceptsTime hparse
    generalize hlater : day + ((firstMinute time - day).toNat : ℕ) * 146097 = later
    have hminute : (later * minutesPerDay + minute) % minutesPerDay = minute := by
      unfold minutesPerDay at *
      omega
    have hquotient : (later * minutesPerDay + minute) / minutesPerDay = later := by
      unfold minutesPerDay at *
      omega
    have hfirst : 0 ≤ firstMinute time := by
      unfold firstMinute nanosecondsPerMinute
      omega
    refine ⟨(later * minutesPerDay + minute) * nanosecondsPerMinute,
      (slot_iff_of_count hparse htime).mpr ⟨?_, ?_, ?_⟩⟩
    · unfold minutesPerDay at *
      omega
    · rwa [hminute]
    · rwa [hquotient, ← hlater, acceptsDay_add_era]

/-- The window holds a slot when an accepted day reaches into it. -/
theorem exists_slot_iff (hparse : parse expression = .ok schedule) (htime : 0 ≤ time) :
    (∃ slot ∈ slotsAfter expression time, slot ≤ windowEnd time) ↔
      ∃ day, schedule.acceptsDay day = true ∧ schedule.Reaches time day := by
  have hsome : (∃ slot ∈ slotsAfter expression time, slot ≤ windowEnd time) ↔ ∃ count,
      count * nanosecondsPerMinute ∈ slotsAfter expression time ∧
        count ≤ firstMinute time + searchLimit := by
    constructor
    · rintro ⟨slot, hslot, hreached⟩
      obtain ⟨count, rfl⟩ := hslot.2.whole
      exact ⟨count, hslot, le_of_mul_le_mul_right hreached (by decide)⟩
    · rintro ⟨count, hslot, hreached⟩
      exact ⟨_, hslot, mul_le_mul_of_nonneg_right hreached (by decide)⟩
  simp only [hsome, slot_iff_of_count hparse htime]
  have hlimit : (searchLimit : ℤ) = windowDays * minutesPerDay := by decide
  rw [hlimit]
  unfold Reaches
  generalize firstMinute time = first
  unfold windowDays minutesPerDay
  constructor
  · rintro ⟨count, ⟨hfirst, htimeOfDay, hday⟩, hlast⟩
    refine ⟨_, hday, ?_⟩
    by_cases hstart : count / 1440 = first / 1440
    · exact .inr (.inl ⟨hstart, _, by omega, by omega, htimeOfDay⟩)
    · by_cases hstop : count / 1440 = first / 1440 + 8 * 366
      · exact .inr (.inr ⟨hstop, _, by omega, by omega, htimeOfDay⟩)
      · exact .inl ⟨by omega, by omega⟩
  · have hcount : ∀ {day minute : ℤ}, 0 ≤ minute → minute < 1440 →
        schedule.acceptsDay day = true → schedule.acceptsTime minute = true →
        first ≤ day * 1440 + minute → day * 1440 + minute ≤ first + 8 * 366 * 1440 →
        ∃ count, (first ≤ count ∧ schedule.acceptsTime (count % 1440) = true ∧
          schedule.acceptsDay (count / 1440) = true) ∧ count ≤ first + 8 * 366 * 1440 := by
      intro day minute hlow hhigh hday hminute hfirst hlast
      have hremainder : (day * 1440 + minute) % 1440 = minute := by omega
      have hquotient : (day * 1440 + minute) / 1440 = day := by omega
      exact ⟨_, ⟨hfirst, by rwa [hremainder], by rwa [hquotient]⟩, hlast⟩
    rintro ⟨day, hday, ⟨hlow, hhigh⟩ | ⟨rfl, minute, hlow, hhigh, hminute⟩ |
      ⟨rfl, minute, hlow, hhigh, hminute⟩⟩
    · obtain ⟨minute, hstart, hstop, hminute⟩ := exists_acceptsTime hparse
      unfold minutesPerDay at hstop
      exact hcount hstart hstop hday hminute (by omega) (by omega)
    · exact hcount (by omega) hhigh hday hminute (by omega) (by omega)
    · exact hcount hlow (by omega) hday hminute (by omega) (by omega)

/-- The search finds a slot of the calendar when its window ends on the clock and an accepted day
reaches into it. -/
theorem exists_nextAfter_iff (hparse : parse expression = .ok schedule) (htime : 0 ≤ time)
    (clock : OnClock time) :
    (∃ slot ∈ slotsAfter expression time, schedule.nextAfter time = some slot) ↔
      firstMinute time + searchLimit ≤ lastMinute ∧
        ∃ day, schedule.acceptsDay day = true ∧ schedule.Reaches time day := by
  rw [← exists_slot_iff hparse htime]
  constructor
  · rintro ⟨slot, hslot, hfound⟩
    obtain ⟨steps, hlooks, hcandidate, -⟩ := (nextAfter_eq_some_iff htime clock).mp hfound
    obtain ⟨step, hstep⟩ := exists_step_of_slot hslot
    have hshown : OnClock slot := hcandidate ▸ onClock_wrapped _
    -- the slot is on the clock, so the first minute is, and the window does not wrap
    have hfits : firstMinute time + searchLimit ≤ lastMinute := by
      by_contra hbehind
      have hcount := hlooks.overflow htime clock (not_le.mp hbehind)
      rw [hstep, hcount] at hshown
      unfold OnClock lastMinute nanosecondsPerMinute at hshown
      omega
    refine ⟨hfits, slot, hslot, ?_⟩
    have hlast := hlooks steps le_rfl
    rwa [← hcandidate, searchEnd_eq_windowEnd htime hfits] at hlast
  · rintro ⟨hfits, hslots⟩
    obtain ⟨slot, hleast, hend⟩ := exists_least_slot hslots
    exact ⟨slot, hleast.1, nextAfter_of_least hparse htime clock hfits hleast hend⟩

/-- A schedule with later slots has a next one exactly when the window ends on the clock and is
reached by one of the days it accepts. -/
theorem window_long_enough_iff (hparse : parse expression = .ok schedule) (htime : 0 ≤ time)
    (clock : OnClock time) :
    ((slotsAfter expression time).Nonempty →
      ∃ slot ∈ slotsAfter expression time, schedule.nextAfter time = some slot) ↔
      ((∃ day, schedule.acceptsDay day = true) → firstMinute time + searchLimit ≤ lastMinute ∧
        ∃ day, schedule.acceptsDay day = true ∧ schedule.Reaches time day) := by
  rw [slotsAfter_nonempty_iff hparse htime, exists_nextAfter_iff hparse htime clock]

/-- On the day before the Monday that 2035 begins with, the next such Monday is found. -/
theorem window_long_enough_iff_newYear :
    ∃ slot ∈ slotsAfter newYearMonday (23740 * 86400000000000),
      nextAfter ⟨[[0], [0], [1], [1], [1]]⟩ (23740 * 86400000000000) = some slot := by
  have hday : acceptsDay ⟨[[0], [0], [1], [1], [1]]⟩ 23741 = true := by decide
  refine (window_long_enough_iff parse_newYearMonday (by decide) (by decide)).mpr
    (fun _ => ⟨by decide, 23741, hday, .inl (by decide)⟩) ?_
  exact (slotsAfter_nonempty_iff parse_newYearMonday (by decide)).mpr ⟨23741, hday⟩

/-- Where the day of the week is free the window is long enough while it ends on the clock. -/
theorem window_long_enough_of_any_weekDay (hparse : parse expression = .ok schedule)
    (htime : 0 ≤ time) (clock : OnClock time)
    (hfits : firstMinute time + searchLimit ≤ lastMinute)
    (hfree : (expressionFields expression)[4]? = some (text "*")) :
    (slotsAfter expression time).Nonempty →
      ∃ slot ∈ slotsAfter expression time, schedule.nextAfter time = some slot := by
  obtain ⟨minuteField, hourField, dayField, monthField, weekDayField, hfields, minutes, hours, days,
    months, weekDays, hvalues, -, -, -, -, -, -, hweekDays⟩ := parse_eq_ok hparse
  have hstar : weekDayField = text "*" := by
    rw [hfields] at hfree
    exact Option.some.inj hfree
  have hweek : ∀ day, (weekDays.any fun value => (value : ℤ) == weekday day) = true := by
    intro day
    have hrange : 0 ≤ weekday day ∧ weekday day ≤ 6 := by
      unfold weekday
      omega
    have hmem : (weekday day).toNat ∈ weekDays :=
      (hweekDays _).mpr ⟨by omega, by omega, .inl hstar⟩
    simp only [List.any_eq_true, beq_iff_eq]
    exact ⟨_, hmem, by omega⟩
  rw [window_long_enough_iff hparse htime clock]
  rintro ⟨day, hday⟩
  obtain ⟨later, hlow, hhigh, hmonth, hdate⟩ :=
    exists_anniversary (firstMinute time / minutesPerDay) day
  refine ⟨hfits, later, ?_, .inl ⟨hlow, hhigh⟩⟩
  simp only [acceptsDay, hvalues, List.drop_succ_cons, List.drop_zero, List.zip_cons_cons,
    List.zip_nil_right, List.all_cons, List.all_nil, hweek, hmonth, hdate] at hday ⊢
  exact hday

/-- The days that New Year on a Monday accepts begin a year. -/
theorem acceptsDay_newYearMonday {day : ℤ}
    (h : acceptsDay ⟨[[0], [0], [1], [1], [1]]⟩ day = true) :
    ∃ year, day = daysFromCivil year 1 1 ∧ weekday day = 1 := by
  simp only [acceptsDay, List.drop_succ_cons, List.drop_zero, List.zip_cons_cons,
    List.zip_nil_right, List.all_cons, List.all_nil, List.any_cons, List.any_nil, Bool.or_false,
    Bool.and_true, Bool.and_eq_true, beq_iff_eq] at h
  obtain ⟨hday, hmonth, hweekDay⟩ := h
  have hcount := daysFromCivil_civilFromDays day
  rw [← hday, ← hmonth] at hcount
  exact ⟨_, hcount.symm, hweekDay.symm⟩

/-- Behind the Monday that 2035 begins with, the window holds no such Monday. -/
theorem not_acceptsDay_newYearMonday {day : ℤ} (hlow : 23741 < day) (hhigh : day ≤ 23741 + 2928) :
    ¬acceptsDay ⟨[[0], [0], [1], [1], [1]]⟩ day = true := by
  intro h
  obtain ⟨year, rfl, hweekDay⟩ := acceptsDay_newYearMonday h
  have hyear : 2034 ≤ year ∧ year ≤ 2044 := by
    rw [daysFromCivil_newYear, marchStart_eq] at hlow hhigh
    omega
  obtain ⟨hfirst, hlast⟩ := hyear
  by_cases hstart : year = 2035
  · subst hstart
    exact absurd hlow (by decide)
  · clear hlow hhigh
    interval_cases year
    all_goals first
      | exact hstart rfl
      | exact absurd hweekDay (by decide)

/-- From the Monday that 2035 begins with, the window holds no such Monday. -/
theorem newYearMonday_none :
    nextAfter ⟨[[0], [0], [1], [1], [1]]⟩ (23741 * 86400000000000) = none := by
  have hsearch : SearchFits newYearMonday ⟨[[0], [0], [1], [1], [1]]⟩ (23741 * 86400000000000) :=
    .inl (by decide)
  refine ((next_slot_least_iff parse_newYearMonday (by decide) (by decide)).mpr hsearch).2.mpr ?_
  by_contra hslots
  push Not at hslots
  obtain ⟨day, hday, hreaches⟩ := (exists_slot_iff parse_newYearMonday (by decide)).mp hslots
  have hfirst : firstMinute (23741 * 86400000000000) = 23741 * 1440 + 1 := by decide
  unfold Reaches at hreaches
  rw [hfirst] at hreaches
  unfold minutesPerDay windowDays at hreaches
  rcases hreaches with ⟨hlow, hhigh⟩ | ⟨rfl, minute, hlow, hhigh, hminute⟩ | ⟨rfl, -⟩
  · exact not_acceptsDay_newYearMonday (by omega) (by omega) hday
  · simp only [acceptsTime, List.take_succ_cons, List.take_zero, List.zip_cons_cons,
      List.zip_nil_right, List.all_cons, List.all_nil, List.any_cons, List.any_nil, Bool.or_false,
      Bool.and_true, Bool.and_eq_true, beq_iff_eq] at hminute
    omega
  · exact not_acceptsDay_newYearMonday (by decide) (by decide) hday

/-- From the Monday that 2035 begins with, the next such Monday is eleven years off. -/
theorem not_window_long_enough :
    (slotsAfter newYearMonday (23741 * 86400000000000)).Nonempty ∧
      ¬∃ slot, nextAfter ⟨[[0], [0], [1], [1], [1]]⟩ (23741 * 86400000000000) = some slot := by
  refine ⟨(slotsAfter_nonempty_iff parse_newYearMonday (by decide)).mpr ⟨27759, by decide⟩, ?_⟩
  rintro ⟨slot, hslot⟩
  cases newYearMonday_none.symm.trans hslot

end CronSchedule

end LabBridge.Core
