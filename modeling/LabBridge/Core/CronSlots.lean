import LabBridge.Core.CronFields
import Mathlib.Order.Bounds.Basic
import Mathlib.Tactic.Ring

/-!
# The next slot of a schedule and the window it is searched in

The search steps through the minutes behind a time and stops at the first one that is accepted,
so it finds the least slot when the window reaches it, as long as the window ends on the clock. The
clock has 64 bits: a window that ends behind the last minute of the clock wraps around, and the
search ends at once; a search that wraps itself starts again from the beginning of the clock.
-/

namespace LabBridge.Core

open ByteText CivilTime

namespace CronSchedule

variable {schedule : CronSchedule} {time : ℤ}

/-- The count of the last whole minute of the clock. -/
def lastMinute : ℤ := 153722867

/-- The first minute behind a time, counted from the epoch. -/
def firstMinute (time : ℤ) : ℤ := time / nanosecondsPerMinute + 1

/-- The last instant of the window behind a time, whether the clock can show it or not. -/
def windowEnd (time : ℤ) : ℤ := (firstMinute time + searchLimit) * nanosecondsPerMinute

/-- The candidate of a search after some steps. -/
def candidateAt (time : ℤ) (step : ℕ) : ℤ :=
  wrapped ((firstMinute time + step) * nanosecondsPerMinute)

/-- A search that accepts nothing before looks at a candidate: none so far is behind its end. -/
def LooksAt (time : ℤ) (step : ℕ) : Prop :=
  ∀ earlier ≤ step, candidateAt time earlier ≤ searchEnd time

/-- The minute behind a time since the epoch by its count. -/
theorem nextMinute_eq (h : 0 ≤ time) :
    nextMinute time = wrapped (firstMinute time * nanosecondsPerMinute) := by
  have hseconds : 0 ≤ time / 1000000000 := Int.ediv_nonneg h (by decide)
  have hcount : time / 1000000000 / 60 = time / 60000000000 := by omega
  simp only [nextMinute, firstMinute, nanosecondsPerSecond, nanosecondsPerMinute,
    Int.tdiv_eq_ediv_of_nonneg h, if_pos hseconds, Int.tdiv_eq_ediv_of_nonneg hseconds, hcount]

/-- The end of a search is the end of the window, wrapped. -/
theorem searchEnd_eq (h : 0 ≤ time) : searchEnd time = wrapped (windowEnd time) := by
  rw [searchEnd, nextMinute_eq h, wrapped_add, windowEnd, add_mul]

/-- The candidate behind another one. -/
theorem wrapped_next (count : ℤ) :
    wrapped (wrapped (count * nanosecondsPerMinute) + nanosecondsPerMinute) =
      wrapped ((count + 1) * nanosecondsPerMinute) := by
  rw [wrapped_add]
  ring_nf

/-- A search finds nothing when it accepts none of the candidates that it looks at. -/
theorem searchFrom_eq_none_iff {stop : ℤ} (fuel : ℕ) : ∀ count : ℤ,
    schedule.searchFrom stop fuel (wrapped (count * nanosecondsPerMinute)) = none ↔
      ∀ step < fuel, (∀ earlier : ℕ, earlier ≤ step →
          wrapped ((count + earlier) * nanosecondsPerMinute) ≤ stop) →
        schedule.accepts (wrapped ((count + step) * nanosecondsPerMinute)) = false := by
  induction fuel with
  | zero => simp [searchFrom]
  | succ fuel ih =>
    intro count
    have hcount : ∀ step : ℕ, count + 1 + step = count + (step + 1 : ℕ) := fun step => by
      push_cast
      ring
    rw [searchFrom]
    by_cases hstop : wrapped (count * nanosecondsPerMinute) ≤ stop
    · rw [if_pos hstop]
      by_cases haccepts : schedule.accepts (wrapped (count * nanosecondsPerMinute)) = true
      · rw [if_pos haccepts]
        constructor
        · intro h
          cases h
        · intro h
          have hfirst := h 0 (Nat.succ_pos fuel) fun earlier hearlier => by
            rw [Nat.le_zero.mp hearlier]
            simpa using hstop
          simp [haccepts] at hfirst
      · rw [if_neg haccepts, wrapped_next, ih]
        simp only [hcount]
        constructor
        · intro h step hstep hlooks
          cases step with
          | zero => simpa using haccepts
          | succ step =>
            exact h step (by omega) fun earlier hearlier => hlooks (earlier + 1) (by omega)
        · intro h step hstep hlooks
          refine h (step + 1) (by omega) fun earlier hearlier => ?_
          cases earlier with
          | zero => simpa using hstop
          | succ earlier => exact hlooks earlier (by omega)
    · rw [if_neg hstop]
      constructor
      · intro _ step _ hlooks
        exact absurd (by simpa using hlooks 0 (Nat.zero_le step)) hstop
      · exact fun _ => rfl

/-- A search finds the first candidate it accepts of those that it looks at. -/
theorem searchFrom_eq_some_iff {stop found : ℤ} (fuel : ℕ) : ∀ count : ℤ,
    schedule.searchFrom stop fuel (wrapped (count * nanosecondsPerMinute)) = some found ↔
      ∃ steps < fuel, (∀ earlier : ℕ, earlier ≤ steps →
          wrapped ((count + earlier) * nanosecondsPerMinute) ≤ stop) ∧
        found = wrapped ((count + steps) * nanosecondsPerMinute) ∧
        schedule.accepts found = true ∧ ∀ step < steps,
          schedule.accepts (wrapped ((count + step) * nanosecondsPerMinute)) = false := by
  induction fuel with
  | zero => simp [searchFrom]
  | succ fuel ih =>
    intro count
    have hcount : ∀ step : ℕ, count + 1 + step = count + (step + 1 : ℕ) := fun step => by
      push_cast
      ring
    rw [searchFrom]
    by_cases hstop : wrapped (count * nanosecondsPerMinute) ≤ stop
    · rw [if_pos hstop]
      by_cases haccepts : schedule.accepts (wrapped (count * nanosecondsPerMinute)) = true
      · rw [if_pos haccepts, Option.some.injEq]
        constructor
        · rintro rfl
          refine ⟨0, Nat.succ_pos fuel, fun earlier hearlier => ?_, by simp, haccepts, by simp⟩
          rw [Nat.le_zero.mp hearlier]
          simpa using hstop
        · rintro ⟨steps, -, -, rfl, -, hearlier⟩
          cases steps with
          | zero => simp
          | succ steps =>
            have hfirst := hearlier 0 (Nat.succ_pos steps)
            simp [haccepts] at hfirst
      · rw [if_neg haccepts, wrapped_next, ih]
        simp only [hcount]
        constructor
        · rintro ⟨steps, hsteps, hlooks, rfl, hfound, hearlier⟩
          refine ⟨steps + 1, by omega, fun earlier hle => ?_, rfl, hfound, fun step hstep => ?_⟩
          · cases earlier with
            | zero => simpa using hstop
            | succ earlier => exact hlooks earlier (by omega)
          · cases step with
            | zero => simpa using haccepts
            | succ step => exact hearlier step (by omega)
        · rintro ⟨steps, hsteps, hlooks, rfl, hfound, hearlier⟩
          cases steps with
          | zero => simp [haccepts] at hfound
          | succ steps => exact ⟨steps, by omega, fun earlier hle => hlooks (earlier + 1) (by omega),
              rfl, hfound, fun step hstep => hearlier (step + 1) (by omega)⟩
    · rw [if_neg hstop]
      constructor
      · intro h
        cases h
      · rintro ⟨steps, -, hlooks, -⟩
        exact absurd (by simpa using hlooks 0 (Nat.zero_le steps)) hstop

/-- The first minute behind a time of the clock is at most one behind the last minute. -/
theorem firstMinute_range (h : 0 ≤ time) (clock : OnClock time) :
    1 ≤ firstMinute time ∧ firstMinute time ≤ lastMinute + 1 := by
  unfold OnClock at clock
  unfold firstMinute lastMinute nanosecondsPerMinute
  omega

/-- A candidate up to the last minute of the clock is the minute that it counts. -/
theorem candidateAt_eq (htime : 0 ≤ time) {step : ℕ} (h : firstMinute time + step ≤ lastMinute) :
    candidateAt time step = (firstMinute time + step) * nanosecondsPerMinute := by
  apply wrapped_eq_self
  unfold OnClock
  unfold firstMinute lastMinute nanosecondsPerMinute at *
  omega

/-- A window that ends by the last minute of the clock ends where the search does. -/
theorem searchEnd_eq_windowEnd (htime : 0 ≤ time)
    (h : firstMinute time + searchLimit ≤ lastMinute) : searchEnd time = windowEnd time := by
  rw [searchEnd_eq htime]
  apply wrapped_eq_self
  have hlimit : (searchLimit : ℤ) = 4216320 := rfl
  rw [hlimit] at h
  unfold OnClock windowEnd
  rw [hlimit]
  unfold firstMinute lastMinute nanosecondsPerMinute at *
  omega

/-- A window that ends behind the clock wraps, and the search has ended before its first minute. -/
theorem searchEnd_of_overflow (htime : 0 ≤ time) (clock : OnClock time)
    (h : lastMinute < firstMinute time + searchLimit) :
    searchEnd time = windowEnd time - 2 ^ 64 := by
  obtain ⟨hlow, hhigh⟩ := firstMinute_range htime clock
  rw [searchEnd_eq htime]
  have hlimit : (searchLimit : ℤ) = 4216320 := rfl
  unfold windowEnd
  rw [hlimit] at h ⊢
  unfold lastMinute at h hhigh
  apply wrapped_of_overflow <;> unfold nanosecondsPerMinute <;> omega

/-- The search of a window that ends behind the clock looks at no minute of the clock. -/
theorem LooksAt.overflow (htime : 0 ≤ time) (clock : OnClock time) {step : ℕ}
    (h : LooksAt time step) (hbehind : lastMinute < firstMinute time + searchLimit) :
    firstMinute time = lastMinute + 1 := by
  obtain ⟨hlow, hhigh⟩ := firstMinute_range htime clock
  by_contra hne
  have hfirst := h 0 (Nat.zero_le step)
  rw [candidateAt_eq htime (by push_cast; omega), searchEnd_of_overflow htime clock hbehind] at hfirst
  have hlimit : (searchLimit : ℤ) = 4216320 := rfl
  unfold windowEnd nanosecondsPerMinute at hfirst
  rw [hlimit] at hfirst
  push_cast at hfirst
  omega

/-- A window that ends before the last minute of the clock is not left. -/
theorem LooksAt.le_searchLimit (htime : 0 ≤ time)
    (hfits : firstMinute time + searchLimit < lastMinute) {step : ℕ} (h : LooksAt time step) :
    step ≤ searchLimit := by
  by_contra hbehind
  have hlast := h (searchLimit + 1) (by omega)
  have hclock : firstMinute time + (searchLimit + 1 : ℕ) ≤ lastMinute := by
    push_cast
    omega
  rw [candidateAt_eq htime hclock, searchEnd_eq_windowEnd htime hfits.le, windowEnd] at hlast
  have hcount := le_of_mul_le_mul_right hlast (by decide)
  push_cast at hcount
  omega

/-- Every search ends before it runs out of candidates: behind its window, at once, or, where it
wraps, at the last minute of the clock that lies behind its end. -/
theorem LooksAt.lt_searchFuel (htime : 0 ≤ time) (clock : OnClock time) {step : ℕ}
    (h : LooksAt time step) : step < searchFuel := by
  by_contra hlong
  have hfuel : 2 ^ 31 ≤ step := not_lt.mp hlong
  have hlimit : (searchLimit : ℤ) = 4216320 := rfl
  have hend : searchEnd time = wrapped ((firstMinute time + 4216320) * nanosecondsPerMinute) :=
    searchEnd_eq htime
  rcases lt_trichotomy (firstMinute time + searchLimit) lastMinute with hlt | heq | hgt
  · have hstep : step ≤ 4216320 := h.le_searchLimit htime hlt
    omega
  · have hfifth := h 1541444993 (by omega)
    have hcount : firstMinute time = 149506547 := by
      rw [hlimit] at heq
      unfold lastMinute at heq
      omega
    rw [hend, candidateAt, hcount] at hfifth
    exact absurd hfifth (by decide)
  · have hbehind := h 4216321 (by omega)
    rw [hend, candidateAt, h.overflow htime clock hgt] at hbehind
    exact absurd hbehind (by decide)

/-- The next slot is missing when nothing that the search looks at is accepted. -/
theorem nextAfter_eq_none_iff (htime : 0 ≤ time) (clock : OnClock time) :
    schedule.nextAfter time = none ↔
      ∀ step, LooksAt time step → schedule.accepts (candidateAt time step) = false := by
  rw [nextAfter, nextMinute_eq htime, searchFrom_eq_none_iff]
  constructor
  · intro h step hlooks
    exact h step (hlooks.lt_searchFuel htime clock) hlooks
  · intro h step _ hlooks
    exact h step hlooks

/-- The next slot is the first candidate that is accepted. -/
theorem nextAfter_eq_some_iff (htime : 0 ≤ time) (clock : OnClock time) {found : ℤ} :
    schedule.nextAfter time = some found ↔ ∃ steps, LooksAt time steps ∧
      found = candidateAt time steps ∧ schedule.accepts found = true ∧
      ∀ step < steps, schedule.accepts (candidateAt time step) = false := by
  rw [nextAfter, nextMinute_eq htime, searchFrom_eq_some_iff]
  constructor
  · rintro ⟨steps, -, hlooks, hrest⟩
    exact ⟨steps, hlooks, hrest⟩
  · rintro ⟨steps, hlooks, hrest⟩
    exact ⟨steps, hlooks.lt_searchFuel htime clock, hlooks, hrest⟩

/-- A minute of the clock that the search looks at lies in the window. -/
theorem LooksAt.le_windowEnd (htime : 0 ≤ time) {step : ℕ} (h : LooksAt time step)
    (hclock : firstMinute time + step ≤ lastMinute) :
    (firstMinute time + step) * nanosecondsPerMinute ≤ windowEnd time := by
  have hlast := h step le_rfl
  rw [candidateAt_eq htime hclock, searchEnd_eq htime] at hlast
  refine hlast.trans (wrapped_le ?_)
  unfold windowEnd firstMinute nanosecondsPerMinute
  omega

end CronSchedule

/-- The slots of an expression behind a time. -/
def slotsAfter (expression : Bytes) (time : ℤ) : Set ℤ :=
  {slot | time < slot ∧ ExpressionAccepts expression slot}

variable {expression : Bytes} {schedule : CronSchedule} {time slot : ℤ}

open CronSchedule

/-- A slot is a whole minute. -/
theorem ExpressionAccepts.whole (h : ExpressionAccepts expression slot) :
    ∃ count : ℤ, slot = count * nanosecondsPerMinute := by
  obtain ⟨year, month, day, hour, minute, weekDay, hminute, -⟩ := h
  exact ⟨_, hminute.time_eq⟩

/-- A slot behind a time is counted from its first minute. -/
theorem exists_step_of_slot (h : slot ∈ slotsAfter expression time) :
    ∃ step : ℕ, slot = (firstMinute time + step) * nanosecondsPerMinute := by
  obtain ⟨count, rfl⟩ := h.2.whole
  have hlater : time < count * 60000000000 := h.1
  refine ⟨(count - (time / 60000000000 + 1)).toNat, ?_⟩
  unfold firstMinute nanosecondsPerMinute
  omega

/-- A minute behind a time is accepted when it is a slot. -/
theorem accepts_minute_iff (hparse : CronSchedule.parse expression = .ok schedule)
    (htime : 0 ≤ time) (step : ℕ) :
    schedule.accepts ((firstMinute time + step) * nanosecondsPerMinute) = true ↔
      (firstMinute time + step) * nanosecondsPerMinute ∈ slotsAfter expression time := by
  have hlater : time < (time / 60000000000 + 1 + step) * 60000000000 := by omega
  have hnonneg : 0 ≤ firstMinute time + step := by
    unfold firstMinute nanosecondsPerMinute
    omega
  rw [accepts_iff hparse hnonneg]
  constructor
  · intro h
    exact ⟨hlater, h⟩
  · intro h
    exact h.2

/-- Some slot in the window is the least one. -/
theorem exists_least_slot {last : ℤ} (h : ∃ slot ∈ slotsAfter expression time, slot ≤ last) :
    ∃ slot, IsLeast (slotsAfter expression time) slot ∧ slot ≤ last := by
  classical
  obtain ⟨slot, hslot, hlast⟩ := h
  obtain ⟨step, rfl⟩ := exists_step_of_slot hslot
  have hsome : ∃ step : ℕ,
      (firstMinute time + step) * nanosecondsPerMinute ∈ slotsAfter expression time := ⟨step, hslot⟩
  have hle : ∀ {left right : ℕ}, left ≤ right →
      (firstMinute time + left) * nanosecondsPerMinute ≤
        (firstMinute time + right) * nanosecondsPerMinute := by
    intro left right hle
    unfold nanosecondsPerMinute
    omega
  refine ⟨_, ⟨Nat.find_spec hsome, ?_⟩, (hle (Nat.find_min' hsome hslot)).trans hlast⟩
  intro other hother
  obtain ⟨otherStep, rfl⟩ := exists_step_of_slot hother
  exact hle (Nat.find_min' hsome hother)

/-- The least slot of a window that ends on the clock is found. -/
theorem nextAfter_of_least (hparse : CronSchedule.parse expression = .ok schedule)
    (htime : 0 ≤ time) (clock : OnClock time)
    (hfits : firstMinute time + searchLimit ≤ lastMinute)
    (hleast : IsLeast (slotsAfter expression time) slot) (hend : slot ≤ windowEnd time) :
    schedule.nextAfter time = some slot := by
  obtain ⟨steps, rfl⟩ := exists_step_of_slot hleast.1
  have hsteps : steps ≤ searchLimit := by
    have hcount := le_of_mul_le_mul_right hend (by decide)
    omega
  have hcandidate : ∀ step ≤ steps,
      candidateAt time step = (firstMinute time + step) * nanosecondsPerMinute :=
    fun step hstep => candidateAt_eq htime (by omega)
  refine (nextAfter_eq_some_iff htime clock).mpr ⟨steps, fun earlier hearlier => ?_,
    (hcandidate steps le_rfl).symm, (accepts_minute_iff hparse htime steps).mpr hleast.1,
    fun step hstep => ?_⟩
  · rw [hcandidate earlier hearlier, searchEnd_eq_windowEnd htime hfits]
    refine le_trans ?_ hend
    unfold nanosecondsPerMinute
    omega
  · rw [hcandidate step hstep.le, ← Bool.not_eq_true, accepts_minute_iff hparse htime]
    intro hother
    have hbefore := le_of_mul_le_mul_right (hleast.2 hother) (by decide)
    omega

/-- Nothing is found where the window holds no slot and no candidate behind the clock is
accepted. -/
theorem nextAfter_of_none (hparse : CronSchedule.parse expression = .ok schedule)
    (htime : 0 ≤ time) (clock : OnClock time)
    (hempty : ∀ slot ∈ slotsAfter expression time, windowEnd time < slot)
    (hwrapped : ∀ step : ℕ, LooksAt time step → lastMinute < firstMinute time + step →
      schedule.accepts (candidateAt time step) = false) :
    schedule.nextAfter time = none := by
  rw [nextAfter_eq_none_iff htime clock]
  intro step hlooks
  by_cases hclock : firstMinute time + step ≤ lastMinute
  · rw [candidateAt_eq htime hclock, ← Bool.not_eq_true, accepts_minute_iff hparse htime]
    intro hslot
    exact not_lt.mpr (hlooks.le_windowEnd htime hclock) (hempty _ hslot)
  · exact hwrapped step hlooks (not_le.mp hclock)

/-- The next slot is the least one of the calendar when the window reaches it, and there is none
only when the window holds no slot. -/
def NextSlotIsLeast (expression : Bytes) (schedule : CronSchedule) (time : ℤ) : Prop :=
  (∀ slot, schedule.nextAfter time = some slot ↔
    IsLeast (slotsAfter expression time) slot ∧ slot ≤ windowEnd time) ∧
  (schedule.nextAfter time = none ↔ ∀ slot ∈ slotsAfter expression time, windowEnd time < slot)

/-- A search whose result the end of the clock does not touch: the window ends before the last
minute of the clock, or in that minute with a slot in it, or it holds no slot and the search looks
at no accepted candidate behind the clock. -/
def SearchFits (expression : Bytes) (schedule : CronSchedule) (time : ℤ) : Prop :=
  firstMinute time + searchLimit < lastMinute ∨
    firstMinute time + searchLimit = lastMinute ∧
      (∃ slot ∈ slotsAfter expression time, slot ≤ windowEnd time) ∨
    (∀ slot ∈ slotsAfter expression time, windowEnd time < slot) ∧
      ∀ step : ℕ, LooksAt time step → lastMinute < firstMinute time + step →
        schedule.accepts (candidateAt time step) = false

/-- What is found is the least slot of the window. -/
theorem nextSlotIsLeast_of_some (hleast : IsLeast (slotsAfter expression time) slot)
    (hend : slot ≤ windowEnd time) (hfound : schedule.nextAfter time = some slot) :
    NextSlotIsLeast expression schedule time := by
  refine ⟨fun other => ?_, ?_⟩
  · rw [hfound, Option.some.injEq]
    constructor
    · rintro rfl
      exact ⟨hleast, hend⟩
    · rintro ⟨hother, -⟩
      exact hleast.unique hother
  · rw [hfound]
    constructor
    · intro h
      cases h
    · intro h
      exact absurd (h slot hleast.1) (not_lt.mpr hend)

/-- Nothing is found in an empty window. -/
theorem nextSlotIsLeast_of_none (hempty : ∀ slot ∈ slotsAfter expression time, windowEnd time < slot)
    (hfound : schedule.nextAfter time = none) : NextSlotIsLeast expression schedule time := by
  refine ⟨fun other => ?_, iff_of_true hfound hempty⟩
  rw [hfound]
  constructor
  · intro h
    cases h
  · rintro ⟨hother, hend⟩
    exact absurd (hempty other hother.1) (not_lt.mpr hend)

/-- The next slot is the least one exactly when the end of the clock does not touch the search. -/
theorem next_slot_least_iff (hparse : CronSchedule.parse expression = .ok schedule)
    (htime : 0 ≤ time) (clock : OnClock time) :
    NextSlotIsLeast expression schedule time ↔ SearchFits expression schedule time := by
  by_cases hslots : ∃ slot ∈ slotsAfter expression time, slot ≤ windowEnd time
  · obtain ⟨slot, hleast, hend⟩ := exists_least_slot hslots
    constructor
    · intro h
      -- the slot is on the clock, so the first minute is, and the window does not wrap
      obtain ⟨steps, hlooks, hslot, -⟩ :=
        (nextAfter_eq_some_iff htime clock).mp ((h.1 slot).mpr ⟨hleast, hend⟩)
      obtain ⟨step, hstep⟩ := exists_step_of_slot hleast.1
      have hshown : OnClock slot := hslot ▸ onClock_wrapped _
      have hfits : firstMinute time + searchLimit ≤ lastMinute := by
        by_contra hbehind
        have hcount := hlooks.overflow htime clock (not_le.mp hbehind)
        rw [hstep, hcount] at hshown
        unfold OnClock lastMinute nanosecondsPerMinute at hshown
        omega
      rcases hfits.lt_or_eq with hlt | heq
      · exact .inl hlt
      · exact .inr (.inl ⟨heq, hslots⟩)
    · intro h
      refine nextSlotIsLeast_of_some hleast hend
        (nextAfter_of_least hparse htime clock ?_ hleast hend)
      rcases h with hlt | ⟨heq, -⟩ | ⟨hempty, -⟩
      · exact hlt.le
      · exact heq.le
      · exact absurd (hempty slot hleast.1) (not_lt.mpr hend)
  · have hempty : ∀ slot ∈ slotsAfter expression time, windowEnd time < slot :=
      fun slot hslot => not_le.mp fun hle => hslots ⟨slot, hslot, hle⟩
    constructor
    · intro h
      exact .inr (.inr ⟨hempty, fun step hlooks _ =>
        (nextAfter_eq_none_iff htime clock).mp (h.2.mpr hempty) step hlooks⟩)
    · intro h
      refine nextSlotIsLeast_of_none hempty (nextAfter_of_none hparse htime clock hempty ?_)
      intro step hlooks hbehind
      rcases h with hlt | ⟨-, hsome⟩ | ⟨-, hwrapped⟩
      · have hstep := hlooks.le_searchLimit htime hlt
        omega
      · exact absurd hsome hslots
      · exact hwrapped step hlooks hbehind

/-- A time since the epoch with a minute behind it on the clock, and whose window does not end in
the last minute of the clock. -/
structure CronSchedule.Searchable (time : ℤ) : Prop where
  sinceEpoch : 0 ≤ time
  onClock : OnClock time
  shown : firstMinute time ≤ lastMinute
  ends : firstMinute time + searchLimit ≠ lastMinute

/-- A search behind such a time finds an accepted whole minute behind it, if anything. -/
theorem nextAfter_spec (h : Searchable time) (hfound : schedule.nextAfter time = some slot) :
    time < slot ∧ slot % nanosecondsPerMinute = 0 ∧ schedule.accepts slot = true ∧
      OnClock slot := by
  obtain ⟨htime, clock, hlast, hends⟩ := h
  obtain ⟨steps, hlooks, hslot, haccepts, -⟩ := (nextAfter_eq_some_iff htime clock).mp hfound
  have hshown : OnClock slot := hslot ▸ onClock_wrapped _
  have hsteps : firstMinute time + steps ≤ lastMinute := by
    rcases lt_or_gt_of_ne hends with hlt | hgt
    · have hstep := hlooks.le_searchLimit htime hlt
      omega
    · have hcount := hlooks.overflow htime clock hgt
      omega
  rw [candidateAt_eq htime hsteps] at hslot
  have hlater : time < (time / 60000000000 + 1 + steps) * 60000000000 := by omega
  exact ⟨hslot ▸ hlater, hslot ▸ Int.mul_emod_left _ _, haccepts, hshown⟩

/-- The first of January on a Monday. -/
def newYearMonday : Bytes := text "0 0 1 1 1"

theorem parse_newYearMonday :
    CronSchedule.parse newYearMonday = .ok ⟨[[0], [0], [1], [1], [1]]⟩ := rfl

theorem next_slot_least_iff_newYear :
    NextSlotIsLeast newYearMonday ⟨[[0], [0], [1], [1], [1]]⟩ 0 :=
  (next_slot_least_iff parse_newYearMonday (by decide) (by decide)).mpr (.inl (by decide))

/-- The schedule of every minute. -/
def everyMinute : CronSchedule :=
  ⟨[List.range 60, List.range 24, List.range' 1 31, List.range' 1 12, List.range 7]⟩

/-- Midnight of the first of May 2254. -/
def may2254 : ℤ := 8972553600 * nanosecondsPerSecond

/-- Every minute of 2254 matches, and no next slot is found. -/
theorem not_next_slot_least :
    CronSchedule.parse (text "* * * * *") = .ok everyMinute ∧ OnClock may2254 ∧
      ¬NextSlotIsLeast (text "* * * * *") everyMinute may2254 := by
  have hparse : CronSchedule.parse (text "* * * * *") = .ok everyMinute := by decide +kernel
  have hclock : OnClock may2254 := by decide
  have htime : 0 ≤ may2254 := by decide
  have hnone : everyMinute.nextAfter may2254 = none := by decide +kernel
  have haccepts : everyMinute.accepts
      ((firstMinute may2254 + (0 : ℕ)) * nanosecondsPerMinute) = true := by decide +kernel
  refine ⟨hparse, hclock, fun h => ?_⟩
  have hlate := h.2.mp hnone _ ((accepts_minute_iff hparse htime 0).mp haccepts)
  exact absurd hlate (by decide +kernel)

end LabBridge.Core
