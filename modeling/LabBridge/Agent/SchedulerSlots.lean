import Mathlib.Data.List.Induction
import Mathlib.Data.List.Nodup
import Mathlib.Tactic.FinCases
import LabBridge.Agent.TaskScheduler
import LabBridge.Core.CronSlots

/-!
# The slots of a task

An entry is sound when its schedule is the one of its configuration and its next slot is an
accepted minute behind the last dispatched one. Every event keeps the entries sound while its
clock reading is not so late that the search for a slot wraps around, and a configuration that
keeps a task keeps its last dispatched slot, so the slots of the task grow.
-/

namespace LabBridge.Agent

open ByteText LabBridge.Core CronSchedule

/-- What holds of every entry. -/
structure ScheduleEntry.Sound (entry : ScheduleEntry) : Prop where
  parsed : CronSchedule.parse entry.config.scheduleExpr = .ok entry.schedule
  whole : ∀ slot ∈ entry.nextSlot, slot % nanosecondsPerMinute = 0
  accepted : ∀ slot ∈ entry.nextSlot, entry.schedule.accepts slot = true
  sinceEpoch : ∀ slot ∈ entry.nextSlot, 0 ≤ slot
  onClock : ∀ slot ∈ entry.nextSlot, OnClock slot
  later : ∀ slot ∈ entry.nextSlot, ∀ last ∈ entry.lastDispatchedSlot, last < slot
  searchable : ∀ last ∈ entry.lastDispatchedSlot, Searchable last

/-- Searching the next slot behind a time that is not before the last slot makes an entry
sound. -/
theorem ScheduleEntry.sound_of_nextAfter {config : TaskConfig} {schedule : CronSchedule}
    {time : SystemTime} {lastDispatched : Option SystemTime}
    (parsed : CronSchedule.parse config.scheduleExpr = .ok schedule) (htime : Searchable time)
    (hlast : ∀ last ∈ lastDispatched, last ≤ time)
    (searchable : ∀ last ∈ lastDispatched, Searchable last) :
    (ScheduleEntry.mk config schedule (schedule.nextAfter time) lastDispatched).Sound where
  parsed
  whole := fun _ hslot => (nextAfter_spec htime hslot).2.1
  accepted := fun _ hslot => (nextAfter_spec htime hslot).2.2.1
  sinceEpoch := fun _ hslot => htime.sinceEpoch.trans (nextAfter_spec htime hslot).1.le
  onClock := fun _ hslot => (nextAfter_spec htime hslot).2.2.2
  later := fun _ hslot last h => lt_of_le_of_lt (hlast last h) (nextAfter_spec htime hslot).1
  searchable

/-- A time of a searchable minute is searchable. -/
theorem searchable_of_utcMinute {time other : ℤ} (h : Searchable time) (hother : 0 ≤ other)
    (hclock : OnClock other) (hminute : utcMinute other = utcMinute time) : Searchable other := by
  have hcount : firstMinute other = firstMinute time := by
    unfold utcMinute at hminute
    rw [Int.tdiv_eq_ediv_of_nonneg hother, Int.tdiv_eq_ediv_of_nonneg h.sinceEpoch] at hminute
    rw [firstMinute, hminute, firstMinute]
  exact ⟨hother, hclock, hcount ▸ h.shown, hcount ▸ h.ends⟩

/-- The minutes of times since the epoch follow their order. -/
theorem lt_of_utcMinute_lt {left right : ℤ} (hleft : 0 ≤ left) (hright : 0 ≤ right)
    (h : utcMinute left < utcMinute right) : left < right := by
  unfold utcMinute nanosecondsPerMinute at h
  rw [Int.tdiv_eq_ediv_of_nonneg hleft, Int.tdiv_eq_ediv_of_nonneg hright] at h
  omega

/-- The configurations that execute the same have the same id and schedule. -/
theorem sameExecutionConfig_fields {left right : TaskConfig}
    (h : sameExecutionConfig left right = true) :
    left.id = right.id ∧ left.scheduleExpr = right.scheduleExpr := by
  simp only [sameExecutionConfig, Bool.and_eq_true, beq_iff_eq] at h
  tauto

section Entries

variable {entry : ScheduleEntry} {now : SystemTime}

/-- A skipped slot leaves an entry sound. -/
theorem ScheduleEntry.Sound.skipMissed (sound : entry.Sound) (hnow : Searchable now) :
    (entry.skipMissed now).Sound := by
  unfold ScheduleEntry.skipMissed
  cases hslot : entry.nextSlot with
  | none => exact sound
  | some slot =>
    by_cases hmissed : utcMinute slot < utcMinute now
    · have hpast := lt_of_utcMinute_lt (sound.sinceEpoch slot hslot) hnow.sinceEpoch hmissed
      simp only [if_pos hmissed]
      refine ScheduleEntry.sound_of_nextAfter sound.parsed hnow ?_ sound.searchable
      intro last hlast
      exact ((sound.later slot hslot last hlast).trans hpast).le
    · simpa only [if_neg hmissed] using sound

/-- A passed slot leaves an entry sound. -/
theorem ScheduleEntry.Sound.skipPassed (sound : entry.Sound) (hnow : Searchable now) :
    (entry.skipPassed now).Sound := by
  unfold ScheduleEntry.skipPassed
  cases hslot : entry.nextSlot with
  | none => exact sound
  | some slot =>
    by_cases hpassed : slot ≤ now
    · simp only [if_pos hpassed]
      refine ScheduleEntry.sound_of_nextAfter sound.parsed hnow ?_ sound.searchable
      intro last hlast
      exact (sound.later slot hslot last hlast).le.trans hpassed
    · simpa only [if_neg hpassed] using sound

/-- A dispatched slot leaves an entry sound. -/
theorem ScheduleEntry.Sound.dispatch (sound : entry.Sound) {execution : ScheduledTaskExecution}
    (hslot : Searchable execution.scheduledFor) : (entry.dispatch execution).Sound := by
  refine ScheduleEntry.sound_of_nextAfter sound.parsed hslot ?_ ?_
  · intro last hlast
    exact le_of_eq (Option.some.inj hlast).symm
  · intro last hlast
    exact Option.some.inj hlast ▸ hslot

/-- A new entry is sound. -/
theorem ScheduleEntry.sound_rebuilt {task : TaskConfig} {schedule : CronSchedule}
    {lastDispatched : Option SystemTime} (hnow : Searchable now)
    (searchable : ∀ last ∈ lastDispatched, Searchable last)
    (parsed : CronSchedule.parse task.scheduleExpr = .ok schedule) :
    (ScheduleEntry.rebuilt task schedule now lastDispatched).Sound := by
  cases lastDispatched with
  | none => exact ScheduleEntry.sound_of_nextAfter parsed hnow (by simp) searchable
  | some last =>
    by_cases hlast : now < last
    · simp only [rebuilt, if_pos hlast]
      exact ScheduleEntry.sound_of_nextAfter parsed (searchable last rfl) (by simp) searchable
    · simp only [rebuilt, if_neg hlast]
      exact ScheduleEntry.sound_of_nextAfter parsed hnow (by simpa using hlast) searchable

/-- The slot of an entry that is due, in the minute of the clock. -/
theorem ScheduleEntry.due_eq_some {execution : ScheduledTaskExecution}
    (h : entry.due now = some execution) :
    entry.nextSlot = some execution.scheduledFor ∧ execution.task = entry.config ∧
      utcMinute execution.scheduledFor = utcMinute now := by
  unfold ScheduleEntry.due at h
  cases hslot : entry.nextSlot with
  | none => simp [hslot] at h
  | some slot =>
    simp only [hslot] at h
    by_cases hdue : slot ≤ now ∧ utcMinute slot = utcMinute now
    · rw [if_pos hdue, Option.some.injEq] at h
      subst h
      exact ⟨rfl, rfl, hdue.2⟩
    · simp [if_neg hdue] at h

end Entries

/-- Whether a task is enabled and can be scheduled. -/
def schedulable (task : TaskConfig) : Bool :=
  task.enabled && !task.id.isEmpty && (CronSchedule.parse task.scheduleExpr).toOption.isSome

/-- The configuration that some tasks give one of them. -/
def deliveredTask (tasks : List TaskConfig) (taskId : Bytes) : Option TaskConfig :=
  tasks.find? fun task => schedulable task && task.id == taskId

section Configurations

variable (entries : List ScheduleEntry) (appliedAt : SystemTime)

/-- The entry that a task of a configuration gets. -/
def deliveredEntry (task : TaskConfig) : Option ScheduleEntry :=
  (CronSchedule.parse task.scheduleExpr).toOption.map (configuredEntry entries appliedAt task)

/-- An entry has the configuration of its task. -/
@[simp]
theorem configuredEntry_config (task : TaskConfig) (schedule : CronSchedule) :
    (configuredEntry entries appliedAt task schedule).config = task := by
  unfold configuredEntry
  split
  · split <;> rfl
  · rfl

/-- A task that can be scheduled gets an entry. -/
theorem deliveredEntry_of_schedulable {task : TaskConfig} (h : schedulable task = true) :
    ∃ schedule, CronSchedule.parse task.scheduleExpr = .ok schedule ∧
      deliveredEntry entries appliedAt task =
        some (configuredEntry entries appliedAt task schedule) := by
  unfold schedulable at h
  unfold deliveredEntry
  cases hschedule : CronSchedule.parse task.scheduleExpr with
  | error message => simp [hschedule, Except.toOption] at h
  | ok schedule => exact ⟨schedule, rfl, rfl⟩

/-- The entry of a task after another entry is added. -/
theorem findEntry_append (replacement : List ScheduleEntry) (entry : ScheduleEntry)
    (taskId : Bytes) : findEntry (replacement ++ [entry]) taskId =
      (findEntry replacement taskId).or (if entry.config.id == taskId then some entry else none) := by
  simp [findEntry, List.find?_append, List.find?_singleton]

/-- What a skipped or a configured task changes. -/
theorem findEntry_configureTask (replacement : List ScheduleEntry) (task : TaskConfig)
    (taskId : Bytes) : findEntry (configureTask entries appliedAt replacement task) taskId =
      (findEntry replacement taskId).or
        (if schedulable task && task.id == taskId then deliveredEntry entries appliedAt task
          else none) := by
  unfold configureTask deliveredEntry schedulable
  by_cases henabled : task.enabled = false
  · simp [henabled]
  by_cases hid : task.id = []
  · simp [hid]
  simp only [henabled, hid, false_or]
  cases hschedule : CronSchedule.parse task.scheduleExpr with
  | error message => simp [Except.toOption]
  | ok schedule =>
    by_cases hfound : (findEntry replacement task.id).isSome = true
    · by_cases hsame : task.id = taskId
      · subst hsame
        obtain ⟨entry, hentry⟩ := Option.isSome_iff_exists.mp hfound
        simp [hentry]
      · simp [hfound, hsame]
    · simp [hfound, findEntry_append, Except.toOption, hid]

/-- The entry of a task in the entries of a configuration. -/
theorem findEntry_replaceConfig (tasks : List TaskConfig) (taskId : Bytes) :
    ∀ replacement, findEntry (tasks.foldl (configureTask entries appliedAt) replacement) taskId =
      (findEntry replacement taskId).or
        ((deliveredTask tasks taskId).bind (deliveredEntry entries appliedAt)) := by
  induction tasks with
  | nil => simp [deliveredTask]
  | cons task tasks ih =>
    intro replacement
    rw [List.foldl_cons, ih, findEntry_configureTask, Option.or_assoc]
    congr 1
    unfold deliveredTask
    cases hdelivered : schedulable task && task.id == taskId with
    | true =>
      rw [List.find?_cons, hdelivered]
      obtain ⟨schedule, -, hentry⟩ := deliveredEntry_of_schedulable entries appliedAt
        (Bool.and_eq_true_iff.mp hdelivered).1
      simp [hentry]
    | false => simp [hdelivered]

end Configurations

/-- What holds of the entries of a scheduler. -/
structure SoundEntries (entries : List ScheduleEntry) : Prop where
  sound : ∀ entry ∈ entries, entry.Sound
  distinct : (entries.map (·.config.id)).Nodup

section Steps

variable {entries : List ScheduleEntry} {now : SystemTime}

/-- The entry of a task is one of the entries. -/
theorem mem_of_findEntry {entry : ScheduleEntry} {taskId : Bytes}
    (h : findEntry entries taskId = some entry) : entry ∈ entries ∧ entry.config.id = taskId :=
  ⟨List.mem_of_find?_eq_some h, by simpa using List.find?_some h⟩

/-- The entries of different tasks are found by their ids. -/
theorem SoundEntries.findEntry_eq (h : SoundEntries entries) {entry : ScheduleEntry}
    (hentry : entry ∈ entries) : findEntry entries entry.config.id = some entry := by
  cases hfound : findEntry entries entry.config.id with
  | none => simpa using List.find?_eq_none.mp hfound entry hentry
  | some found =>
    obtain ⟨hmem, hid⟩ := mem_of_findEntry hfound
    exact congrArg some (List.inj_on_of_nodup_map h.distinct hmem hentry hid)

/-- Changing the slots of entries changes the entry that is found. -/
theorem findEntry_map {change : ScheduleEntry → ScheduleEntry}
    (hconfig : ∀ entry, (change entry).config = entry.config) (taskId : Bytes) :
    findEntry (entries.map change) taskId = (findEntry entries taskId).map change := by
  simp only [findEntry, List.find?_map, Function.comp_def, hconfig]

/-- Changing the slots of entries soundly keeps them sound. -/
theorem SoundEntries.map {change : ScheduleEntry → ScheduleEntry} (h : SoundEntries entries)
    (hconfig : ∀ entry, (change entry).config = entry.config)
    (hsound : ∀ entry, entry.Sound → (change entry).Sound) :
    SoundEntries (entries.map change) where
  sound := by
    intro entry hentry
    obtain ⟨before, hbefore, rfl⟩ := List.mem_map.mp hentry
    exact hsound before (h.sound before hbefore)
  distinct := by simpa only [List.map_map, Function.comp_def, hconfig] using h.distinct

/-- Skipping a slot keeps the configuration. -/
@[simp]
theorem ScheduleEntry.skipMissed_config (entry : ScheduleEntry) :
    (entry.skipMissed now).config = entry.config := by
  unfold ScheduleEntry.skipMissed
  split
  · split <;> rfl
  · rfl

/-- Skipping a slot keeps the schedule. -/
@[simp]
theorem ScheduleEntry.skipMissed_schedule (entry : ScheduleEntry) :
    (entry.skipMissed now).schedule = entry.schedule := by
  unfold ScheduleEntry.skipMissed
  split
  · split <;> rfl
  · rfl

/-- Skipping a slot keeps the last dispatched one. -/
@[simp]
theorem ScheduleEntry.skipMissed_lastDispatchedSlot (entry : ScheduleEntry) :
    (entry.skipMissed now).lastDispatchedSlot = entry.lastDispatchedSlot := by
  unfold ScheduleEntry.skipMissed
  split
  · split <;> rfl
  · rfl

/-- Skipping a passed slot keeps the configuration. -/
@[simp]
theorem ScheduleEntry.skipPassed_config (entry : ScheduleEntry) :
    (entry.skipPassed now).config = entry.config := by
  unfold ScheduleEntry.skipPassed
  split
  · split <;> rfl
  · rfl

/-- Skipping a passed slot keeps the last dispatched one. -/
@[simp]
theorem ScheduleEntry.skipPassed_lastDispatchedSlot (entry : ScheduleEntry) :
    (entry.skipPassed now).lastDispatchedSlot = entry.lastDispatchedSlot := by
  unfold ScheduleEntry.skipPassed
  split
  · split <;> rfl
  · rfl

/-- A configured entry is sound. -/
theorem SoundEntries.configuredEntry (h : SoundEntries entries) (hnow : Searchable now)
    {task : TaskConfig} {schedule : CronSchedule}
    (parsed : CronSchedule.parse task.scheduleExpr = .ok schedule) :
    (configuredEntry entries now task schedule).Sound := by
  unfold LabBridge.Agent.configuredEntry
  cases hfound : findEntry entries task.id with
  | none => exact ScheduleEntry.sound_rebuilt hnow (by simp) parsed
  | some existing =>
    have hsound := h.sound existing (mem_of_findEntry hfound).1
    by_cases hsame : sameExecutionConfig existing.config task = true
    · have hexpr : existing.config.scheduleExpr = task.scheduleExpr :=
        (sameExecutionConfig_fields hsame).2
      simp only [if_pos hsame]
      exact ⟨hexpr ▸ hsound.parsed, hsound.whole, hsound.accepted, hsound.sinceEpoch,
        hsound.onClock, hsound.later, hsound.searchable⟩
    · simp only [if_neg hsame]
      exact ScheduleEntry.sound_rebuilt hnow hsound.searchable parsed

/-- Configuring one more task keeps the new entries sound. -/
theorem SoundEntries.configureTask {replacement : List ScheduleEntry} (h : SoundEntries entries)
    (hreplacement : SoundEntries replacement) (hnow : Searchable now) (task : TaskConfig) :
    SoundEntries (configureTask entries now replacement task) := by
  unfold LabBridge.Agent.configureTask
  split
  · exact hreplacement
  split
  · exact hreplacement
  · rename_i hnew
    cases hschedule : CronSchedule.parse task.scheduleExpr with
    | error message => exact hreplacement
    | ok schedule =>
      have hentry := h.configuredEntry hnow hschedule
      refine ⟨fun entry hmem => ?_, ?_⟩
      · rcases List.mem_append.mp hmem with hold | hadded
        · exact hreplacement.sound entry hold
        · rw [List.mem_singleton.mp hadded]
          exact hentry
      · have hfresh : ∀ entry ∈ replacement, entry.config.id ≠ task.id := by
          have hnone : findEntry replacement task.id = none := by
            simpa using (not_or.mp hnew).2
          simpa [findEntry] using hnone
        rw [List.map_append, List.nodup_append]
        refine ⟨hreplacement.distinct, by simp, ?_⟩
        intro left hleft right hright
        obtain ⟨entry, hmem, rfl⟩ := List.mem_map.mp hleft
        simp only [List.map_singleton, configuredEntry_config, List.mem_singleton] at hright
        exact hright ▸ hfresh entry hmem

/-- The entries of a configuration are sound. -/
theorem SoundEntries.replaceConfig (h : SoundEntries entries) (hnow : Searchable now)
    (tasks : List TaskConfig) : ∀ replacement, SoundEntries replacement →
      SoundEntries (tasks.foldl (LabBridge.Agent.configureTask entries now) replacement) := by
  induction tasks with
  | nil => exact fun _ hreplacement => hreplacement
  | cons task tasks ih =>
    intro replacement hreplacement
    exact ih _ (h.configureTask hreplacement hnow task)

end Steps

section Dispatches

variable {scheduler : TaskScheduler} {now : SystemTime}

/-- Where a selected slot comes from. -/
theorem TaskScheduler.mem_selectDue {execution : ScheduledTaskExecution} :
    execution ∈ scheduler.selectDue now ↔
      ∃ entry ∈ scheduler.entries, (entry.skipMissed now).due now = some execution := by
  simp [TaskScheduler.selectDue]

/-- An iteration selects at most one slot of a task. -/
theorem TaskScheduler.selectDue_distinct (h : SoundEntries scheduler.entries) :
    (scheduler.selectDue now).Pairwise fun left right => left.task.id ≠ right.task.id := by
  have hentries : scheduler.entries.Pairwise fun left right => left.config.id ≠ right.config.id :=
    List.pairwise_map.mp h.distinct
  have hdue : ((scheduler.entries.map (·.skipMissed now)).filterMap (·.due now)).Pairwise
      fun left right => left.task.id ≠ right.task.id := by
    rw [List.filterMap_map]
    apply List.Pairwise.filterMap _ _ hentries
    intro left right hne execution hexecution other hother
    have hleft := (ScheduleEntry.due_eq_some hexecution).2.1
    have hright := (ScheduleEntry.due_eq_some hother).2.1
    simpa [hleft, hright] using hne
  exact ((List.mergeSort_perm _ _).pairwise_iff fun hne => hne.symm).mpr hdue

/-- The selected slots of a task are the one that is selected. -/
theorem filter_eq_singleton {executions : List ScheduledTaskExecution}
    (distinct : executions.Pairwise fun left right => left.task.id ≠ right.task.id)
    {execution : ScheduledTaskExecution} (hmem : execution ∈ executions) :
    executions.filter (fun other => other.task.id == execution.task.id) = [execution] := by
  induction executions with
  | nil => simp at hmem
  | cons first rest ih =>
    rw [List.pairwise_cons] at distinct
    rcases List.mem_cons.mp hmem with rfl | hrest
    · have hnone : rest.filter (fun other => other.task.id == execution.task.id) = [] := by
        simpa using fun other hother => (distinct.1 other hother).symm
      simp [hnone]
    · simp [distinct.1 execution hrest, ih distinct.2 hrest]

/-- Dispatching a slot keeps the configuration. -/
@[simp]
theorem ScheduleEntry.dispatch_config (entry : ScheduleEntry)
    (execution : ScheduledTaskExecution) :
    (entry.dispatch execution).config = entry.config := rfl

/-- The entry of a task after some slots are dispatched. -/
theorem findEntry_dispatch (executions : List ScheduledTaskExecution) (taskId : Bytes) :
    ∀ entries, findEntry (executions.foldl dispatchEntry entries) taskId =
      (findEntry entries taskId).map fun entry =>
        (executions.filter (·.task.id == taskId)).foldl ScheduleEntry.dispatch entry := by
  induction executions with
  | nil => simp
  | cons execution executions ih =>
    intro entries
    have hstep : findEntry (dispatchEntry entries execution) taskId =
        (findEntry entries taskId).map fun entry =>
          if entry.config.id = execution.task.id then entry.dispatch execution else entry := by
      apply findEntry_map
      intro entry
      split <;> rfl
    rw [List.foldl_cons, ih, hstep, Option.map_map]
    apply Option.map_congr
    intro entry hentry
    have hid := (mem_of_findEntry hentry).2
    by_cases hsame : execution.task.id = taskId
    · simp [hid, hsame]
    · simp [hid, hsame, Ne.symm hsame]

/-- Dispatching slots keeps the configuration. -/
theorem ScheduleEntry.foldl_dispatch_config (executions : List ScheduledTaskExecution) :
    ∀ entry : ScheduleEntry, (executions.foldl ScheduleEntry.dispatch entry).config =
      entry.config := by
  induction executions with
  | nil => exact fun _ => rfl
  | cons execution executions ih => exact fun entry => ih (entry.dispatch execution)

/-- Dispatching slots keeps the entries sound. -/
theorem SoundEntries.dispatch {executions : List ScheduledTaskExecution}
    (hslots : ∀ execution ∈ executions, Searchable execution.scheduledFor) :
    ∀ entries, SoundEntries entries → SoundEntries (executions.foldl dispatchEntry entries) := by
  induction executions with
  | nil => exact fun _ h => h
  | cons execution executions ih =>
    intro entries h
    apply ih fun other hother => hslots other (List.mem_cons_of_mem _ hother)
    apply h.map
    · intro entry
      split <;> rfl
    · intro entry hentry
      split
      · exact hentry.dispatch (hslots execution List.mem_cons_self)
      · exact hentry

/-- A selected slot: the entry it belongs to, and where it lies. -/
theorem TaskScheduler.selectDue_spec (h : SoundEntries scheduler.entries) (hnow : Searchable now)
    {execution : ScheduledTaskExecution} (hexecution : execution ∈ scheduler.selectDue now) :
    ∃ entry, findEntry scheduler.entries execution.task.id = some entry ∧
      execution.task = entry.config ∧ Searchable execution.scheduledFor ∧
      entry.schedule.accepts execution.scheduledFor = true ∧
      utcMinute execution.scheduledFor = utcMinute now ∧
      ∀ last ∈ entry.lastDispatchedSlot, last < execution.scheduledFor := by
  obtain ⟨entry, hentry, hdue⟩ := TaskScheduler.mem_selectDue.mp hexecution
  obtain ⟨hslot, htask, hminute⟩ := ScheduleEntry.due_eq_some hdue
  have hsound := (h.sound entry hentry).skipMissed hnow
  rw [ScheduleEntry.skipMissed_config] at htask
  have haccepts := hsound.accepted _ hslot
  rw [ScheduleEntry.skipMissed_schedule] at haccepts
  have hsearchable := searchable_of_utcMinute hnow (hsound.sinceEpoch _ hslot)
    (hsound.onClock _ hslot) hminute
  exact ⟨entry, htask ▸ h.findEntry_eq hentry, htask, hsearchable, haccepts, hminute,
    by simpa using hsound.later _ hslot⟩

end Dispatches

/-- The last dispatched slot of a task. -/
def lastSlot (entries : List ScheduleEntry) (taskId : Bytes) : Option SystemTime :=
  (findEntry entries taskId).bind (·.lastDispatchedSlot)

/-- An entry has the last dispatched slot of its task. -/
theorem configuredEntry_lastDispatchedSlot (entries : List ScheduleEntry)
    (appliedAt : SystemTime) (task : TaskConfig) (schedule : CronSchedule) :
    (configuredEntry entries appliedAt task schedule).lastDispatchedSlot =
      lastSlot entries task.id := by
  unfold configuredEntry lastSlot
  cases findEntry entries task.id with
  | none => rfl
  | some existing =>
    by_cases hsame : sameExecutionConfig existing.config task = true
    · simp [hsame]
    · simp [hsame, ScheduleEntry.rebuilt]

/-- The clock reading of an event. -/
def SchedulerEvent.reading : SchedulerEvent → Option SystemTime
  | .replaceConfig appliedAt _ _ => some appliedAt
  | .iterate now => some now
  | .complete completedAt => some completedAt
  | _ => none

/-- Whether the clock of an event shows a time since the epoch. -/
def SchedulerEvent.SinceEpoch (event : SchedulerEvent) : Prop :=
  ∀ now ∈ event.reading, 0 ≤ now ∧ OnClock now

/-- Whether the clock of an event shows a time since the epoch whose search for a slot does not
reach behind the last minute of the clock. -/
def SchedulerEvent.Searchable (event : SchedulerEvent) : Prop :=
  ∀ now ∈ event.reading, CronSchedule.Searchable now

/-- Whether an event leaves a task configured, enabled and with a valid schedule. -/
def SchedulerEvent.Keeps (taskId : Bytes) : SchedulerEvent → Prop
  | .replaceConfig _ tasks _ => ∃ task ∈ tasks, schedulable task = true ∧ task.id = taskId
  | _ => True

/-- The configuration of a task after some events: the one of the last new configuration. -/
def configurationOf (taskId : Bytes) (events : List SchedulerEvent) : Option TaskConfig :=
  events.foldl (fun current event =>
    match event with
    | .replaceConfig _ tasks _ => deliveredTask tasks taskId
    | _ => current) none

namespace TaskScheduler

variable {scheduler : TaskScheduler} {event : SchedulerEvent} {taskId : Bytes}

/-- Every event keeps the entries sound. -/
theorem sound_after (h : SoundEntries scheduler.entries) (clock : event.Searchable) :
    SoundEntries (scheduler.after event).entries := by
  cases event with
  | replaceConfig appliedAt tasks pendingExecutions =>
    exact h.replaceConfig (clock appliedAt rfl) tasks [] ⟨by simp, by simp⟩
  | iterate now =>
    apply SoundEntries.dispatch
    · intro execution hexecution
      exact (selectDue_spec h (clock now rfl) hexecution).choose_spec.2.2.1
    · exact h.map (fun entry => entry.skipMissed_config) fun entry hentry =>
        hentry.skipMissed (clock now rfl)
  | complete completedAt =>
    exact h.map (fun entry => entry.skipPassed_config) fun entry hentry => hentry.skipPassed (clock completedAt rfl)
  | takePending => exact h
  | returnPending candidate => exact h

/-- The selected slots keep the entries sound along a run. -/
theorem sound_run {events : List SchedulerEvent} (clocks : ∀ event ∈ events, event.Searchable)
    (h : SoundEntries scheduler.entries) : SoundEntries (scheduler.run events).entries := by
  induction events generalizing scheduler with
  | nil => exact h
  | cons event events ih =>
    exact ih (fun other hother => clocks other (List.mem_cons_of_mem _ hother))
      (sound_after h (clocks event List.mem_cons_self))

/-- A new configuration gives its tasks their configurations. -/
theorem findEntry_configured {appliedAt : SystemTime} (tasks : List TaskConfig)
    {pendingExecutions : List PendingExecution} :
    (findEntry (scheduler.replaceConfig appliedAt tasks pendingExecutions).entries taskId).map
      (·.config) = deliveredTask tasks taskId := by
  simp only [replaceConfig, findEntry_replaceConfig]
  cases hdelivered : deliveredTask tasks taskId with
  | none => simp [findEntry]
  | some task =>
    have hschedulable : schedulable task = true := by
      have hfound := List.find?_some hdelivered
      exact (Bool.and_eq_true_iff.mp hfound).1
    obtain ⟨schedule, -, hentry⟩ :=
      deliveredEntry_of_schedulable scheduler.entries appliedAt hschedulable
    simp [findEntry, hentry]

/-- A new configuration keeps the last slot of a task that stays in it. -/
theorem lastSlot_configured {appliedAt : SystemTime} {tasks : List TaskConfig}
    {pendingExecutions : List PendingExecution}
    (hkeeps : ∃ task ∈ tasks, schedulable task = true ∧ task.id = taskId) :
    lastSlot (scheduler.replaceConfig appliedAt tasks pendingExecutions).entries taskId =
      lastSlot scheduler.entries taskId := by
  simp only [replaceConfig, lastSlot, findEntry_replaceConfig]
  cases hdelivered : deliveredTask tasks taskId with
  | none =>
    obtain ⟨task, hmem, hschedulable, hid⟩ := hkeeps
    simpa [hschedulable, hid] using List.find?_eq_none.mp hdelivered task hmem
  | some task =>
    have hfound := List.find?_some hdelivered
    rw [Bool.and_eq_true, beq_iff_eq] at hfound
    obtain ⟨schedule, -, hentry⟩ :=
      deliveredEntry_of_schedulable scheduler.entries appliedAt hfound.1
    have hlast := configuredEntry_lastDispatchedSlot scheduler.entries appliedAt task schedule
    simpa [findEntry, lastSlot, hentry, hfound.2] using hlast

/-- The entry of a task has the configuration of the last new configuration. -/
theorem findEntry_after (current : Option TaskConfig)
    (h : (findEntry scheduler.entries taskId).map (·.config) = current) :
    (findEntry (scheduler.after event).entries taskId).map (·.config) =
      match event with
      | .replaceConfig _ tasks _ => deliveredTask tasks taskId
      | _ => current := by
  cases event with
  | replaceConfig appliedAt tasks pendingExecutions =>
    exact findEntry_configured tasks
  | iterate now =>
    simp only [after, advance, findEntry_dispatch, findEntry_map ScheduleEntry.skipMissed_config,
      Option.map_map]
    rw [← h]
    apply Option.map_congr
    intro entry hentry
    exact (ScheduleEntry.foldl_dispatch_config _ _).trans entry.skipMissed_config
  | complete completedAt =>
    simp only [after, complete, findEntry_map ScheduleEntry.skipPassed_config, Option.map_map]
    rw [← h]
    apply Option.map_congr
    intro entry hentry
    exact entry.skipPassed_config
  | takePending => exact h
  | returnPending candidate => exact h

/-- The entry of a task along a run. -/
theorem findEntry_run (events : List SchedulerEvent) :
    (findEntry (start.run events).entries taskId).map (·.config) =
      configurationOf taskId events := by
  unfold run configurationOf
  induction events using List.reverseRecOn with
  | nil => rfl
  | append_singleton events event ih =>
    rw [List.foldl_append, List.foldl_append]
    exact findEntry_after _ ih

/-- An iteration that selects no slot of a task keeps its last one. -/
theorem lastSlot_advance_of_none {now : SystemTime}
    (hnone : (scheduler.selectDue now).filter (·.task.id == taskId) = []) :
    lastSlot (scheduler.advance now).entries taskId = lastSlot scheduler.entries taskId := by
  simp only [lastSlot, advance, findEntry_dispatch, hnone, List.foldl_nil,
    findEntry_map ScheduleEntry.skipMissed_config]
  cases findEntry scheduler.entries taskId with
  | none => rfl
  | some entry => exact entry.skipMissed_lastDispatchedSlot

/-- An iteration that selects a slot of a task moves the last one there. -/
theorem lastSlot_advance_of_mem (h : SoundEntries scheduler.entries) {now : SystemTime}
    (hnow : Searchable now) {execution : ScheduledTaskExecution}
    (hexecution : execution ∈ scheduler.selectDue now) :
    lastSlot (scheduler.advance now).entries execution.task.id = some execution.scheduledFor ∧
      ∀ last ∈ lastSlot scheduler.entries execution.task.id, last < execution.scheduledFor := by
  obtain ⟨entry, hentry, -, -, -, -, hlast⟩ := selectDue_spec h hnow hexecution
  have hsingle := filter_eq_singleton (selectDue_distinct h) hexecution
  simp only [lastSlot, advance, findEntry_dispatch, hsingle,
    findEntry_map ScheduleEntry.skipMissed_config, hentry]
  exact ⟨rfl, hlast⟩

/-- What an event does to the last slot of a task that stays configured. -/
theorem lastSlot_after (h : SoundEntries scheduler.entries) (clock : event.Searchable)
    (keeps : event.Keeps taskId) :
    (scheduler.selected event).filter (·.task.id == taskId) = [] ∧
        lastSlot (scheduler.after event).entries taskId = lastSlot scheduler.entries taskId ∨
      ∃ execution, (scheduler.selected event).filter (·.task.id == taskId) = [execution] ∧
        lastSlot (scheduler.after event).entries taskId = some execution.scheduledFor ∧
        ∀ last ∈ lastSlot scheduler.entries taskId, last < execution.scheduledFor := by
  cases event with
  | replaceConfig appliedAt tasks pendingExecutions => exact .inl ⟨rfl, lastSlot_configured keeps⟩
  | iterate now =>
    cases hfilter : (scheduler.selectDue now).filter (·.task.id == taskId) with
    | nil => exact .inl ⟨hfilter, lastSlot_advance_of_none hfilter⟩
    | cons execution others =>
      have hmem : execution ∈ (scheduler.selectDue now).filter (·.task.id == taskId) :=
        hfilter ▸ List.mem_cons_self
      obtain ⟨hexecution, hid⟩ := List.mem_filter.mp hmem
      obtain rfl : execution.task.id = taskId := by simpa using hid
      exact .inr ⟨execution, filter_eq_singleton (selectDue_distinct h) hexecution,
        lastSlot_advance_of_mem h (clock now rfl) hexecution⟩
  | complete completedAt =>
    refine .inl ⟨rfl, ?_⟩
    simp only [lastSlot, after, complete, findEntry_map ScheduleEntry.skipPassed_config]
    cases findEntry scheduler.entries taskId with
    | none => rfl
    | some entry => exact entry.skipPassed_lastDispatchedSlot
  | takePending => exact .inl ⟨rfl, rfl⟩
  | returnPending candidate => exact .inl ⟨rfl, rfl⟩

/-- The slots of a task that stays configured grow, and they are behind its last slot. -/
theorem dispatches_increase (events : List SchedulerEvent) :
    ∀ scheduler : TaskScheduler, SoundEntries scheduler.entries →
      (∀ event ∈ events, event.Searchable) → (∀ event ∈ events, event.Keeps taskId) →
      ((scheduler.dispatches events).filter (·.task.id == taskId)).Pairwise
          (fun left right => left.scheduledFor < right.scheduledFor) ∧
        ∀ execution ∈ (scheduler.dispatches events).filter (·.task.id == taskId),
          ∀ last ∈ lastSlot scheduler.entries taskId, last < execution.scheduledFor := by
  induction events with
  | nil => simp [dispatches]
  | cons event events ih =>
    intro scheduler hsound clocks keeps
    have clock := clocks event List.mem_cons_self
    obtain ⟨hgrow, hbehind⟩ := ih (scheduler.after event) (sound_after hsound clock)
      (fun other hother => clocks other (List.mem_cons_of_mem _ hother))
      (fun other hother => keeps other (List.mem_cons_of_mem _ hother))
    rw [dispatches, List.filter_append]
    rcases lastSlot_after hsound clock (keeps event List.mem_cons_self) with
      ⟨hnone, hlast⟩ | ⟨execution, hsingle, hlast, hlater⟩
    · rw [hnone, List.nil_append]
      exact ⟨hgrow, hlast ▸ hbehind⟩
    · rw [hlast] at hbehind
      have hnext : ∀ other ∈ ((scheduler.after event).dispatches events).filter
          (·.task.id == taskId), execution.scheduledFor < other.scheduledFor :=
        fun other hother => hbehind other hother _ rfl
      rw [hsingle, List.singleton_append, List.pairwise_cons]
      refine ⟨⟨hnext, hgrow⟩, fun other hother last h => ?_⟩
      rcases List.mem_cons.mp hother with rfl | hrest
      · exact hlater last h
      · exact (hlater last h).trans (hnext other hrest)

end TaskScheduler

/-- A task that stays configured: the slots selected for it grow, and each is accepted by the
schedule of its present configuration and lies in the minute of the clock. -/
theorem slots_strictly_increase (taskId : Bytes) (earlier later : List SchedulerEvent)
    (clocks : ∀ event ∈ earlier ++ later, event.Searchable)
    (keeps : ∀ event ∈ later, event.Keeps taskId) :
    (((TaskScheduler.start.run earlier).dispatches later).filter (·.task.id == taskId)).Pairwise
        (fun left right => left.scheduledFor < right.scheduledFor) ∧
      ∀ before now rest, later = before ++ .iterate now :: rest →
        ∀ execution ∈ (TaskScheduler.start.run (earlier ++ before)).selectDue now,
          execution.task.id = taskId →
          utcMinute execution.scheduledFor = utcMinute now ∧
            configurationOf taskId (earlier ++ before) = some execution.task ∧
            ∃ schedule, CronSchedule.parse execution.task.scheduleExpr = .ok schedule ∧
              schedule.accepts execution.scheduledFor = true := by
  have hstart : SoundEntries TaskScheduler.start.entries := ⟨by simp [TaskScheduler.start],
    by simp [TaskScheduler.start]⟩
  refine ⟨(TaskScheduler.dispatches_increase later _ (TaskScheduler.sound_run
    (fun event hevent => clocks event (List.mem_append_left _ hevent)) hstart)
    (fun event hevent => clocks event (List.mem_append_right _ hevent)) keeps).1, ?_⟩
  intro before now rest hlater execution hexecution hid
  have hclocks : ∀ event ∈ earlier ++ before, event.Searchable := by
    intro event hevent
    apply clocks event
    rw [hlater, ← List.append_assoc]
    exact List.mem_append_left _ hevent
  have hnow : CronSchedule.Searchable now := clocks (.iterate now) (by simp [hlater]) now rfl
  have hsound := TaskScheduler.sound_run hclocks hstart
  obtain ⟨entry, hentry, htask, -, haccepts, hminute, -⟩ :=
    TaskScheduler.selectDue_spec hsound hnow hexecution
  have hparsed := (hsound.sound entry (mem_of_findEntry hentry).1).parsed
  refine ⟨hminute, ?_, entry.schedule, htask ▸ hparsed, haccepts⟩
  rw [← TaskScheduler.findEntry_run, ← hid, hentry, htask]
  rfl

/-- A task that runs every minute. -/
def everyMinuteTask : TaskConfig :=
  { id := text "7", nodeCode := text "n", dataSourceId := text "3", name := text "import"
    taskType := text "local_file_import", scheduleExpr := text "* * * * *"
    parserType := text "csv_observation", qcProfile := [], enabled := true
    dataSource := ⟨text "3", text "n", .localDirectory, text "d", text "{}"⟩, qcRules := [] }

/-- A clock that goes back behind a slot, and then on. -/
def clockGoesBack : List SchedulerEvent :=
  [.replaceConfig 0 [everyMinuteTask] [], .iterate 65000000000, .iterate 61000000000,
    .complete 62000000000, .iterate 125000000000]

/-- Two slots are selected. -/
theorem slots_strictly_increase_clock :
    (TaskScheduler.start.dispatches clockGoesBack).map (·.scheduledFor) =
        [60000000000, 120000000000] ∧
      ((TaskScheduler.start.dispatches clockGoesBack).filter (·.task.id == text "7")).Pairwise
        (fun left right => left.scheduledFor < right.scheduledFor) := by
  have hsearchable : ∀ time : ℤ, 0 ≤ time → time < 1000000000000 →
      CronSchedule.Searchable time := by
    intro time hlow hhigh
    have hlimit : (searchLimit : ℤ) = 4216320 := rfl
    refine ⟨hlow, ?_, ?_, ?_⟩
    · unfold OnClock
      omega
    · unfold firstMinute lastMinute nanosecondsPerMinute
      omega
    · rw [hlimit]
      unfold firstMinute lastMinute nanosecondsPerMinute
      omega
  constructor
  · decide +kernel
  · apply (slots_strictly_increase (text "7") [] clockGoesBack _ _).1
    · intro event hevent
      have hreading : event.reading.all fun now => decide (0 ≤ now ∧ now < 1000000000000) := by
        fin_cases hevent <;> rfl
      intro now hnow
      have hrange := (Option.all_eq_true _ _).mp hreading now hnow
      exact hsearchable now (of_decide_eq_true hrange).1 (of_decide_eq_true hrange).2
    · intro event hevent
      fin_cases hevent <;> simp [SchedulerEvent.Keeps]
      decide +kernel

/-- A clock that shows its last minute once, and then goes back. -/
def clockAtItsEnd : List SchedulerEvent :=
  [.replaceConfig 0 [everyMinuteTask] [], .iterate 65000000000, .iterate 9223372020000000000,
    .iterate 30000000000, .iterate 61000000000]

/-- The next slot wraps to 1677, so the slot behind the earlier reading is selected again. -/
theorem not_slots_strictly_increase :
    (∀ event ∈ clockAtItsEnd, event.SinceEpoch ∧ event.Keeps (text "7")) ∧
      ((TaskScheduler.start.dispatches clockAtItsEnd).filter (·.task.id == text "7")).map
        (·.scheduledFor) = [60000000000, 60000000000] ∧
      ¬((TaskScheduler.start.dispatches clockAtItsEnd).filter (·.task.id == text "7")).Pairwise
        (fun left right => left.scheduledFor < right.scheduledFor) := by
  have hslots : ((TaskScheduler.start.dispatches clockAtItsEnd).filter
      (·.task.id == text "7")).map (·.scheduledFor) = [60000000000, 60000000000] := by
    decide +kernel
  refine ⟨fun event hevent => ⟨?_, ?_⟩, hslots, fun h => ?_⟩
  · have hreading : event.reading.all fun now => decide (0 ≤ now ∧ OnClock now) := by
      fin_cases hevent <;> decide
    intro now hnow
    exact of_decide_eq_true ((Option.all_eq_true _ _).mp hreading now hnow)
  · fin_cases hevent <;> simp [SchedulerEvent.Keeps]
    decide +kernel
  · have hgrow := List.pairwise_map.mpr h
    rw [hslots] at hgrow
    exact absurd hgrow (by decide)

end LabBridge.Agent
