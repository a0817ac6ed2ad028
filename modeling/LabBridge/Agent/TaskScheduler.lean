import LabBridge.Agent.Requests
import LabBridge.Core.CronSchedule

/-!
# The task scheduler

The scheduler holds one entry for each enabled task. A configuration replaces the entries, and
an iteration of the loop selects the slots that have become due in the minute of its clock. The
sections below are the ones that run under the lock of the source, so that every interleaving
of the loop and of new configurations is a list of events.
-/

namespace LabBridge.Agent

open ByteText LabBridge.Core

/-- The whole minutes of a time. -/
def utcMinute (value : SystemTime) : ℤ := value.tdiv nanosecondsPerMinute

/-- Whether two rules check the same. -/
def sameQcRule (left right : QcRuleConfig) : Bool :=
  left.id == right.id && left.ruleType == right.ruleType && left.configJson == right.configJson

/-- Whether two configurations of a task execute the same. -/
def sameExecutionConfig (left right : TaskConfig) : Bool :=
  left.id == right.id && left.nodeCode == right.nodeCode && left.taskType == right.taskType &&
    left.scheduleExpr == right.scheduleExpr && left.parserType == right.parserType &&
    left.dataSourceId == right.dataSourceId && left.dataSource.id == right.dataSource.id &&
    left.dataSource.nodeCode == right.dataSource.nodeCode &&
    left.dataSource.type == right.dataSource.type &&
    left.dataSource.configJson == right.dataSource.configJson &&
    left.qcRules.length == right.qcRules.length &&
    (left.qcRules.zip right.qcRules).all fun rules => sameQcRule rules.1 rules.2

/-- A number without leading zeros. -/
def normalizedNumericId (value : Bytes) : Bytes :=
  match value.dropWhile (· == 48) with
  | [] => text "0"
  | digits => digits

/-- Whether a text is a number. -/
def isNumericId (value : Bytes) : Bool := !value.isEmpty && value.all fun b => decide (IsDigit b)

/-- The order of task ids: numbers by their value, other texts by their bytes. -/
def taskIdLess (left right : Bytes) : Bool :=
  let normalizedLeft := normalizedNumericId left
  let normalizedRight := normalizedNumericId right
  if isNumericId left ∧ isNumericId right ∧ normalizedLeft ≠ normalizedRight then
    if normalizedLeft.length ≠ normalizedRight.length then
      decide (normalizedLeft.length < normalizedRight.length)
    else decide (normalizedLeft < normalizedRight)
  else decide (left < right)

/-- What the scheduler keeps of a task. -/
structure ScheduleEntry where
  config : TaskConfig
  schedule : CronSchedule
  nextSlot : Option SystemTime
  lastDispatchedSlot : Option SystemTime

/-- A slot that has become due. -/
structure ScheduledTaskExecution where
  task : TaskConfig
  scheduledFor : SystemTime

/-- A manual candidate with the configuration of its task. -/
structure ManualTaskExecution where
  execution : PendingExecution
  task : TaskConfig

/-- The state of the scheduler; each task has one entry. -/
structure TaskScheduler where
  entries : List ScheduleEntry
  pendingCandidates : List PendingExecution

/-- The entry of a task. -/
def findEntry (entries : List ScheduleEntry) (taskId : Bytes) : Option ScheduleEntry :=
  entries.find? fun entry => entry.config.id == taskId

/-- A new entry, whose first slot is behind the last one of the task and the present. -/
def ScheduleEntry.rebuilt (task : TaskConfig) (schedule : CronSchedule) (appliedAt : SystemTime)
    (lastDispatched : Option SystemTime) : ScheduleEntry :=
  let scheduleBase := match lastDispatched with
    | some last => if appliedAt < last then last else appliedAt
    | none => appliedAt
  { config := task, schedule, nextSlot := schedule.nextAfter scheduleBase
    lastDispatchedSlot := lastDispatched }

/-- The entry of a configured task; one that executes the same keeps its slots. -/
def configuredEntry (entries : List ScheduleEntry) (appliedAt : SystemTime) (task : TaskConfig)
    (schedule : CronSchedule) : ScheduleEntry :=
  match findEntry entries task.id with
  | some existing =>
    if sameExecutionConfig existing.config task then { existing with config := task }
    else .rebuilt task schedule appliedAt existing.lastDispatchedSlot
  | none => .rebuilt task schedule appliedAt none

/-- Add the entry of a task, unless the task is skipped. -/
def configureTask (entries : List ScheduleEntry) (appliedAt : SystemTime)
    (replacement : List ScheduleEntry) (task : TaskConfig) : List ScheduleEntry :=
  if task.enabled = false then replacement
  else if task.id = [] ∨ (findEntry replacement task.id).isSome then replacement
  else
    match CronSchedule.parse task.scheduleExpr with
    | .error _ => replacement
    | .ok schedule => replacement ++ [configuredEntry entries appliedAt task schedule]

/-- A slot of an earlier minute is skipped. -/
def ScheduleEntry.skipMissed (now : SystemTime) (entry : ScheduleEntry) : ScheduleEntry :=
  match entry.nextSlot with
  | some slot =>
    if utcMinute slot < utcMinute now then
      { entry with nextSlot := entry.schedule.nextAfter now }
    else entry
  | none => entry

/-- The slot of an entry that is due now. -/
def ScheduleEntry.due (now : SystemTime) (entry : ScheduleEntry) :
    Option ScheduledTaskExecution :=
  match entry.nextSlot with
  | some slot =>
    if slot ≤ now ∧ utcMinute slot = utcMinute now then some ⟨entry.config, slot⟩ else none
  | none => none

/-- Move an entry behind a slot that is dispatched. -/
def ScheduleEntry.dispatch (entry : ScheduleEntry) (execution : ScheduledTaskExecution) :
    ScheduleEntry :=
  { entry with
    lastDispatchedSlot := some execution.scheduledFor
    nextSlot := entry.schedule.nextAfter execution.scheduledFor }

/-- A slot that passed during the executions is skipped. -/
def ScheduleEntry.skipPassed (completedAt : SystemTime) (entry : ScheduleEntry) :
    ScheduleEntry :=
  match entry.nextSlot with
  | some slot =>
    if slot ≤ completedAt then { entry with nextSlot := entry.schedule.nextAfter completedAt }
    else entry
  | none => entry

/-- The order of the slots that are due. -/
def dueBefore (left right : ScheduledTaskExecution) : Bool :=
  if left.scheduledFor ≠ right.scheduledFor then decide (left.scheduledFor < right.scheduledFor)
  else taskIdLess left.task.id right.task.id

/-- Move the entry of a slot that is dispatched. -/
def dispatchEntry (entries : List ScheduleEntry) (execution : ScheduledTaskExecution) :
    List ScheduleEntry :=
  entries.map fun entry =>
    if entry.config.id = execution.task.id then entry.dispatch execution else entry

/-- The first candidate of an available task, and the candidates behind it. -/
def takeCandidate (entries : List ScheduleEntry) :
    List PendingExecution → Option ManualTaskExecution × List PendingExecution
  | [] => (none, [])
  | candidate :: rest =>
    match findEntry entries candidate.taskId with
    | some entry => (some ⟨candidate, entry.config⟩, rest)
    | none => takeCandidate entries rest

namespace TaskScheduler

variable (scheduler : TaskScheduler)

/-- A scheduler that has no configuration yet. -/
def start : TaskScheduler := ⟨[], []⟩

/-- `TaskScheduler::Impl::replace_config`. -/
def replaceConfig (appliedAt : SystemTime) (tasks : List TaskConfig)
    (pendingExecutions : List PendingExecution) : TaskScheduler :=
  ⟨tasks.foldl (configureTask scheduler.entries appliedAt) [], pendingExecutions⟩

/-- The slots that the loop selects as due, in the order of their dispatch. -/
def selectDue (now : SystemTime) : List ScheduledTaskExecution :=
  ((scheduler.entries.map (·.skipMissed now)).filterMap (·.due now)).mergeSort
    fun left right => !dueBefore right left

/-- The entries move behind the selected slots before these are dispatched. -/
def advance (now : SystemTime) : TaskScheduler :=
  { scheduler with
    entries := (scheduler.selectDue now).foldl dispatchEntry
      (scheduler.entries.map (·.skipMissed now)) }

/-- Whether a selected slot still has the configuration it was selected with. -/
def stillConfigured (execution : ScheduledTaskExecution) : Bool :=
  match findEntry scheduler.entries execution.task.id with
  | some current => sameExecutionConfig current.config execution.task
  | none => false

/-- The entries after the executions of an iteration. -/
def complete (completedAt : SystemTime) : TaskScheduler :=
  { scheduler with entries := scheduler.entries.map (·.skipPassed completedAt) }

/-- Take a manual candidate to dispatch it. -/
def takePending : Option ManualTaskExecution × TaskScheduler :=
  let taken := takeCandidate scheduler.entries scheduler.pendingCandidates
  (taken.1, { scheduler with pendingCandidates := taken.2 })

/-- Put a candidate back that found the queue full. -/
def returnPending (candidate : PendingExecution) : TaskScheduler :=
  { scheduler with pendingCandidates := candidate :: scheduler.pendingCandidates }

end TaskScheduler

/-- What happens to a scheduler under its lock. -/
inductive SchedulerEvent
  | replaceConfig (appliedAt : SystemTime) (tasks : List TaskConfig)
    (pendingExecutions : List PendingExecution)
  | iterate (now : SystemTime)
  | complete (completedAt : SystemTime)
  | takePending
  | returnPending (candidate : PendingExecution)

namespace TaskScheduler

/-- The scheduler after an event. -/
def after (scheduler : TaskScheduler) : SchedulerEvent → TaskScheduler
  | .replaceConfig appliedAt tasks pendingExecutions =>
    scheduler.replaceConfig appliedAt tasks pendingExecutions
  | .iterate now => scheduler.advance now
  | .complete completedAt => scheduler.complete completedAt
  | .takePending => scheduler.takePending.2
  | .returnPending candidate => scheduler.returnPending candidate

/-- The slots that an event selects. -/
def selected (scheduler : TaskScheduler) : SchedulerEvent → List ScheduledTaskExecution
  | .iterate now => scheduler.selectDue now
  | _ => []

/-- The scheduler after some events. -/
def run (scheduler : TaskScheduler) (events : List SchedulerEvent) : TaskScheduler :=
  events.foldl after scheduler

/-- The slots that some events select, in order. -/
def dispatches : TaskScheduler → List SchedulerEvent → List ScheduledTaskExecution
  | _, [] => []
  | scheduler, event :: rest =>
    scheduler.selected event ++ dispatches (scheduler.after event) rest

end TaskScheduler

end LabBridge.Agent
