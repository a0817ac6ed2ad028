import LabBridge.Agent.QueueLifecycle
import LabBridge.Agent.TaskScheduler
import LabBridge.Library.Sha256
import LabBridge.Server.UtcTexts

/-!
# What is dispatched to the executor

The scheduler hands slots and manual executions to the executor, each with the execution key and
the start that its job is queued under.
-/

namespace LabBridge.Agent

open ByteText JsonText LabBridge.Core

/-- `make_scheduled_execution_key`. -/
def makeScheduledExecutionKey (nodeCode taskId scheduledFor : Bytes) : Bytes :=
  Sha256.sha256Hex (text "scheduled\n" ++ nodeCode ++ text "\n" ++ taskId ++ text "\n" ++
    scheduledFor)

/-- The text of a time. -/
def timestamp (time : SystemTime) : Bytes :=
  Server.formatUtcTimestamp (time.tdiv nanosecondsPerSecond)

/-- The start of a scheduled slot. -/
def scheduledRequest (execution : ScheduledTaskExecution) (now : SystemTime) :
    StartTaskRunRequest where
  nodeCode := execution.task.nodeCode
  taskId := execution.task.id
  executionKey := makeScheduledExecutionKey execution.task.nodeCode execution.task.id
    (timestamp execution.scheduledFor)
  scheduledFor := timestamp execution.scheduledFor
  startedAt := timestamp now
  triggerType := text "scheduled"

/-- The start of a manual execution. -/
def manualRequest (execution : ManualTaskExecution) (now : SystemTime) : StartTaskRunRequest where
  nodeCode := execution.task.nodeCode
  taskId := execution.task.id
  executionKey := execution.execution.executionKey
  scheduledFor := []
  startedAt := timestamp now
  triggerType := execution.execution.triggerType

/-- What the scheduler hands to the executor. -/
inductive Dispatch
  | scheduled (execution : ScheduledTaskExecution)
  | manual (execution : ManualTaskExecution)

/-- The execution key of a dispatch. -/
def Dispatch.key : Dispatch → Bytes
  | .scheduled execution => makeScheduledExecutionKey execution.task.nodeCode execution.task.id
      (timestamp execution.scheduledFor)
  | .manual execution => execution.execution.executionKey

end LabBridge.Agent
