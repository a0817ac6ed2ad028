import LabBridge.Server.TaskRunService

/-!
# Enabling and disabling tasks

The operator command that switches a task. Disabling a task also ends the operator runs
that have not started.
-/

namespace LabBridge.Server

open ByteText LabBridge.Core

variable (R : Runtime)

/-- The summary of a run that was ended before it started. -/
def disabledSummary : Bytes := text "开始前任务被停用，未执行采集"

/-- The task an operator command answers with. -/
structure ManagementTaskResult where
  task : TaskRecord
  qcRuleIds : List Bytes
  deriving DecidableEq

/-- `set_task_enabled`. -/
def setTaskEnabled (taskId : Bytes) (enabled : Bool) : Tx ManagementTaskResult := do
  if !isPositiveId taskId then refuse (.invalid (text "task_id must be a positive integer"))
  else if !(← sql (.selectTaskForUpdate taskId)) then
    refuse (.notFound (text "task is not found"))
  else
    match ← sql (.selectTask taskId) with
    | none => refuse (.notFound (text "task is not found"))
    | some task => do
      if enabled then
        let qcRuleIds ← sql (.selectTaskQcRuleIds taskId)
        validateTaskExecutable R task qcRuleIds
      else sql (.updatePendingManualFailed taskId disabledSummary)
      sql (.updateTaskEnabled taskId enabled)
      match ← sql (.selectTask taskId) with
      | none => raise "created management object is not readable"
      | some updated =>
        let qcRuleIds ← sql (.selectTaskQcRuleIds taskId)
        pure ⟨updated, qcRuleIds⟩

end LabBridge.Server
