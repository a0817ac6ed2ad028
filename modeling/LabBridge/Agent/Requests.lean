import LabBridge.Core.Models

/-!
# Requests of the agent

What the agent exchanges with the control plane and keeps for redelivery: the three requests
of a run, the fixed inputs of a retry, and the execution an operator asked for.
-/

namespace LabBridge.Agent

open ByteText LabBridge.Core

/-- Ask the control plane to start a run. -/
structure StartTaskRunRequest where
  nodeCode : Bytes
  taskId : Bytes
  executionKey : Bytes
  scheduledFor : Bytes
  startedAt : Bytes
  triggerType : Bytes := text "scheduled"
  deriving DecidableEq

/-- The run a start was answered with. -/
structure StartTaskRunResult where
  taskRunId : Bytes
  replayed : Bool
  runStatus : Bytes
  deriving DecidableEq

/-- One archived file of a manifest. -/
structure RawFileManifestEntry where
  originalName : Bytes
  fileHash : Bytes
  storagePath : Bytes
  sizeBytes : ℤ
  sourceMtime : Bytes
  ingestStatus : Bytes := text "archived_local"
  deriving DecidableEq

/-- The archived files of a run. -/
structure RawFileManifestRequest where
  taskRunId : Bytes := []
  nodeCode : Bytes := []
  idempotencyKey : Bytes := []
  files : List RawFileManifestEntry := []
  deriving DecidableEq

/-- The result of one quality rule on one record. -/
structure TaskRunReportQcResult where
  qcRuleId : Bytes
  level : Bytes
  result : Bytes
  message : Bytes
  deriving DecidableEq

/-- One parsed record of a report. -/
structure TaskRunReportParsedRecord where
  rawFileId : Bytes
  record : ParsedRecord
  parseStatus : Bytes := text "parsed"
  qcResults : List TaskRunReportQcResult
  deriving DecidableEq

/-- One file-level failure. An empty archive reference says that the input never had a valid
archive. -/
structure TaskRunReportFailedFile where
  sourcePath : Bytes
  originalName : Bytes
  stage : Bytes
  message : Bytes
  archiveRawFileId : Bytes
  deriving DecidableEq

/-- The final report of a run. -/
structure TaskRunReportRequest where
  taskRunId : Bytes := []
  nodeCode : Bytes := []
  idempotencyKey : Bytes := []
  status : TaskRunStatus := .succeeded
  finishedAt : Bytes := []
  itemsTotal : ℤ := 0
  itemsSuccess : ℤ := 0
  itemsFailed : ℤ := 0
  errorSummary : Bytes := []
  parsedRecords : List TaskRunReportParsedRecord := []
  hasFailedFiles : Bool := false
  failedFiles : List TaskRunReportFailedFile := []
  deriving DecidableEq

/-- One input the control plane fixed for a retry. -/
structure RetryFileInput where
  inputType : Bytes
  sourcePath : Bytes
  originalName : Bytes
  archiveRawFileId : Bytes := []
  storagePath : Bytes := []
  sizeBytes : ℤ := 0
  fileHash : Bytes := []
  sourceMtime : Bytes := []
  deriving DecidableEq

/-- An execution an operator asked for. -/
structure PendingExecution where
  taskRunId : Bytes
  taskId : Bytes
  executionKey : Bytes
  triggerType : Bytes
  requestedAt : Bytes
  retryFiles : List RetryFileInput
  deriving DecidableEq

end LabBridge.Agent
