import LabBridge.Core.Models

/-!
# Requests and records of the server

The values the application services exchange with the HTTP layer and with the
repositories. Identifiers and times are texts here: only the database gives them types.
An absent database value is the empty text, as in the storage mapping of the source.
-/

namespace LabBridge.Server

open ByteText LabBridge.Core

/-- A file-level failure in a final report. -/
structure TaskRunFailedFile where
  sourcePath : Bytes
  originalName : Bytes
  stage : Bytes
  message : Bytes
  archiveRawFileId : Bytes
  deriving DecidableEq

/-- One input fixed when a retry run is created. -/
structure TaskRunRetryFile where
  inputType : Bytes
  sourcePath : Bytes
  originalName : Bytes
  archiveRawFileId : Bytes
  storagePath : Bytes
  sizeBytes : ℤ
  fileHash : Bytes
  sourceMtime : Bytes
  deriving DecidableEq

/-- A task run as the repositories read and write it. -/
structure TaskRunRecord where
  id : Bytes := []
  taskId : Bytes
  nodeCode : Bytes
  status : TaskRunStatus := .pending
  startedAt : Bytes := []
  finishedAt : Bytes := []
  itemsTotal : ℤ := 0
  itemsSuccess : ℤ := 0
  itemsFailed : ℤ := 0
  errorSummary : Bytes := []
  triggerType : Bytes := text "scheduled"
  executionKey : Bytes := []
  scheduledFor : Bytes := []
  requestedAt : Bytes := []
  retryOfRunId : Bytes := []
  failedFilesJson : Bytes := []
  deriving DecidableEq

/-- The parameters of an accepted operator request. -/
structure ManualTaskRunRequest where
  taskId : Bytes
  nodeCode : Bytes
  triggerType : Bytes
  executionKey : Bytes
  retryOfRunId : Bytes
  retryFiles : List TaskRunRetryFile
  deriving DecidableEq

/-- A run together with whether this call created it. -/
structure TaskRunStart where
  taskRun : TaskRunRecord
  created : Bool
  deriving DecidableEq

/-- A registered node. -/
structure NodeRecord where
  nodeCode : Bytes
  name : Bytes
  agentVersion : Bytes
  status : NodeStatus
  lastHeartbeatAt : Bytes
  deriving DecidableEq

/-- A task as the configuration repository reads it. -/
structure TaskRecord where
  id : Bytes
  nodeCode : Bytes
  dataSourceId : Bytes
  name : Bytes
  taskType : Bytes
  scheduleExpr : Bytes
  parserType : Bytes
  qcProfile : Bytes
  enabled : Bool
  deriving DecidableEq

/-- A data source as the configuration repository reads it. -/
structure DataSourceRecord where
  id : Bytes
  nodeCode : Bytes
  sourceType : SourceType
  name : Bytes
  configJson : Bytes
  enabled : Bool
  deriving DecidableEq

/-- A quality rule. -/
structure QcRuleRecord where
  id : Bytes
  name : Bytes
  ruleType : Bytes
  ruleConfigJson : Bytes
  enabled : Bool
  deriving DecidableEq

/-- A registered file of a run. -/
structure RawFileRecord where
  id : Bytes := []
  taskRunId : Bytes
  nodeCode : Bytes
  originalName : Bytes
  fileHash : Bytes
  storagePath : Bytes
  sizeBytes : ℤ
  sourceMtime : Bytes
  ingestStatus : Bytes
  deriving DecidableEq

/-- A parsed row of a registered file. -/
structure ParsedRecordRecord where
  taskRunId : Bytes
  rawFileId : Bytes
  record : ParsedRecord
  parseStatus : Bytes
  deriving DecidableEq

/-- The result of one rule on one parsed row. -/
structure QcResultRecord where
  id : Bytes := []
  parsedRecordId : Bytes
  qcRuleId : Bytes
  level : Bytes
  result : Bytes
  message : Bytes
  deriving DecidableEq

/-- An alert. -/
structure AlertRecord where
  id : Bytes := []
  nodeCode : Bytes
  taskRunId : Bytes
  alertType : Bytes
  severity : Bytes
  message : Bytes
  status : Bytes
  acknowledgedAt : Bytes := []
  closedAt : Bytes := []
  deriving DecidableEq

/-- The two kinds of agent reports that leave a receipt. -/
inductive AgentReportRequestType
  | rawFileManifest
  | taskRunReport
  deriving DecidableEq

/-- The stored text of a request kind. -/
def AgentReportRequestType.value : AgentReportRequestType → Bytes
  | .rawFileManifest => text "raw_file_manifest"
  | .taskRunReport => text "task_run_report"

/-- What a request claims before it takes effect. -/
structure AgentReportReceiptClaim where
  taskRunId : Bytes
  nodeCode : Bytes
  requestType : AgentReportRequestType
  idempotencyKey : Bytes
  requestFingerprint : Bytes
  deriving DecidableEq

/-- The identifiers a completed receipt answers with. -/
structure AgentReportReceiptResponse where
  rawFileIds : List Bytes := []
  parsedRecordIds : List Bytes := []
  qcResultIds : List Bytes := []
  alertIds : List Bytes := []
  deriving DecidableEq

/-- A stored receipt. -/
structure AgentReportReceipt where
  id : Bytes
  claim : AgentReportReceiptClaim
  response : AgentReportReceiptResponse
  completed : Bool
  deriving DecidableEq

/-- One file of a manifest. -/
structure RawFileManifestEntry where
  originalName : Bytes
  fileHash : Bytes
  storagePath : Bytes
  sizeBytes : ℤ := 0
  sourceMtime : Bytes
  ingestStatus : Bytes := text "collected"
  deriving DecidableEq

/-- The files an agent registers for a run. -/
structure RawFileManifestRequest where
  taskRunId : Bytes
  nodeCode : Bytes
  idempotencyKey : Bytes
  files : List RawFileManifestEntry
  deriving DecidableEq

/-- One quality result of a report. -/
structure TaskRunReportQcResult where
  qcRuleId : Bytes
  level : Bytes
  result : Bytes
  message : Bytes
  deriving DecidableEq

/-- One parsed row of a report with its quality results. -/
structure TaskRunReportParsedRecord where
  rawFileId : Bytes
  record : ParsedRecord
  parseStatus : Bytes := text "parsed"
  qcResults : List TaskRunReportQcResult
  deriving DecidableEq

/-- The final report of a run. -/
structure TaskRunReportRequest where
  taskRunId : Bytes
  nodeCode : Bytes
  idempotencyKey : Bytes
  status : TaskRunStatus
  finishedAt : Bytes
  itemsTotal : ℤ := 0
  itemsSuccess : ℤ := 0
  itemsFailed : ℤ := 0
  errorSummary : Bytes
  parsedRecords : List TaskRunReportParsedRecord
  hasFailedFiles : Bool := false
  failedFiles : List TaskRunFailedFile := []
  deriving DecidableEq

/-- What a final report writes to its run. -/
structure FinishTaskRunRequest where
  taskRunId : Bytes
  status : TaskRunStatus
  finishedAt : Bytes
  itemsTotal : ℤ
  itemsSuccess : ℤ
  itemsFailed : ℤ
  errorSummary : Bytes
  hasFailedFiles : Bool
  failedFiles : List TaskRunFailedFile
  deriving DecidableEq

/-- The request that starts a run. -/
structure StartTaskRunRequest where
  nodeCode : Bytes
  taskId : Bytes
  startedAt : Bytes
  triggerType : Bytes := text "scheduled"
  executionKey : Bytes := []
  scheduledFor : Bytes := []
  deriving DecidableEq

/-- The answer to a start request. -/
structure TaskRunCreateResult where
  id : Bytes
  replayed : Bool
  runStatus : Bytes
  deriving DecidableEq

/-- The answer to an operator request for a run. -/
structure ManualTaskRunResult where
  taskRunId : Bytes
  runStatus : Bytes
  replayed : Bool
  deriving DecidableEq

/-- The answer to a manifest. -/
structure RawFileManifestResult where
  rawFileIds : List Bytes
  replayed : Bool := false
  deriving DecidableEq

/-- The answer to a final report. -/
structure TaskRunReportResult where
  parsedRecordIds : List Bytes
  qcResultIds : List Bytes
  alertIds : List Bytes
  replayed : Bool := false
  deriving DecidableEq

end LabBridge.Server
