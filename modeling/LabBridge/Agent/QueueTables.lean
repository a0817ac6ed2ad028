import LabBridge.Agent.Requests

/-!
# The tables of the agent queue

One row for every pending job, for every file of its plan, for every request to deliver and
for every fingerprint that was processed. A stage is kept as the column check of the schema
allows it, and the time of the next attempt in milliseconds; times and texts that no operation
reads are left out.
-/

namespace LabBridge.Agent

open ByteText LabBridge.Core

/-- Where a job stands. -/
inductive Stage
  | startPending
  | collecting
  | manifestPending
  | reportBuilding
  | reportPending
  | retryWait
  | requiresAttention
  deriving DecidableEq, Repr

/-- A stage that can be executed, and so be returned to. -/
def isExecutableStage : Stage → Bool
  | .retryWait | .requiresAttention => false
  | _ => true

/-- The text of a stage. -/
def Stage.toText : Stage → Bytes
  | .startPending => text "start_pending"
  | .collecting => text "collecting"
  | .manifestPending => text "manifest_pending"
  | .reportBuilding => text "report_building"
  | .reportPending => text "report_pending"
  | .retryWait => text "retry_wait"
  | .requiresAttention => text "requires_attention"

/-- The requests of a run. -/
inductive RequestType
  | start
  | manifest
  | report
  deriving DecidableEq, Repr

/-- The stage in which a request is delivered. -/
def RequestType.stage : RequestType → Stage
  | .start => .startPending
  | .manifest => .manifestPending
  | .report => .reportPending

/-- How far a planned file has come. -/
inductive ArchiveState
  | archivePlanned
  | archived
  deriving DecidableEq, Repr

/-- A row of `pending_jobs`. -/
structure PendingJob where
  executionKey : Bytes
  nodeCode : Bytes
  taskId : Bytes
  scheduledFor : Bytes
  startedAt : Bytes
  taskConfigJson : Bytes
  stage : Stage := .startPending
  retryStage : Option Stage := none
  taskRunId : Option Bytes := none
  attemptCount : ℕ := 0
  nextAttemptAt : Option ℤ := none
  lastErrorKind : Option Bytes := none
  retryFilesJson : Bytes
  fileFailuresJson : Option Bytes := none
  createdAt : Bytes
  deriving DecidableEq

/-- A row of `pending_files`. -/
structure PendingFile where
  executionKey : Bytes
  ordinal : ℤ
  sourcePath : Bytes
  originalName : Bytes
  sourceMtime : Bytes
  sizeBytes : ℤ
  fileHash : Bytes
  fingerprint : Bytes
  archivePath : Bytes
  archiveState : ArchiveState := .archivePlanned
  rawFileId : Option Bytes := none
  parsedWithoutErrors : Option Bool := none
  errorDetail : Option Bytes := none
  inputPath : Bytes
  deriving DecidableEq

/-- A row of `pending_deliveries`. -/
structure PendingDelivery where
  executionKey : Bytes
  requestType : RequestType
  idempotencyKey : Bytes
  requestJson : Bytes
  attemptCount : ℕ := 0
  nextAttemptAt : Option ℤ := none
  deriving DecidableEq

/-- A row of `processed_files`; the rows are kept in the order of their row numbers. -/
structure ProcessedFile where
  taskId : Bytes
  fingerprint : Bytes
  sourcePath : Bytes
  fileHash : Bytes
  processedAt : Bytes
  executionKey : Bytes
  deriving DecidableEq

/-- The queue database. -/
@[ext] structure QueueDatabase where
  jobs : List PendingJob := []
  files : List PendingFile := []
  deliveries : List PendingDelivery := []
  processed : List ProcessedFile := []

/-- A file of a plan as the executor sees it. -/
structure PendingFilePlan where
  ordinal : ℤ
  sourcePath : Bytes
  originalName : Bytes
  sourceMtime : Bytes
  sizeBytes : ℤ
  fileHash : Bytes
  fingerprint : Bytes
  archivePath : Bytes
  archiveState : ArchiveState := .archivePlanned
  rawFileId : Bytes := []
  parsedWithoutErrors : Bool := false
  inputPath : Bytes := []
  errorDetail : Bytes := []
  deriving DecidableEq

/-- A job as it is loaded. No stage stands for a waiting job without a stage to return to. -/
structure RecoveredJob where
  executionKey : Bytes
  task : TaskConfig
  startRequest : StartTaskRunRequest
  stage : Option Stage
  taskRunId : Bytes
  files : List PendingFilePlan
  manifestRequest : RawFileManifestRequest
  reportRequest : TaskRunReportRequest
  retryFiles : List RetryFileInput
  hasFileFailures : Bool
  fileFailures : List TaskRunReportFailedFile

end LabBridge.Agent
