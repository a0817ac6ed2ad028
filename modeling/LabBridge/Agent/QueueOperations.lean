import LabBridge.Agent.QueueStore

/-!
# What the queue lets its users change

The operations of `AgentQueueStore` that write, and the one of `AgentQueueMaintenance` that
returns a parked job to work. Some of them insist on the stage of the job, some change
nothing when the stage is another one; both are kept apart as in the source.
-/

namespace LabBridge.Agent

open ByteText JsonText LabBridge.Core

variable (J : Nlohmann)

/-- The job of a key, in one of some stages. -/
def jobIn (key : Bytes) (stages : List Stage) (job : PendingJob) : Bool :=
  job.executionKey == key && stages.contains job.stage

/-- The job of a key. -/
def jobOf (key : Bytes) (job : PendingJob) : Bool := job.executionKey == key

/-- The planned file of a job at a place. -/
def fileAt (key : Bytes) (ordinal : ℤ) (file : PendingFile) : Bool :=
  file.executionKey == key && file.ordinal == ordinal

/-- The texts of the retry inputs a job is created with. -/
def retryFilesText (retryFiles : List RetryFileInput) : Except AgentError Bytes :=
  if retryFiles.isEmpty then .ok [] else encodeRetryFiles J retryFiles

/-- The row of a new job. -/
def newJob (request : StartTaskRunRequest) (taskJson retryFilesJson now : Bytes) : PendingJob where
  executionKey := request.executionKey
  nodeCode := request.nodeCode
  taskId := request.taskId
  scheduledFor := request.scheduledFor
  startedAt := request.startedAt
  taskConfigJson := taskJson
  retryFilesJson := retryFilesJson
  createdAt := now

/-- The row of the first delivery of a job. -/
def startDelivery (request : StartTaskRunRequest) (requestJson : Bytes) : PendingDelivery where
  executionKey := request.executionKey
  requestType := .start
  idempotencyKey := request.executionKey
  requestJson := requestJson

/-- `begin_job`: keep a job with its start and its fixed inputs. A job of the same key is left
as it is; the answer says whether the job is new. -/
def beginJob (store : AgentQueueStore) (task : TaskConfig) (request : StartTaskRunRequest)
    (retryFiles : List RetryFileInput) (now : Bytes) (db : QueueDatabase) :
    Except AgentError (Bool × QueueDatabase) := do
  if request.nodeCode ≠ store.nodeCode ∨ task.nodeCode ≠ store.nodeCode ∨
      request.taskId ≠ task.id then
    throw (queueError "job identity does not match queue identity")
  let taskJson ← encodeTaskConfig J task
  let requestJson ← encodeStartTaskRunRequest J request
  let retryFilesJson ← retryFilesText J retryFiles
  match db.job? request.executionKey with
  | some job =>
    if readText job.taskId = task.id ∧ readText job.scheduledFor = request.scheduledFor ∧
        readText job.taskConfigJson = taskJson then pure (false, db)
    else throw (queueError "execution key conflicts with persisted job")
  | none =>
    if store.maxPendingJobs ≤ db.jobs.length then
      throw (queueError "pending job capacity reached")
    let inserted ← db.insertJob (newJob request taskJson retryFilesJson now)
    let started ← inserted.insertDelivery (startDelivery request requestJson)
      "insert start delivery"
    pure (true, started)

/-- `save_file_plan`: the plan of a job together with the failures of choosing it. -/
def saveFilePlan (key : Bytes) (files : List PendingFilePlan)
    (failures : List TaskRunReportFailedFile) (db : QueueDatabase) :
    Except AgentError QueueDatabase := do
  let failuresJson ← encodeFileFailures J failures
  let planned ← files.foldlM (fun db file => db.insertFile (file.row key)) db
  planned.updateJob (jobOf key) (fun job => { job with fileFailuresJson := some failuresJson })
    (queueError "file plan requires a pending job")

/-- `save_file_failures`: the failures of a job alone. -/
def saveFileFailures (key : Bytes) (failures : List TaskRunReportFailedFile)
    (db : QueueDatabase) : Except AgentError QueueDatabase := do
  let failuresJson ← encodeFileFailures J failures
  db.updateJob (jobOf key) (fun job => { job with fileFailuresJson := some failuresJson })
    (queueError "save file failures requires a pending job")

/-- `mark_file_failed`: the failure of one planned file and the failures of the job at once. -/
def markFileFailed (key : Bytes) (ordinal : ℤ) (errorDetail : Bytes)
    (failures : List TaskRunReportFailedFile) (db : QueueDatabase) :
    Except AgentError QueueDatabase := do
  let failuresJson ← encodeFileFailures J failures
  let marked ← db.updateFile (fileAt key ordinal)
    (fun file => { file with errorDetail := some errorDetail })
    (queueError "pending file does not exist")
  marked.updateJob (jobOf key) (fun job => { job with fileFailuresJson := some failuresJson })
    (queueError "mark file failed requires a pending job")

/-- `accept_start`: the run of a job that was waiting for its start. -/
def acceptStart (key taskRunId : Bytes) (db : QueueDatabase) : Except AgentError QueueDatabase :=
  db.updateJob (jobIn key [.startPending])
    (fun job => { job with taskRunId := some taskRunId, stage := .collecting })
    (queueError "accept start requires start_pending job")

/-- `mark_file_archived`. -/
def markFileArchived (key : Bytes) (ordinal : ℤ) (db : QueueDatabase) :
    Except AgentError QueueDatabase :=
  db.updateFile (fileAt key ordinal) (fun file => { file with archiveState := .archived })
    (queueError "pending file does not exist")

/-- `save_manifest`: the manifest of a collecting job, which then waits for its delivery. -/
def saveManifest (key : Bytes) (request : RawFileManifestRequest) (db : QueueDatabase) :
    Except AgentError QueueDatabase := do
  let requestJson ← encodeRawFileManifestRequest J request
  let inserted ← db.insertDelivery
    { executionKey := key, requestType := .manifest, idempotencyKey := request.idempotencyKey,
      requestJson := requestJson } "save manifest"
  inserted.updateJob (jobIn key [.collecting]) (fun job => { job with stage := .manifestPending })
    (queueError "save manifest requires collecting job")

/-- The planned file of a job under an archive path. -/
def fileUnder (key path : Bytes) (file : PendingFile) : Bool :=
  file.executionKey == key && file.archivePath == path

/-- Give the file under an archive path its identifier. -/
def mapRawFileId (key : Bytes) (db : QueueDatabase) (mapped : RawFileManifestEntry × Bytes) :
    Except AgentError QueueDatabase :=
  db.updateFile (fileUnder key mapped.1.storagePath)
    (fun file => { file with rawFileId := some mapped.2 })
    (queueError "manifest file does not exist")

/-- `accept_manifest`: the identifiers of the registered files, in the order of the persisted
manifest. A job in another stage keeps its stage. -/
def acceptManifest (key : Bytes) (rawFileIds : List Bytes) (db : QueueDatabase) :
    Except AgentError QueueDatabase := do
  match db.delivery? key .manifest with
  | none => throw (queueError "persisted manifest does not exist")
  | some delivery =>
    let manifest ← decodeRawFileManifestRequest J (readText delivery.requestJson)
    if manifest.files.length ≠ rawFileIds.length then
      throw (queueError "manifest raw ID count mismatch")
    let mapped ← (manifest.files.zip rawFileIds).foldlM (mapRawFileId key) db
    pure (mapped.updateJobs (jobIn key [.manifestPending])
      fun job => { job with stage := .reportBuilding })

/-- Record the outcome of the file at one place. -/
def recordOutcome (key : Bytes) (db : QueueDatabase) (outcome : Bool × ℕ) : QueueDatabase :=
  db.updateFiles (fileAt key outcome.2)
    fun file => { file with parsedWithoutErrors := some outcome.1 }

/-- `save_report`: the report of a job with the outcome of every planned file. A job that is
neither collecting nor building its report keeps its stage. -/
def saveReport (key : Bytes) (request : TaskRunReportRequest) (parsedWithoutErrors : List Bool)
    (db : QueueDatabase) : Except AgentError QueueDatabase := do
  let requestJson ← encodeTaskRunReportRequest J request
  if (db.filesOf key).length ≠ parsedWithoutErrors.length then
    throw (queueError "report file outcome count mismatch")
  let inserted ← db.insertDelivery
    { executionKey := key, requestType := .report, idempotencyKey := request.idempotencyKey,
      requestJson := requestJson } "save report"
  let recorded := parsedWithoutErrors.zipIdx.foldl (recordOutcome key) inserted
  pure (recorded.updateJobs (jobIn key [.collecting, .reportBuilding])
    fun job => { job with stage := .reportPending })

/-- The processed row of a cleanly parsed file. -/
def processedRow (job : PendingJob) (now : Bytes) (file : PendingFile) : ProcessedFile where
  taskId := job.taskId
  fingerprint := file.fingerprint
  sourcePath := file.sourcePath
  fileHash := file.fileHash
  processedAt := now
  executionKey := job.executionKey

/-- Add a processed row unless its fingerprint is there. -/
def insertProcessed (processed : List ProcessedFile) (row : ProcessedFile) : List ProcessedFile :=
  if processed.any fun other => other.taskId == row.taskId && other.fingerprint == row.fingerprint
  then processed else processed ++ [row]

/-- The newest rows of a task: by time, then by row number, both descending. -/
def newestProcessed (capacity : ℕ) (taskId : Bytes) (processed : List ProcessedFile) :
    List ProcessedFile :=
  ((processed.filter fun row => row.taskId == taskId).reverse.mergeSort
    fun left right => !Json.keyLt left.processedAt right.processedAt).take capacity

/-- Forget the older rows of a task. -/
def trimProcessed (capacity : ℕ) (taskId : Bytes) (processed : List ProcessedFile) :
    List ProcessedFile :=
  let kept := newestProcessed capacity taskId processed
  processed.filter fun row => row.taskId != taskId || kept.contains row

/-- `complete_job`: a delivered report ends its job; the cleanly parsed files count as
processed. -/
def completeJob (store : AgentQueueStore) (key now : Bytes) (db : QueueDatabase) :
    Except AgentError QueueDatabase :=
  match db.jobs.filter (jobIn key [.reportPending]) with
  | [job] =>
    let clean := (db.filesOf key).filter fun file => file.parsedWithoutErrors == some true
    let added := (clean.map (processedRow job now)).foldl insertProcessed db.processed
    let trimmed := trimProcessed store.processedFingerprintCapacity job.taskId added
    .ok ({ db with processed := trimmed }.deleteJobs (jobIn key [.reportPending]))
  | _ => .error (queueError "complete job requires report_pending job")

/-- `discard_start_pending_job`: forget a job that never got to plan anything. -/
def discardStartPendingJob (key : Bytes) (db : QueueDatabase) : Except AgentError QueueDatabase :=
  if (db.filesOf key).length ≠ 0 then
    .error (queueError "discard requires a job without a file plan")
  else if db.jobs.countP (jobIn key [.startPending]) = 1 then
    .ok (db.deleteJobs (jobIn key [.startPending]))
  else .error (.queue (text "discard requires a start_pending job: " ++ key))

/-- The stage a parked job is to return to. -/
def resumeStageOf (key : Bytes) (job : PendingJob) : Except AgentError Stage :=
  match job.stage, job.retryStage with
  | .retryWait, some stage =>
    if isExecutableStage stage then .ok stage
    else .error (.queue (text "retry_wait job has no executable retry_stage: " ++ key))
  | .retryWait, none => .error (.queue (text "retry_wait job has no executable retry_stage: " ++ key))
  | .requiresAttention, _ => .error (.queue (text "job is already requires_attention: " ++ key))
  | stage, _ => .ok stage

/-- `mark_requires_attention`: park a job and keep the stage it is to return to. -/
def markRequiresAttention (key errorKind : Bytes) (db : QueueDatabase) :
    Except AgentError QueueDatabase := do
  match db.job? key with
  | none => throw (queueError "mark requires attention requires a pending job")
  | some job =>
    let resumeStage ← resumeStageOf key job
    db.updateJob (jobOf key)
      (fun job => { job with
        stage := .requiresAttention, retryStage := some resumeStage,
        lastErrorKind := some errorKind })
      (queueError "mark requires attention requires a pending job")

/-- The delivery of an idempotency key. -/
def deliveryIs (type : RequestType) (idempotencyKey : Bytes) (delivery : PendingDelivery) : Bool :=
  delivery.requestType == type && delivery.idempotencyKey == idempotencyKey

/-- The stages a failed delivery parks. -/
def deliveryStages : List Stage := [.startPending, .manifestPending, .reportPending]

/-- A delivery after a failed attempt. -/
def PendingDelivery.failed (delivery : PendingDelivery) (nextAttemptAt : ℤ) : PendingDelivery :=
  { delivery with
    attemptCount := delivery.attemptCount + 1, nextAttemptAt := some nextAttemptAt }

/-- A job after a failed attempt to deliver: it waits, or is parked when the failure is
permanent. -/
def PendingJob.failed (job : PendingJob) (retryable : Bool) (errorKind : Bytes)
    (nextAttemptAt : ℤ) : PendingJob :=
  { job with
    retryStage := some job.stage
    stage := if retryable then .retryWait else .requiresAttention
    attemptCount := job.attemptCount + 1
    nextAttemptAt := some nextAttemptAt
    lastErrorKind := some errorKind }

/-- `record_delivery_failure`: count the attempt and let the job wait, or park it when the
failure is permanent. A job that does not wait for a delivery keeps its stage. -/
def recordDeliveryFailure (type : RequestType) (idempotencyKey : Bytes) (retryable : Bool)
    (errorKind : Bytes) (retryDelay now : ℤ) (db : QueueDatabase) :
    Except AgentError QueueDatabase :=
  if db.deliveries.countP (deliveryIs type idempotencyKey) = 1 then
    let counted := db.updateDeliveries (deliveryIs type idempotencyKey)
      fun delivery => delivery.failed (now + retryDelay)
    match db.deliveryOf? type idempotencyKey with
    | some delivery => .ok (counted.updateJobs (jobIn delivery.executionKey deliveryStages)
        fun job => job.failed retryable errorKind (now + retryDelay))
    | none => .ok counted
  else .error (queueError "delivery does not exist")

/-- Leave the waiting stage. A waiting job without a stage to return to violates the schema. -/
def resumed (job : PendingJob) : PendingJob :=
  { job with stage := job.retryStage.getD job.stage, retryStage := none, nextAttemptAt := none }

/-- `resume_delivery`: a waiting job returns to its delivery; any other is left alone. -/
def resumeDelivery (type : RequestType) (idempotencyKey : Bytes) (db : QueueDatabase) :
    Except AgentError QueueDatabase :=
  match db.deliveryOf? type idempotencyKey with
  | none => .error (queueError "delivery does not exist")
  | some delivery =>
    let waiting := jobIn delivery.executionKey [.retryWait]
    if db.jobs.any fun job => waiting job && job.retryStage.isNone then
      .error (sqliteError "resume delivery")
    else .ok (db.updateJobs waiting resumed)

/-- What `retry_attention_job` did. -/
inductive QueueRetryStatus
  | resumed
  | notAttention
  deriving DecidableEq, Repr

/-- The stage an operator's retry returns a parked job to. -/
def attentionStage (key : Bytes) (job : PendingJob) : Except AgentError Stage :=
  match job.retryStage with
  | some stage =>
    if isExecutableStage stage then .ok stage
    else .error (.queue (text "saved retry_stage '" ++ stage.toText ++ text "' of job " ++ key ++
      text " is not an executable stage"))
  | none =>
    if job.lastErrorKind = some (text "archive_conflict") then .ok .collecting
    else .error (.queue (text "cannot determine resume stage for job " ++ key ++
      text " (retry_stage empty, error_kind=" ++ job.lastErrorKind.getD [] ++
      text "); inspect the job manually"))

/-- A parked job that returns to a stage. -/
def PendingJob.unparked (job : PendingJob) (stage : Stage) : PendingJob :=
  { job with stage := stage, retryStage := none, nextAttemptAt := none }

/-- A delivery that need not wait. -/
def PendingDelivery.due (delivery : PendingDelivery) : PendingDelivery :=
  { delivery with nextAttemptAt := none }

/-- `retry_attention_job`: return a parked job to the stage it was parked in; its deliveries
no longer wait. -/
def retryAttentionJob (key : Bytes) (db : QueueDatabase) :
    Except AgentError (QueueRetryStatus × QueueDatabase) := do
  match db.job? key with
  | none => throw (.queue (text "pending job does not exist: " ++ key))
  | some job =>
    if job.stage = .requiresAttention then
      let stage ← attentionStage key job
      let returned := db.updateJobs (jobIn key [.requiresAttention]) fun job => job.unparked stage
      pure (.resumed, returned.updateDeliveries (fun delivery => delivery.executionKey == key)
        PendingDelivery.due)
    else pure (.notAttention, db)

/-! ## Questions -/

/-- `has_capacity`. -/
def hasCapacity (store : AgentQueueStore) (db : QueueDatabase) : Bool :=
  decide (db.jobs.length < store.maxPendingJobs)

/-- `is_file_in_flight`: some job of the task plans the fingerprint. -/
def isFileInFlight (taskId fingerprint : Bytes) (db : QueueDatabase) : Bool :=
  db.files.any fun file => file.fingerprint == fingerprint &&
    db.jobs.any fun job => job.executionKey == file.executionKey && job.taskId == taskId

/-- `is_file_occupied`: the fingerprint is processed, or some job of the task plans it. -/
def isFileOccupied (taskId fingerprint : Bytes) (db : QueueDatabase) : Bool :=
  (db.processed.any fun row => row.taskId == taskId && row.fingerprint == fingerprint) ||
    isFileInFlight taskId fingerprint db

/-- `delivery_attempt_count`. -/
def deliveryAttemptCount (type : RequestType) (idempotencyKey : Bytes) (db : QueueDatabase) :
    Except AgentError ℕ :=
  match db.deliveryOf? type idempotencyKey with
  | some delivery => .ok delivery.attemptCount
  | none => .error (queueError "delivery does not exist")

/-- `delivery_retry_remaining`: how long the next attempt is to wait at a time. -/
def deliveryRetryRemaining (type : RequestType) (idempotencyKey : Bytes) (now : ℤ)
    (db : QueueDatabase) : Except AgentError ℤ :=
  match db.deliveryOf? type idempotencyKey with
  | some delivery => .ok (max 0 ((delivery.nextAttemptAt.map fun next => next - now).getD 0))
  | none => .error (queueError "delivery does not exist")

/-- `delivery_execution_key`. -/
def deliveryExecutionKey (type : RequestType) (idempotencyKey : Bytes) (db : QueueDatabase) :
    Except AgentError Bytes :=
  match db.deliveryOf? type idempotencyKey with
  | some delivery => .ok (readText delivery.executionKey)
  | none => .error (queueError "delivery does not exist")

end LabBridge.Agent
