import LabBridge.Agent.ExecutionRequestCodec
import LabBridge.Agent.QueueTables
import Mathlib.Data.List.Sort
import Mathlib.Data.List.TakeWhile

/-!
# The operations of the agent queue

Each operation is one transaction: it gives the new database or raises and leaves the old
one. A constraint of the schema raises like a check of the code. Texts are read back as
zero-terminated strings.
-/

namespace LabBridge.Agent

open ByteText JsonText LabBridge.Core

/-- An open queue: the node it belongs to and its limits. -/
structure AgentQueueStore where
  nodeCode : Bytes
  maxPendingJobs : ℕ
  processedFingerprintCapacity : ℕ

variable (J : Nlohmann)

/-- `read_text`: a column as a zero-terminated string. -/
def readText (column : Bytes) : Bytes := column.takeWhile fun b => b != 0

/-- A text is read back whole exactly when it holds no zero byte. -/
theorem readText_eq_self_iff {column : Bytes} : readText column = column ↔ 0 ∉ column := by
  rw [readText, List.takeWhile_eq_self_iff]
  constructor
  · intro h hzero
    exact absurd (h 0 hzero) (by simp)
  · intro h b hb
    rw [bne_iff_ne]
    rintro rfl
    exact h hb

theorem readText_of_notMem {column : Bytes} (h : 0 ∉ column) : readText column = column :=
  readText_eq_self_iff.mpr h

/-- The exception of a failed statement. -/
def sqliteError (operation : String) : AgentError :=
  .queue (text operation ++ text " failed: sqlite code=19")

/-- An exception of the store itself. -/
def queueError (message : String) : AgentError := .queue (text message)

namespace QueueDatabase

variable (db : QueueDatabase)

/-- The job of an execution key. -/
def job? (key : Bytes) : Option PendingJob := db.jobs.find? fun job => job.executionKey == key

/-- The delivery of a job. -/
def delivery? (key : Bytes) (type : RequestType) : Option PendingDelivery :=
  db.deliveries.find? fun delivery => delivery.executionKey == key && delivery.requestType == type

/-- The delivery of an idempotency key. -/
def deliveryOf? (type : RequestType) (idempotencyKey : Bytes) : Option PendingDelivery :=
  db.deliveries.find? fun delivery =>
    delivery.requestType == type && delivery.idempotencyKey == idempotencyKey

/-- The plan of a job. -/
def filesOf (key : Bytes) : List PendingFile :=
  db.files.filter fun file => file.executionKey == key

/-- Change the jobs that a statement selects. -/
def updateJobs (selects : PendingJob → Bool) (change : PendingJob → PendingJob) : QueueDatabase :=
  { db with jobs := db.jobs.map fun job => if selects job then change job else job }

/-- Change the files that a statement selects. -/
def updateFiles (selects : PendingFile → Bool) (change : PendingFile → PendingFile) :
    QueueDatabase :=
  { db with files := db.files.map fun file => if selects file then change file else file }

/-- Change the deliveries that a statement selects. -/
def updateDeliveries (selects : PendingDelivery → Bool)
    (change : PendingDelivery → PendingDelivery) : QueueDatabase :=
  { db with deliveries := db.deliveries.map fun delivery =>
      if selects delivery then change delivery else delivery }

/-- Change the jobs a statement selects; raise unless it was exactly one. -/
def updateJob (selects : PendingJob → Bool) (change : PendingJob → PendingJob)
    (refusal : AgentError) : Except AgentError QueueDatabase :=
  if db.jobs.countP selects = 1 then .ok (db.updateJobs selects change) else .error refusal

/-- Change the files a statement selects; raise unless it was exactly one. -/
def updateFile (selects : PendingFile → Bool) (change : PendingFile → PendingFile)
    (refusal : AgentError) : Except AgentError QueueDatabase :=
  if db.files.countP selects = 1 then .ok (db.updateFiles selects change) else .error refusal

/-- Delete the jobs a statement selects, with their files and deliveries. -/
def deleteJobs (selects : PendingJob → Bool) : QueueDatabase :=
  let gone := (db.jobs.filter selects).map PendingJob.executionKey
  { db with
    jobs := db.jobs.filter fun job => !selects job
    files := db.files.filter fun file => !gone.contains file.executionKey
    deliveries := db.deliveries.filter fun delivery => !gone.contains delivery.executionKey }

/-- Insert a job under a new key. -/
def insertJob (job : PendingJob) : Except AgentError QueueDatabase :=
  if (db.job? job.executionKey).isSome then .error (sqliteError "insert pending job")
  else .ok { db with jobs := db.jobs ++ [job] }

/-- Insert a delivery: its job exists, and neither its kind nor its key is taken. -/
def insertDelivery (delivery : PendingDelivery) (operation : String) :
    Except AgentError QueueDatabase :=
  if (db.job? delivery.executionKey).isNone ∨
      (db.delivery? delivery.executionKey delivery.requestType).isSome ∨
      (db.deliveryOf? delivery.requestType delivery.idempotencyKey).isSome then
    .error (sqliteError operation)
  else .ok { db with deliveries := db.deliveries ++ [delivery] }

/-- Insert a planned file: its job exists, and neither its place nor its fingerprint is taken. -/
def insertFile (file : PendingFile) : Except AgentError QueueDatabase :=
  if (db.job? file.executionKey).isNone ∨ file.sizeBytes < 0 ∨
      (db.filesOf file.executionKey).any (fun other =>
        other.ordinal == file.ordinal || other.fingerprint == file.fingerprint) then
    .error (sqliteError "insert file plan")
  else .ok { db with files := db.files ++ [file] }

end QueueDatabase

/-- The row of a planned file. -/
def PendingFilePlan.row (key : Bytes) (file : PendingFilePlan) : PendingFile where
  executionKey := key
  ordinal := file.ordinal
  sourcePath := file.sourcePath
  originalName := file.originalName
  sourceMtime := file.sourceMtime
  sizeBytes := file.sizeBytes
  fileHash := file.fileHash
  fingerprint := file.fingerprint
  archivePath := file.archivePath
  inputPath := file.inputPath

/-! ## Loading -/

/-- A planned file as it is read back. -/
def PendingFile.plan (file : PendingFile) : PendingFilePlan where
  ordinal := file.ordinal
  sourcePath := readText file.sourcePath
  originalName := readText file.originalName
  sourceMtime := readText file.sourceMtime
  sizeBytes := file.sizeBytes
  fileHash := readText file.fileHash
  fingerprint := readText file.fingerprint
  archivePath := readText file.archivePath
  archiveState := file.archiveState
  rawFileId := readText (file.rawFileId.getD [])
  parsedWithoutErrors := file.parsedWithoutErrors == some true
  inputPath := readText file.inputPath
  errorDetail := readText (file.errorDetail.getD [])

/-- The plan of a job in order. -/
def recoverFilePlan (db : QueueDatabase) (key : Bytes) : List PendingFilePlan :=
  ((db.filesOf key).insertionSort fun left right => left.ordinal ≤ right.ordinal).map
    PendingFile.plan

/-- A text field of a persisted failure; it may be empty, and only an optional one absent. -/
def failureField (item : Json) (field : String) (fallback : Option Bytes := none) :
    Except AgentError Bytes :=
  match item.field? field, fallback with
  | some (.str value), _ => .ok value
  | none, some value => .ok value
  | _, _ => .error (queueError "invalid persisted file failures: ")

/-- Read a persisted file failure. -/
def decodePersistedFailure (item : Json) : Except AgentError TaskRunReportFailedFile := do
  let sourcePath ← failureField item "source_path"
  let originalName ← failureField item "original_name"
  let stage ← failureField item "stage"
  let message ← failureField item "message" (some [])
  let archiveRawFileId ← failureField item "archive_raw_file_id" (some [])
  pure { sourcePath, originalName, stage, message, archiveRawFileId }

/-- Read the persisted failures of a job. -/
def decodeFailedFiles (stored : Bytes) : Except AgentError (List TaskRunReportFailedFile) :=
  if stored = [] then .ok []
  else
    match J.parse stored with
    | some (.arr items) => items.mapM decodePersistedFailure
    | some _ => .error (queueError "file failures must be an array")
    | none => .error (.queue (text "invalid persisted file failures: " ++ J.parseFailure stored))

/-- The persisted text of the failures of a job. -/
def encodeFileFailures (failures : List TaskRunReportFailedFile) : Except AgentError Bytes :=
  J.dumped (.arr (failures.map encodeFailedFile))

/-- A persisted request, when there is one. -/
def readRequest {α : Type} (decode : Bytes → Except AgentError α) (absent : α)
    (delivery : Option PendingDelivery) : Except AgentError α :=
  let stored := readText ((delivery.map PendingDelivery.requestJson).getD [])
  if stored = [] then .ok absent else decode stored

/-- The stage a job is executed in: a waiting one in the stage it returns to. -/
def PendingJob.executionStage (job : PendingJob) : Option Stage :=
  if job.stage = .retryWait then job.retryStage else some job.stage

/-- `read_recovered_job`: a job with its requests and its plan. -/
def readRecoveredJob (db : QueueDatabase) (job : PendingJob) (start : PendingDelivery) :
    Except AgentError RecoveredJob := do
  let executionKey := readText job.executionKey
  let task ← decodeTaskConfig J (readText job.taskConfigJson)
  let startRequest ← decodeStartTaskRunRequest J (readText start.requestJson)
  let manifestRequest ← readRequest (decodeRawFileManifestRequest J) {}
    (db.delivery? job.executionKey .manifest)
  let reportRequest ← readRequest (decodeTaskRunReportRequest J) {}
    (db.delivery? job.executionKey .report)
  let retryFiles ← decodeRetryFiles J (readText job.retryFilesJson)
  let failuresJson := readText (job.fileFailuresJson.getD [])
  let fileFailures ← decodeFailedFiles J failuresJson
  pure {
    executionKey, task, startRequest,
    stage := job.executionStage,
    taskRunId := readText (job.taskRunId.getD []),
    files := recoverFilePlan db executionKey,
    manifestRequest, reportRequest, retryFiles,
    hasFileFailures := !failuresJson.isEmpty,
    fileFailures }

/-- The order in which jobs are recovered. -/
def recoveredBefore (left right : PendingJob) : Bool :=
  Json.keyLt left.createdAt right.createdAt ||
    (left.createdAt == right.createdAt && !Json.keyLt right.executionKey left.executionKey)

/-- The rows that are recovered, oldest first: the jobs that do not wait for attention, with their
starts. -/
def recoveredRows (db : QueueDatabase) : List (PendingJob × PendingDelivery) :=
  ((db.jobs.filter fun job => job.stage != .requiresAttention).mergeSort recoveredBefore).filterMap
    fun job => (db.delivery? job.executionKey .start).map fun start => (job, start)

theorem mem_recoveredRows {db : QueueDatabase} {found : PendingJob × PendingDelivery} :
    found ∈ recoveredRows db ↔ found.1 ∈ db.jobs ∧ found.1.stage ≠ .requiresAttention ∧
      db.delivery? found.1.executionKey .start = some found.2 := by
  unfold recoveredRows
  rw [List.mem_filterMap]
  constructor
  · rintro ⟨job, hjob, hstart⟩
    obtain ⟨start, hdelivery, rfl⟩ := Option.map_eq_some_iff.mp hstart
    rw [List.mem_mergeSort, List.mem_filter, bne_iff_ne] at hjob
    exact ⟨hjob.1, hjob.2, hdelivery⟩
  · rintro ⟨hjob, hstage, hdelivery⟩
    refine ⟨found.1, ?_, by rw [hdelivery]; rfl⟩
    rw [List.mem_mergeSort, List.mem_filter, bne_iff_ne]
    exact ⟨hjob, hstage⟩

/-- `recover_jobs`. -/
def recoverJobs (db : QueueDatabase) : Except AgentError (List RecoveredJob) :=
  (recoveredRows db).mapM fun found => readRecoveredJob J db found.1 found.2

/-- `find_job`: a job in whatever stage. -/
def findJob (db : QueueDatabase) (key : Bytes) : Except AgentError (Option RecoveredJob) :=
  match db.job? key, db.delivery? key .start with
  | some job, some start => (readRecoveredJob J db job start).map some
  | _, _ => .ok none

/-- `load_job`: a job that does not wait for attention. -/
def loadJob (db : QueueDatabase) (key : Bytes) : Except AgentError RecoveredJob :=
  match db.job? key, db.delivery? key .start with
  | some job, some start =>
    if job.stage = .requiresAttention then
      .error (.queue (text "pending job does not exist: " ++ key))
    else readRecoveredJob J db job start
  | _, _ => .error (.queue (text "pending job does not exist: " ++ key))

end LabBridge.Agent
