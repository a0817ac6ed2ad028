import LabBridge.Server.Statement
import LabBridge.Server.TaskRunFilesJson

/-!
# Starting, finishing and requesting runs

`TaskRunService` with the repository methods it calls. A scheduled start creates a run or
finds the one under its execution key. A manual or retry start moves the pending run an
operator asked for to running. Refusals keep the texts and the order of the source.
-/

namespace LabBridge.Server

open ByteText LabBridge.Core JsonText

variable (R : Runtime)

namespace TaskRunRepository

/-- `create`. -/
def create (record : TaskRunRecord) : Tx Bytes := do
  match ← sql (.insertRun record) with
  | none => raise "failed to create task run"
  | some id => pure id

/-- `create_or_find_scheduled`. -/
def createOrFindScheduled (record : TaskRunRecord) : Tx TaskRunStart := do
  match ← sql (.insertScheduledRun record) with
  | some id => pure ⟨{ record with id := id }, true⟩
  | none =>
    match ← sql (.selectRunByNodeKey record.nodeCode record.executionKey) with
    | none => raise "failed to create or find scheduled task run"
    | some existing => pure ⟨existing, false⟩

/-- A printed document; printing throws on a text that is not UTF-8. -/
def printed : Option Bytes → Tx Bytes
  | some json => pure json
  | none => raise "invalid UTF-8 byte"

/-- `create_or_find_manual`; nothing when another pending run holds the task. -/
def createOrFindManual (request : ManualTaskRunRequest) : Tx (Option TaskRunStart) := do
  let retryFilesJson ← printed
    (if request.retryFiles = [] then some [] else toRetryFilesJson R.json request.retryFiles)
  match ← sql (.insertManualRun request retryFilesJson) with
  | some id =>
    match ← sql (.selectRunById id) with
    | none => raise "created manual task run is not readable"
    | some created => pure (some ⟨created, true⟩)
  | none =>
    match ← sql (.selectRunByKey request.executionKey) with
    | none => pure none
    | some existing => pure (some ⟨existing, false⟩)

/-- `find_failed_files`. -/
def findFailedFiles (taskRunId : Bytes) : Tx (Option (List TaskRunFailedFile)) := do
  match ← sql (.selectFailedFiles taskRunId) with
  | none => pure none
  | some stored => pure (parseFailedFilesJson R.json stored)

/-- `find_retry_files`. -/
def findRetryFiles (taskRunId : Bytes) : Tx (Option (List TaskRunRetryFile)) := do
  match ← sql (.selectRetryFiles taskRunId) with
  | none => pure none
  | some stored => pure (parseRetryFilesJson R.json stored)

end TaskRunRepository

/-- White space of the C locale. -/
def isSpace (b : UInt8) : Bool := b == 32 || 9 ≤ b && b ≤ 13

/-- Nothing but white space. -/
def isBlank (value : Bytes) : Bool := value.all isSpace

/-- The rule types an agent can run. -/
def isSupportedRuleType (ruleType : Bytes) : Bool :=
  ruleType == text "required_fields" || ruleType == text "basic_timestamp_format"

/-- A text that holds a JSON object. -/
def parseJsonObject (stored : Bytes) : Option Json :=
  match R.json.parse stored with
  | some (.obj fields) => some (.obj fields)
  | _ => none

/-- The source check of `validate_task_executable`: a root path and the CSV extension. -/
def isCsvSource (configJson : Bytes) : Bool :=
  match parseJsonObject R configJson with
  | none => false
  | some config =>
    match config.field? "root_path", config.field? "extension" with
    | some (.str root), some (.str extension) => !isBlank root && extension == text ".csv"
    | _, _ => false

/-- Whether a text holds the empty JSON object. -/
def isEmptyObject (stored : Bytes) : Bool :=
  match parseJsonObject R stored with
  | some (.obj []) => true
  | _ => false

/-- The rule part of `validate_task_executable`. -/
def validateRules : List Bytes → Tx Unit
  | [] => pure ()
  | qcRuleId :: rest => do
    match ← sql (.selectRule qcRuleId) with
    | none => refuse (.notFound (text "QC rule is not found"))
    | some rule =>
      if !rule.enabled then refuse (.conflict (text "QC rule is disabled"))
      else if !isSupportedRuleType rule.ruleType then
        refuse (.conflict (text "QC rule type is not executable"))
      else if !isEmptyObject R rule.ruleConfigJson then
        refuse (.conflict (text "QC rule config is not executable"))
      else validateRules rest

/-- `validate_task_executable`. -/
def validateTaskExecutable (task : TaskRecord) (qcRuleIds : List Bytes) : Tx Unit := do
  match ← sql (.selectNodeByCode task.nodeCode) with
  | none => refuse (.notFound (text "node is not found"))
  | some _ =>
    match ← sql (.selectDataSource task.dataSourceId) with
    | none => refuse (.notFound (text "data source is not found"))
    | some source =>
      if source.nodeCode ≠ task.nodeCode then
        refuse (.conflict (text "data source does not belong to node"))
      else if !source.enabled then refuse (.conflict (text "data source is disabled"))
      else if source.sourceType ≠ .localDirectory then
        refuse (.conflict (text "data source type is not executable"))
      else if !isCsvSource R source.configJson then
        refuse (.conflict (text "data source config is not executable by CSV tasks"))
      else validateRules R qcRuleIds

/-- The hexadecimal digits. -/
def isHexadecimal (value : Bytes) : Bool :=
  value.all fun b => 48 ≤ b && b ≤ 57 || 97 ≤ b && b ≤ 102 || 65 ≤ b && b ≤ 70

/-- The key of one operator action: 32 hexadecimal characters. -/
def isOperatorIdempotencyKey (key : Bytes) : Bool := key.length == 32 && isHexadecimal key

/-- A decimal number from 1 to the largest serial key. -/
def isPositiveId (value : Bytes) : Bool :=
  value != [] && value.all (fun b => decide (IsDigit b)) && 0 < numeralValue value &&
    numeralValue value < 2 ^ 63

namespace TaskRunService

open TaskRunRepository

/-- `replay_result`: the run as it is stored. -/
def replayResult (run : TaskRunRecord) : TaskRunCreateResult :=
  ⟨run.id, true, run.status.toStorage⟩

/-- `start_manual`. -/
def startManual (request : StartTaskRunRequest) : Tx TaskRunCreateResult := do
  if request.executionKey = [] ∨ 128 < request.executionKey.length then
    refuse (.invalid (text "execution_key is required"))
  else if request.scheduledFor ≠ [] then
    refuse (.invalid (text "scheduled_for must be empty for manual task runs"))
  else if !isRfc3339Utc request.startedAt then
    refuse (.invalid (text "started_at must be an RFC 3339 UTC timestamp"))
  else
    match ← sql (.selectRunByKey request.executionKey) with
    | none =>
      refuse (.conflict (text "execution_key does not match an accepted manual task run"))
    | some run =>
      if run.nodeCode ≠ request.nodeCode ∨ run.taskId ≠ request.taskId ∨
          run.triggerType ≠ request.triggerType then
        refuse (.conflict (text "execution_key does not match an accepted manual task run"))
      else if run.status ≠ .pending then pure (replayResult run)
      else if !(← sql (.selectTaskForUpdate run.taskId)) then
        refuse (.notFound (text "task is not found"))
      else
        match ← sql (.selectRunForUpdate run.id) with
        | none => refuse (.notFound (text "task run is not found"))
        | some locked =>
          if locked.status ≠ .pending then pure (replayResult locked)
          else do
            sql (.updateManualRunning run.id request.startedAt)
            pure ⟨run.id, false, text "running"⟩

/-- The checks on a start that carries a key or a slot. -/
def checkScheduled (request : StartTaskRunRequest) : Option Failure :=
  if request.executionKey = [] then some (.invalid (text "execution_key is required"))
  else if 128 < request.executionKey.length then
    some (.invalid (text "execution_key must not exceed 128 characters"))
  else if request.triggerType ≠ text "scheduled" then
    some (.invalid (text "trigger_type must be scheduled"))
  else if !isRfc3339Utc request.scheduledFor then
    some (.invalid (text "scheduled_for must be an RFC 3339 UTC timestamp"))
  else if !isRfc3339Utc request.startedAt then
    some (.invalid (text "started_at must be an RFC 3339 UTC timestamp"))
  else none

/-- Whether a start carries a key or a slot. -/
def isScheduledStart (request : StartTaskRunRequest) : Bool :=
  request.executionKey != [] || request.scheduledFor != []

/-- The run a scheduled start asks for. -/
def scheduledRecord (request : StartTaskRunRequest) : TaskRunRecord where
  taskId := request.taskId
  nodeCode := request.nodeCode
  status := .running
  startedAt := request.startedAt
  triggerType := if request.triggerType = [] then text "scheduled" else request.triggerType
  executionKey := request.executionKey
  scheduledFor := request.scheduledFor

/-- The branch of `start` for runs no operator asked for. -/
def startScheduled (request : StartTaskRunRequest) : Tx TaskRunCreateResult := do
  match if isScheduledStart request then checkScheduled request else none with
  | some failure => refuse failure
  | none =>
    match ← sql (.selectTask request.taskId) with
    | none => refuse (.notFound (text "task is not found"))
    | some task =>
      if !task.enabled then refuse (.conflict (text "task is disabled"))
      else if task.nodeCode ≠ request.nodeCode then
        refuse (.conflict (text "task does not belong to node"))
      else if !isScheduledStart request then do
        let id ← create (scheduledRecord request)
        pure ⟨id, false, text "running"⟩
      else do
        let started ← createOrFindScheduled (scheduledRecord request)
        if started.created = false ∧ (started.taskRun.taskId ≠ request.taskId ∨
            started.taskRun.scheduledFor ≠ request.scheduledFor) then
          refuse (.conflict
            (text "execution_key was already used for a different scheduled run"))
        else pure ⟨started.taskRun.id, !started.created, text "running"⟩

/-- Starts of runs an operator asked for. -/
def isManualStart (request : StartTaskRunRequest) : Bool :=
  request.triggerType == text "manual" || request.triggerType == text "retry"

/-- `start`. -/
def start (request : StartTaskRunRequest) : Tx TaskRunCreateResult :=
  if request.nodeCode = [] then refuse (.invalid (text "node_code is required"))
  else if request.taskId = [] then refuse (.invalid (text "task_id is required"))
  else if isManualStart request then startManual request
  else startScheduled request

/-- `finish`. -/
def finish (request : FinishTaskRunRequest) : Tx Unit := do
  if request.taskRunId = [] then refuse (.invalid (text "task_run_id is required"))
  else if !request.status.isTerminal then
    refuse (.invalid (text "finish status must be succeeded or failed"))
  else
    match ← sql (.selectRunById request.taskRunId) with
    | none => refuse (.notFound (text "task run is not found"))
    | some run => do
      let failedFilesJson ← printed
        (if request.hasFailedFiles then toFailedFilesJson R.json request.failedFiles
        else some [])
      sql (.updateRunFinish { run with
        status := request.status
        finishedAt := request.finishedAt
        itemsTotal := request.itemsTotal
        itemsSuccess := request.itemsSuccess
        itemsFailed := request.itemsFailed
        errorSummary := request.errorSummary
        failedFilesJson := failedFilesJson })

/-- `find_run`. -/
def findRun (taskRunId : Bytes) : Tx (Option TaskRunRecord) :=
  if taskRunId = [] then pure none else sql (.selectRunById taskRunId)

/-- `find_retry_files` of the service. -/
def findRetryFiles (taskRunId : Bytes) : Tx (Option (List TaskRunRetryFile)) :=
  if taskRunId = [] then pure none else TaskRunRepository.findRetryFiles R taskRunId

/-- `replayed_result`: the answer to a repeated operator request. -/
def replayedResult (run : TaskRunRecord) : ManualTaskRunResult :=
  ⟨run.id, run.status.toStorage, true⟩

/-- The execution key of an operator action. -/
def operatorKey (idempotencyKey : Bytes) : Bytes := text "operator:" ++ idempotencyKey

/-- The refusal of a key that named another action. -/
def reusedKey : Failure :=
  .conflict (text "idempotency_key was already used for a different request")

/-- The refusal of a key of the wrong form. -/
def malformedKey : Failure :=
  .invalid (text "idempotency_key must be 32 hexadecimal characters")

/-- The refusal while a task waits for another operator run. -/
def alreadyPending (run : TaskRunRecord) : Failure :=
  .conflict (text "task already has a pending manual run: " ++ run.id)

/-- The part of `apply_manual_run` after the replay decision. -/
def acceptManualRun (triggerType taskId retryOfRunId executionKey : Bytes)
    (retryFiles : List TaskRunRetryFile) : Tx ManualTaskRunResult := do
  if !isPositiveId taskId then refuse (.invalid (text "task_id must be a positive integer"))
  else if !(← sql (.selectTaskForUpdate taskId)) then
    refuse (.notFound (text "task is not found"))
  else
    match ← sql (.selectTask taskId) with
    | none => refuse (.notFound (text "task is not found"))
    | some task =>
      if !task.enabled then refuse (.conflict (text "task is disabled"))
      else do
        let qcRuleIds ← sql (.selectTaskQcRuleIds taskId)
        validateTaskExecutable R task qcRuleIds
        let pending ← sql (.selectPendingManual taskId)
        match pending.filter fun run => run.executionKey != executionKey with
        | some run => refuse (alreadyPending run)
        | none =>
          match ← createOrFindManual R
              { taskId, nodeCode := task.nodeCode, triggerType, executionKey, retryOfRunId,
                retryFiles } with
          | some started =>
            pure ⟨started.taskRun.id, started.taskRun.status.toStorage, !started.created⟩
          | none =>
            match ← sql (.selectPendingManual taskId) with
            | some raced => refuse (alreadyPending raced)
            | none => raise "failed to create manual task run"

/-- `apply_manual_run`. -/
def applyManualRun (triggerType taskId retryOfRunId idempotencyKey : Bytes)
    (retryFiles : List TaskRunRetryFile) : Tx ManualTaskRunResult := do
  if !isOperatorIdempotencyKey idempotencyKey then refuse malformedKey
  else
    match ← sql (.selectRunByKey (operatorKey idempotencyKey)) with
    | some existing =>
      if existing.triggerType ≠ triggerType ∨ existing.taskId ≠ taskId ∨
          existing.retryOfRunId ≠ retryOfRunId then refuse reusedKey
      else pure (replayedResult existing)
    | none =>
      acceptManualRun R triggerType taskId retryOfRunId (operatorKey idempotencyKey) retryFiles

/-- `request_manual_run`. -/
def requestManualRun (taskId idempotencyKey : Bytes) : Tx ManualTaskRunResult :=
  applyManualRun R (text "manual") taskId [] idempotencyKey []

/-- `resolve_retry_files`: fix the input of every failed file of the parent run. -/
def resolveRetryFiles (parent : TaskRunRecord) :
    List TaskRunFailedFile → Tx (List TaskRunRetryFile)
  | [] => pure []
  | failed :: rest => do
    if failed.sourcePath = [] ∨ failed.originalName = [] then
      refuse (.conflict (text "failed file entry does not identify a concrete target"))
    else if failed.archiveRawFileId = [] then do
      let others ← resolveRetryFiles parent rest
      pure ({ inputType := text "source", sourcePath := failed.sourcePath,
              originalName := failed.originalName, archiveRawFileId := [], storagePath := [],
              sizeBytes := 0, fileHash := [], sourceMtime := [] } :: others)
    else
      match ← sql (.selectRawFile failed.archiveRawFileId) with
      | none =>
        refuse (.conflict
          (text "archived input is not available: " ++ failed.archiveRawFileId))
      | some rawFile =>
        if rawFile.nodeCode ≠ parent.nodeCode then
          refuse (.conflict (text "archived input does not belong to the node"))
        else do
          let rawRun ← sql (.selectRunById rawFile.taskRunId)
          if (rawRun.filter fun run => run.taskId == parent.taskId).isNone then
            refuse (.conflict (text "archived input does not belong to the task"))
          else if rawFile.storagePath = [] ∨ rawFile.fileHash = [] then
            refuse (.conflict (text "archived input is missing storage metadata"))
          else do
            let others ← resolveRetryFiles parent rest
            pure ({ inputType := text "archive", sourcePath := failed.sourcePath,
                    originalName := failed.originalName, archiveRawFileId := rawFile.id,
                    storagePath := rawFile.storagePath, sizeBytes := rawFile.sizeBytes,
                    fileHash := rawFile.fileHash, sourceMtime := rawFile.sourceMtime } :: others)

/-- `request_retry_run`. -/
def requestRetryRun (taskRunId idempotencyKey : Bytes) : Tx ManualTaskRunResult := do
  if !isOperatorIdempotencyKey idempotencyKey then refuse malformedKey
  else
    match ← sql (.selectRunByKey (operatorKey idempotencyKey)) with
    | some existing =>
      if existing.triggerType ≠ text "retry" ∨ existing.retryOfRunId ≠ taskRunId then
        refuse reusedKey
      else pure (replayedResult existing)
    | none =>
      if !isPositiveId taskRunId then
        refuse (.invalid (text "task_run_id must be a positive integer"))
      else
        match ← sql (.selectRunById taskRunId) with
        | none => refuse (.notFound (text "task run is not found"))
        | some parent =>
          if parent.status ≠ .failed then
            refuse (.conflict (text "only failed task runs can be retried"))
          else
            match ← TaskRunRepository.findFailedFiles R taskRunId with
            | none =>
              refuse (.conflict
                (text "task run has no failed file list and cannot be retried"))
            | some [] => refuse (.conflict (text "task run has no failed files to retry"))
            | some (failed :: rest) => do
              let retryFiles ← resolveRetryFiles parent (failed :: rest)
              applyManualRun R (text "retry") parent.taskId parent.id idempotencyKey retryFiles

end TaskRunService

end LabBridge.Server
