import LabBridge.Agent.InputPlanning
import LabBridge.Agent.ReliableDelivery
import LabBridge.Agent.ReportBuilding
import LabBridge.Agent.TaskExecutor
import LabBridge.Library.ProgramLogic

/-!
# Running a job

The executor takes a job from the stage it was loaded in to its end. It issues the transactions of
the queue one by one and may be interrupted between any two of them; deliveries go through the
reliable client, which records its failures in the same queue. What the surroundings of a run
answer is given: the file system while inputs are chosen, what becomes of every copy, what the
archived files hold, and the turns of each delivery.
-/

namespace LabBridge.Agent

open ByteText JsonText LinkedTree Fallible Interaction Interaction.Program LabBridge.Core

/-- What surrounds the run of one job. -/
structure Surroundings where
  /-- The file system while the inputs are chosen. -/
  files : FileSystem
  readings : CollectedItem → ClockReadings
  /-- `recover_archive` of a planned file. -/
  archive : PendingFilePlan → Except AgentError Unit
  /-- What is found under an archive path when it is parsed. -/
  content : Bytes → Option Bytes
  finishedAt : Bytes
  completedAt : Bytes
  start : DeliveryTape StartTaskRunResult
  manifest : DeliveryTape (List Bytes)
  report : DeliveryTape Unit

/-- What the executor asks of the queue and of the delivery client. -/
inductive QueueCall : Type → Type
  | hasCapacity : QueueCall Bool
  | findJob (key : Bytes) : QueueCall (Except AgentError (Option RecoveredJob))
  | loadJob (key : Bytes) : QueueCall (Except AgentError RecoveredJob)
  | recoverJobs : QueueCall (Except AgentError (List RecoveredJob))
  | chooseInputs (files : FileSystem) (readings : CollectedItem → ClockReadings)
      (job : RecoveredJob) : QueueCall (Except AgentError Chosen)
  | write (operation : QueueOperation) : QueueCall (Except AgentError Unit)
  | startTaskRun (request : StartTaskRunRequest) (tape : DeliveryTape StartTaskRunResult) :
      QueueCall (Except AgentError StartTaskRunResult)
  | reportRawFileManifest (request : RawFileManifestRequest) (tape : DeliveryTape (List Bytes)) :
      QueueCall (Except AgentError (List Bytes))
  | reportTaskRun (request : TaskRunReportRequest) (tape : DeliveryTape Unit) :
      QueueCall (Except AgentError Unit)

/-- The operation of a call that writes. -/
def QueueCall.operation? {β : Type} : QueueCall β → Option QueueOperation
  | .write operation => some operation
  | _ => none

/-- A program of the executor. -/
abbrev JobProgram := Program QueueCall AgentError

/-- An exception of the delivery client on its way through the executor. -/
def DeliveryException.toError : DeliveryException → AgentError
  | .abandoned message => .abandoned message
  | .rejected error => .failure error.message
  | .queue error => error

section Handler

variable (J : Nlohmann) (store : AgentQueueStore) (executor : TaskExecutor)
  (client : ReliableDeliveryClient)

/-- Deliver the body of a request, when it can be printed. -/
def delivered {α : Type} (type : RequestType) (idempotencyKey : Bytes)
    (body : Except AgentError Bytes) (tape : DeliveryTape α) (db : QueueDatabase) :
    Except AgentError α × QueueDatabase :=
  match body with
  | .error error => (.error error, db)
  | .ok httpBody =>
    let result := client.deliver type idempotencyKey httpBody tape db
    (match result.outcome with
      | .ok value => .ok value
      | .error exception => .error exception.toError, result.database)

/-- The answer of a call, and the queue behind it. -/
def answerCall {β : Type} : QueueCall β → QueueDatabase → β × QueueDatabase
  | .hasCapacity, db => (hasCapacity store db, db)
  | .findJob key, db => (findJob J db key, db)
  | .loadJob key, db => (loadJob J db key, db)
  | .recoverJobs, db => (recoverJobs J db, db)
  | .chooseInputs files readings job, db => (chooseInputs J files executor readings db job, db)
  | .write operation, db =>
    match operation.run J store db with
    | .ok next => (.ok (), next)
    | .error error => (.error error, db)
  | .startTaskRun request tape, db => delivered client .start request.executionKey
      (encodeStartTaskRunHttpBody J request) tape db
  | .reportRawFileManifest request tape, db => delivered client .manifest request.idempotencyKey
      (encodeRawFileManifestHttpBody J request) tape db
  | .reportTaskRun request tape, db => delivered client .report request.idempotencyKey
      (encodeTaskRunReportHttpBody J request) tape db

/-- The queue as the executor uses it. -/
def queueHandler : Handler QueueCall AgentError QueueDatabase := fun _ call db =>
  let answered := answerCall J store executor client call db
  (.ok answered.1, answered.2)

end Handler

/-! ## The program -/

/-- Go on with the value of an answer, or raise its exception. -/
def raised {α : Type} : Except AgentError α → JobProgram α
  | .ok value => .ret value
  | .error error => .stop error

/-- A call whose exception is raised. -/
def must {α : Type} (call : QueueCall (Except AgentError α)) : JobProgram α := do
  let answer ← perform call
  raised answer

/-- `inherited_archive_ref`. -/
def inheritedArchiveRef (retryFiles : List RetryFileInput) (sourcePath : Bytes) : Bytes :=
  ((retryFiles.find? fun target => target.sourcePath == sourcePath).map
    RetryFileInput.archiveRawFileId).getD []

/-- The failure of a planned file that could not be archived. -/
def archiveFailed (job : RecoveredJob) (file : PendingFilePlan) (message : Bytes) :
    TaskRunReportFailedFile :=
  ⟨file.sourcePath, file.originalName, text "archive", message,
    inheritedArchiveRef job.retryFiles file.sourcePath⟩

/-- List a planned file that has failed, unless its source is listed. -/
def amendFailure (job : RecoveredJob) (failures : List TaskRunReportFailedFile)
    (file : PendingFilePlan) : List TaskRunReportFailedFile :=
  if file.errorDetail.isEmpty || failures.any fun failed => failed.sourcePath == file.sourcePath then
    failures
  else failures ++ [archiveFailed job file file.errorDetail]

/-- The failures of a job with those that only its plan rows know. -/
def amendedFailures (job : RecoveredJob) : List TaskRunReportFailedFile :=
  job.files.foldl (amendFailure job) job.fileFailures

/-- What has been archived: the entries of the manifest, all failures, and whether one of them
is new. -/
structure ArchivedFiles where
  entries : List RawFileManifestEntry := []
  failures : List TaskRunReportFailedFile
  failedThisRun : Bool := false

/-- The manifest entry of a planned file. -/
def manifestEntry (file : PendingFilePlan) : RawFileManifestEntry where
  originalName := file.originalName
  fileHash := file.fileHash
  storagePath := file.archivePath
  sizeBytes := file.sizeBytes
  sourceMtime := file.sourceMtime

section Programs

variable (around : Surroundings)

/-- The plan of a job that has not got one: its inputs are chosen and saved at once. -/
def planStage (job : RecoveredJob) : JobProgram RecoveredJob :=
  if job.files.isEmpty && !job.hasFileFailures then do
    let chosen ← must (.chooseInputs around.files around.readings job)
    must (.write (.saveFilePlan job.executionKey chosen.1 chosen.2))
    must (.loadJob job.executionKey)
  else pure job

/-- Complete the failures that an older version has left incomplete. -/
def amendStage (job : RecoveredJob) : JobProgram RecoveredJob :=
  if (amendedFailures job).length = job.fileFailures.length then pure job
  else do
    must (.write (.saveFileFailures job.executionKey (amendedFailures job)))
    must (.loadJob job.executionKey)

/-- Archive the files of a plan. A conflict with archived evidence is raised; any other failure
is one of the file. -/
def archiveFiles (job : RecoveredJob) : List PendingFilePlan → ArchivedFiles → JobProgram ArchivedFiles
  | [], archived => pure archived
  | file :: rest, archived =>
    -- a target that has failed before is not tried again
    if !file.errorDetail.isEmpty then archiveFiles job rest archived
    else if file.fingerprint.length < job.task.id.length + 1 then
      .stop (.failure (text "basic_string::substr"))
    else
      match around.archive file with
      | .ok () => do
        must (.write (.markFileArchived job.executionKey file.ordinal))
        archiveFiles job rest { archived with entries := archived.entries ++ [manifestEntry file] }
      | .error (.archiveConflict message) => .stop (.archiveConflict message)
      | .error error => do
        let failures := archived.failures ++ [archiveFailed job file error.what]
        must (.write (.markFileFailed job.executionKey file.ordinal error.what failures))
        archiveFiles job rest { archived with failures := failures, failedThisRun := true }

/-- The manifest of a job. -/
def manifestOf (job : RecoveredJob) (entries : List RawFileManifestEntry) :
    RawFileManifestRequest where
  taskRunId := job.taskRunId
  nodeCode := job.task.nodeCode
  idempotencyKey := makeManifestIdempotencyKey job.task.nodeCode job.taskRunId
  files := entries

/-- Save the manifest of what was archived. Without one the job is loaded again only if a file
has failed. -/
def manifestStage (job : RecoveredJob) (archived : ArchivedFiles) : JobProgram RecoveredJob :=
  if archived.entries ≠ [] then do
    must (.write (.saveManifest job.executionKey (manifestOf job archived.entries)))
    must (.loadJob job.executionKey)
  else if archived.failedThisRun then must (.loadJob job.executionKey)
  else pure job

/-- `run_collecting_stage`. -/
def runCollectingStage (input : RecoveredJob) : JobProgram RecoveredJob := do
  let planned ← planStage around input
  let job ← amendStage planned
  let archived ← archiveFiles around job job.files { failures := job.fileFailures }
  manifestStage job archived

/-- `save_collection_failure_report`. -/
def saveCollectionFailureReport (job : RecoveredJob) (error : Bytes) :
    JobProgram RecoveredJob := do
  let current ← must (.loadJob job.executionKey)
  must (.write (.saveReport current.executionKey
    (collectionFailureReport current around.finishedAt error)
    (List.replicate current.files.length false)))
  must (.loadJob current.executionKey)

/-- The start of a job, which gives it its run; a run that has ended ends the job. -/
def startStage (job : RecoveredJob) : JobProgram (Option RecoveredJob) :=
  if job.stage = some .startPending then do
    let started ← must (.startTaskRun job.startRequest around.start)
    if started.runStatus = text "succeeded" ∨ started.runStatus = text "failed" then do
      must (.write (.discardStartPendingJob job.executionKey))
      pure none
    else if started.runStatus ≠ text "running" then
      .stop (.failure (text "unexpected run_status from start: " ++ started.runStatus))
    else do
      must (.write (.acceptStart job.executionKey started.taskRunId))
      some <$> must (.loadJob job.executionKey)
  else pure (some job)

/-- What a failed collection leads to: a conflict parks the job, an exception of the queue goes
on, and any other is reported as the failure of the run. -/
def collectionFailed (job : RecoveredJob) : AgentError → JobProgram (Option RecoveredJob)
  | .archiveConflict _ => do
    must (.write (.markRequiresAttention job.executionKey (text "archive_conflict")))
    pure none
  | .queue message => .stop (.queue message)
  | error => some <$> saveCollectionFailureReport around job error.what

/-- The collection of a job. -/
def collectStage (job : RecoveredJob) : JobProgram (Option RecoveredJob) :=
  if job.stage = some .collecting then
    (some <$> runCollectingStage around job).rescue (collectionFailed around job)
  else pure (some job)

/-- The delivery of a manifest, which identifies the archived files. -/
def deliverManifestStage (job : RecoveredJob) : JobProgram RecoveredJob :=
  if job.stage = some .manifestPending then do
    let rawFileIds ← must (.reportRawFileManifest job.manifestRequest around.manifest)
    must (.write (.acceptManifest job.executionKey rawFileIds))
    must (.loadJob job.executionKey)
  else pure job

/-- The report of a job is built and saved with the outcome of every file. -/
def reportStage (J : Nlohmann) (job : RecoveredJob) : JobProgram RecoveredJob :=
  if job.stage = some .collecting ∨ job.stage = some .reportBuilding then do
    let draft ← raised (draftReport J around.content job)
    must (.write (.saveReport job.executionKey (reportOf job around.finishedAt draft)
      draft.parsedWithoutErrors))
    must (.loadJob job.executionKey)
  else pure job

/-- The delivery of a report ends its job. -/
def deliverReportStage (job : RecoveredJob) : JobProgram Unit :=
  if job.stage = some .reportPending then do
    must (.reportTaskRun job.reportRequest around.report)
    must (.write (.completeJob job.executionKey around.completedAt))
  else pure ()

/-- `run_reliable_job`. -/
def runReliableJob (J : Nlohmann) (input : RecoveredJob) : JobProgram Unit := do
  match ← startStage around input with
  | none => pure ()
  | some started =>
    match ← collectStage around started with
    | none => pure ()
    | some collected =>
      let accepted ← deliverManifestStage around collected
      let reported ← reportStage around J accepted
      deliverReportStage around reported

end Programs

/-! ## Where a run begins -/

/-- The turn of one job among those that are recovered: whether a stop is seen before it, and
after its delivery was given up. -/
structure RecoveryTurn where
  around : Surroundings
  stoppedBefore : Bool
  stoppedAfter : Bool

/-- A job whose delivery is given up leaves the others to be recovered, unless a stop is seen. -/
def RecoveryTurn.givenUp (turn : RecoveryTurn) : AgentError → JobProgram Bool
  | .abandoned _ => pure turn.stoppedAfter
  | error => .stop error

/-- The turn of a job; the answer is whether the loop ends. -/
def RecoveryTurn.program (J : Nlohmann) (turn : RecoveryTurn) (job : RecoveredJob) :
    JobProgram Bool :=
  ((fun _ => false) <$> runReliableJob turn.around J job).rescue turn.givenUp

/-- The loop of `recover_pending_jobs`, whose turns end where a stop is seen. -/
def recoverEach (J : Nlohmann) : List RecoveredJob → List RecoveryTurn → JobProgram Unit
  | job :: jobs, turn :: turns =>
    if turn.stoppedBefore then pure ()
    else do
      let stopped ← turn.program J job
      if stopped then pure () else recoverEach J jobs turns
  | _, _ => pure ()

/-- `recover_pending_jobs`. -/
def recoverPendingJobs (J : Nlohmann) (turns : List RecoveryTurn) : JobProgram Unit := do
  let jobs ← must .recoverJobs
  recoverEach J jobs turns

section Dispatches

variable (J : Nlohmann) (around : Surroundings) (now : SystemTime) (createdAt : Bytes)

/-- Queue a job and run it. -/
def beginAndRun (task : TaskConfig) (request : StartTaskRunRequest)
    (retryFiles : List RetryFileInput) : JobProgram Unit := do
  must (.write (.beginJob task request retryFiles createdAt))
  let job ← must (.loadJob request.executionKey)
  runReliableJob around J job

/-- `execute`. -/
def execute (stopRequested : Bool) (execution : ScheduledTaskExecution) : JobProgram Unit :=
  if stopRequested then pure ()
  else do
    let room ← perform .hasCapacity
    if room = false then pure ()
    else beginAndRun J around createdAt execution.task (scheduledRequest execution now) []

/-- `PendingDispatchResult`. -/
inductive PendingDispatchResult
  | dispatched
  | alreadyQueued
  | queueFull
  deriving DecidableEq

/-- `execute_pending`. -/
def executePending (stopRequested : Bool) (execution : ManualTaskExecution) :
    JobProgram PendingDispatchResult :=
  if stopRequested then pure .queueFull
  else do
    let queued ← must (.findJob execution.execution.executionKey)
    if queued.isSome then pure .alreadyQueued
    else do
      let room ← perform .hasCapacity
      if room = false then pure .queueFull
      else do
        beginAndRun J around createdAt execution.task (manualRequest execution now)
          execution.execution.retryFiles
        pure .dispatched

/-- The run of what is dispatched. -/
def Dispatch.program (stopRequested : Bool) : Dispatch → JobProgram Unit
  | .scheduled execution => execute J around now createdAt stopRequested execution
  | .manual execution =>
    (fun _ => ()) <$> executePending J around now createdAt stopRequested execution

end Dispatches

section Handover

variable {J : Nlohmann} {store : AgentQueueStore} {executor : TaskExecutor}
  {client : ReliableDeliveryClient} {around : Surroundings} {now : SystemTime} {createdAt : Bytes}
  {db reached : QueueDatabase} {job : RecoveredJob}

/-- A call that is answered hands its answer on. -/
theorem run_must {α β : Type} {call : QueueCall (Except AgentError α)} {value : α}
    {next : α → JobProgram β}
    (h : answerCall J store executor client call db = (.ok value, reached)) :
    (must call >>= next).run (queueHandler J store executor client) db =
      (next value).run (queueHandler J store executor client) reached := by
  have hhandled : queueHandler J store executor client _ call db =
      (.ok (.ok value), reached) := by
    unfold queueHandler
    rw [h]
  exact run_call_ok _ hhandled

/-- A call that raises ends the program. -/
theorem run_must_error {α β : Type} {call : QueueCall (Except AgentError α)} {error : AgentError}
    {next : α → JobProgram β}
    (h : answerCall J store executor client call db = (.error error, reached)) :
    (must call >>= next).run (queueHandler J store executor client) db =
      (.error error, reached) := by
  have hhandled : queueHandler J store executor client _ call db =
      (.ok (.error error), reached) := by
    unfold queueHandler
    rw [h]
  exact run_call_ok _ hhandled

section Queueing

variable {task : TaskConfig} {request : StartTaskRunRequest} {retryFiles : List RetryFileInput}
  {answer : Bool} {error : AgentError}

/-- A job that cannot be queued is not run. -/
theorem run_beginAndRun_refused
    (hbegun : beginJob J store task request retryFiles createdAt db = .error error) :
    (beginAndRun J around createdAt task request retryFiles).run
        (queueHandler J store executor client) db = (.error error, db) := by
  have hwrite : answerCall J store executor client
      (.write (.beginJob task request retryFiles createdAt)) db = (.error error, db) := by
    simp only [answerCall, QueueOperation.run, hbegun]
    rfl
  unfold beginAndRun
  rw [run_must_error hwrite]

/-- A job that is queued goes on as it is loaded. -/
theorem run_beginAndRun_queued
    (hbegun : beginJob J store task request retryFiles createdAt db = .ok (answer, reached)) :
    (beginAndRun J around createdAt task request retryFiles).run
        (queueHandler J store executor client) db =
      (must (.loadJob request.executionKey) >>= runReliableJob around J).run
        (queueHandler J store executor client) reached := by
  have hwrite : answerCall J store executor client
      (.write (.beginJob task request retryFiles createdAt)) db = (.ok (), reached) := by
    simp only [answerCall, QueueOperation.run, hbegun]
    rfl
  unfold beginAndRun
  rw [run_must hwrite]

/-- A job that cannot be loaded is not run. -/
theorem run_beginAndRun_unloaded
    (hbegun : beginJob J store task request retryFiles createdAt db = .ok (answer, reached))
    (hload : loadJob J reached request.executionKey = .error error) :
    (beginAndRun J around createdAt task request retryFiles).run
        (queueHandler J store executor client) db = (.error error, reached) := by
  have hread : answerCall J store executor client (.loadJob request.executionKey) reached =
      (.error error, reached) := by
    simp only [answerCall, hload]
  rw [run_beginAndRun_queued hbegun, run_must_error hread]

/-- A job that is queued and loaded is run from there. -/
theorem run_beginAndRun
    (hbegun : beginJob J store task request retryFiles createdAt db = .ok (answer, reached))
    (hload : loadJob J reached request.executionKey = .ok job) :
    (beginAndRun J around createdAt task request retryFiles).run
        (queueHandler J store executor client) db =
      (runReliableJob around J job).run (queueHandler J store executor client) reached := by
  have hread : answerCall J store executor client (.loadJob request.executionKey) reached =
      (.ok job, reached) := by
    simp only [answerCall, hload]
  rw [run_beginAndRun_queued hbegun, run_must hread]

end Queueing

/-- A slot is left out when the queue has no free place. -/
theorem run_execute_full {stopRequested : Bool} {execution : ScheduledTaskExecution}
    (hstopped : ¬stopRequested = true) (hfull : hasCapacity store db = false) :
    (execute J around now createdAt stopRequested execution).run
        (queueHandler J store executor client) db = (.ok (), db) := by
  have hasked : queueHandler J store executor client _ .hasCapacity db =
      (.ok (hasCapacity store db), db) := rfl
  unfold execute
  rw [if_neg hstopped, perform_bind, run_call_ok _ hasked, if_pos hfull]
  rfl

/-- A slot is queued and run when the queue has a free place. -/
theorem run_execute_begins {stopRequested : Bool} {execution : ScheduledTaskExecution}
    (hstopped : ¬stopRequested = true) (hroom : ¬hasCapacity store db = false) :
    (execute J around now createdAt stopRequested execution).run
        (queueHandler J store executor client) db =
      (beginAndRun J around createdAt execution.task (scheduledRequest execution now) []).run
        (queueHandler J store executor client) db := by
  have hasked : queueHandler J store executor client _ .hasCapacity db =
      (.ok (hasCapacity store db), db) := rfl
  unfold execute
  rw [if_neg hstopped, perform_bind, run_call_ok _ hasked, if_neg hroom]

end Handover

end LabBridge.Agent
