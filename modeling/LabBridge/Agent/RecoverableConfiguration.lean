import LabBridge.Agent.CodecExceptions
import LabBridge.Agent.ControlPlaneClient
import LabBridge.Agent.OwnedDeliveries
import LabBridge.Agent.TaskExecutor

/-!
# Configurations that can be loaded again

What the agent accepts from a configuration response becomes a job whose task, start and retry
inputs are persisted. The reader of the response takes any text, while the reader of the
persisted form refuses empty ones and reads a key up to its first zero byte, so the accepted is
loaded again exactly when it names everything, its key is plain and no size went below zero.
-/

namespace LabBridge.Agent

open ByteText JsonText Fallible LabBridge.Core

variable {J : Nlohmann} {store : AgentQueueStore} {db after : QueueDatabase} {nodeCode : Bytes}
  {response : HttpResponse} {config : PulledAgentConfig}

/-- The task of a dispatch. -/
def Dispatch.task : Dispatch → TaskConfig
  | .scheduled execution => execution.task
  | .manual execution => execution.task

/-- The start of a dispatch. -/
def Dispatch.request (now : SystemTime) : Dispatch → StartTaskRunRequest
  | .scheduled execution => scheduledRequest execution now
  | .manual execution => manualRequest execution now

/-- The fixed inputs of a dispatch. -/
def Dispatch.retryFiles : Dispatch → List RetryFileInput
  | .scheduled _ => []
  | .manual execution => execution.execution.retryFiles

/-- A dispatch of what a configuration offers. -/
def Dispatch.OfferedBy (config : PulledAgentConfig) : Dispatch → Prop
  | .scheduled execution => execution.task ∈ config.tasks
  | .manual execution => execution.task ∈ config.tasks ∧
      execution.execution ∈ config.pendingExecutions

/-- The persisted job of a dispatch is loaded under its key, with its task, its start and its retry
inputs, and an agent that could recover the other jobs recovers it with them. -/
def LoadsAgain (J : Nlohmann) (before after : QueueDatabase) (now : SystemTime)
    (dispatch : Dispatch) : Prop :=
  ∃ job, loadJob J after dispatch.key = .ok job ∧ job.executionKey = dispatch.key ∧
    job.task = dispatch.task ∧ job.startRequest = dispatch.request now ∧
    job.retryFiles = dispatch.retryFiles ∧
    ∀ others, recoverJobs J before = .ok others →
      ∃ recovered, recoverJobs J after = .ok recovered ∧ job ∈ recovered

/-- A retry input with a path and a name, and a size that is not negative. -/
structure Named (file : RetryFileInput) : Prop where
  sourcePath : file.sourcePath ≠ []
  originalName : file.originalName ≠ []
  sizeBytes : 0 ≤ file.sizeBytes

/-- A dispatch whose task, key and retry inputs are named, under a key that is read back whole. -/
structure Dispatch.Named (dispatch : Dispatch) : Prop where
  task : PersistableTask dispatch.task
  key : dispatch.key ≠ []
  plain : 0 ∉ dispatch.key
  retryFiles : ∀ file ∈ dispatch.retryFiles, Agent.Named file

/-! ## What the reader of a response ensures -/

/-- A fetched execution is manual or a retry, with the inputs that were read. -/
theorem readPendingExecution_eq_ok {status : ℕ} {value : Json} {execution : PendingExecution}
    (h : readPendingExecution status value = .ok execution) :
    (execution.triggerType = text "manual" ∨ execution.triggerType = text "retry") ∧
      readRetryFiles status value = .ok execution.retryFiles := by
  simp only [readPendingExecution, bind_eq_ok, check_eq_ok, pure_eq_ok] at h
  obtain ⟨taskRunId, -, taskId, -, executionKey, -, triggerType, -, requestedAt, -, htrigger,
    retryFiles, hfiles, rfl⟩ := h
  exact ⟨by by_contra hother; exact htrigger (not_or.mp hother), hfiles⟩

/-- A fetched size has 64 bits. -/
theorem sizeOrZero_bounds (object : Json) :
    -(2 ^ 63) ≤ sizeOrZero object ∧ sizeOrZero object < 2 ^ 63 := by
  unfold sizeOrZero
  split
  · rename_i value _
    split
    · have hlow : -(((2 ^ 64 : ℕ) : ℤ) / 2) ≤ value.bmod (2 ^ 64) := Int.le_bmod (by decide)
      have hhigh : value.bmod (2 ^ 64) < (((2 ^ 64 : ℕ) : ℤ) + 1) / 2 := Int.bmod_lt (by decide)
      omega
    · omega
  · omega

/-- A fetched retry input is of a known kind, and its size has 64 bits. -/
theorem readRetryFile_eq_ok {status : ℕ} {value : Json} {file : RetryFileInput}
    (h : readRetryFile status value = .ok file) :
    (file.inputType = text "archive" ∨ file.inputType = text "source") ∧
      -(2 ^ 63) ≤ file.sizeBytes ∧ file.sizeBytes < 2 ^ 63 := by
  unfold readRetryFile at h
  split at h
  · simp only [bind_eq_ok, check_eq_ok, pure_eq_ok] at h
    obtain ⟨inputType, -, htype, sourcePath, -, originalName, -, -, rfl⟩ := h
    exact ⟨by by_contra hother; exact htype (not_or.mp hother), sizeOrZero_bounds value⟩
  · rw [bind_eq_ok] at h
    obtain ⟨inputType, hnone, -⟩ := h
    exact absurd hnone throw_ne_ok

/-- What a configuration offers was read from a pending execution of the response. -/
theorem exists_readPendingExecution (fetched : fetchConfig J nodeCode response = .ok config)
    {execution : PendingExecution} (h : execution ∈ config.pendingExecutions) :
    ∃ value, readPendingExecution response.status value = .ok execution := by
  simp only [fetchConfig, bind_eq_ok] at fetched
  obtain ⟨data, -, fetched⟩ := fetched
  split at fetched
  · simp only [bind_eq_ok, check_eq_ok, pure_eq_ok] at fetched
    obtain ⟨declared, -, name, -, agentVersion, -, lastHeartbeatAt, -, statusText, -, nodeStatus,
      -, -, rfl⟩ := fetched
    obtain ⟨value, -, hvalue⟩ := List.mem_filterMap.mp h
    refine ⟨value, ?_⟩
    cases hread : readPendingExecution response.status value with
    | error error =>
      rw [hread] at hvalue
      cases hvalue
    | ok found =>
      rw [hread] at hvalue
      exact congrArg Except.ok (Option.some.inj hvalue)
  · exact absurd fetched throw_ne_ok

/-- Every retry input of an offered dispatch is of a known kind, and its size has 64 bits. -/
theorem Dispatch.OfferedBy.retryFiles {dispatch : Dispatch} (offered : dispatch.OfferedBy config)
    (fetched : fetchConfig J nodeCode response = .ok config) :
    ∀ file ∈ dispatch.retryFiles,
      (file.inputType = text "archive" ∨ file.inputType = text "source") ∧
        -(2 ^ 63) ≤ file.sizeBytes ∧ file.sizeBytes < 2 ^ 63 := by
  cases dispatch with
  | scheduled execution => exact fun file hfile => absurd hfile List.not_mem_nil
  | manual execution =>
    intro file hfile
    obtain ⟨value, hvalue⟩ := exists_readPendingExecution fetched offered.2
    have hfiles := (readPendingExecution_eq_ok hvalue).2
    change file ∈ execution.execution.retryFiles at hfile
    unfold readRetryFiles at hfiles
    split at hfiles
    · rw [← Except.ok.inj hfiles] at hfile
      cases hfile
    · obtain ⟨item, -, hitem⟩ := exists_of_mem_mapM hfiles hfile
      exact readRetryFile_eq_ok hitem
    · cases hfiles

/-! ## What is persisted -/

/-- The queue with a new job. -/
def QueueDatabase.withJob (db : QueueDatabase) (request : StartTaskRunRequest)
    (taskJson requestJson retryFilesJson createdAt : Bytes) : QueueDatabase :=
  { db with
    jobs := db.jobs ++ [newJob request taskJson retryFilesJson createdAt]
    deliveries := db.deliveries ++ [startDelivery request requestJson] }

/-- A job that is queued is added with its start. -/
theorem withJob_of_beginJob {task : TaskConfig} {request : StartTaskRunRequest}
    {retryFiles : List RetryFileInput} {createdAt : Bytes}
    (h : beginJob J store task request retryFiles createdAt db = .ok (true, after)) :
    ∃ taskJson requestJson retryFilesJson,
      encodeTaskConfig J task = .ok taskJson ∧
      encodeStartTaskRunRequest J request = .ok requestJson ∧
      retryFilesText J retryFiles = .ok retryFilesJson ∧
      db.job? request.executionKey = none ∧
      after = db.withJob request taskJson requestJson retryFilesJson createdAt := by
  simp only [beginJob, bind_eq_ok, check_eq_ok] at h
  obtain ⟨-, taskJson, htask, requestJson, hrequest, retryFilesJson, hretry, h⟩ := h
  refine ⟨taskJson, requestJson, retryFilesJson, htask, hrequest, hretry, ?_⟩
  split at h
  · split at h
    · rw [pure_eq_ok] at h
      cases h
    · exact absurd h throw_ne_ok
  · rename_i hnone
    simp only [check_eq_ok, bind_eq_ok, pure_eq_ok, Prod.mk.injEq] at h
    obtain ⟨-, inserted, hinserted, started, hstarted, -, rfl⟩ := h
    refine ⟨hnone, ?_⟩
    unfold QueueDatabase.insertJob at hinserted
    split at hinserted
    · cases hinserted
    · cases hinserted
      unfold QueueDatabase.insertDelivery at hstarted
      split at hstarted
      · cases hstarted
      · cases hstarted
        rfl

section NewJobs

variable {request : StartTaskRunRequest} {taskJson requestJson retryFilesJson createdAt : Bytes}

/-- The row of a new job. -/
theorem job?_withJob (hnone : db.job? request.executionKey = none) :
    (db.withJob request taskJson requestJson retryFilesJson createdAt).job? request.executionKey =
      some (newJob request taskJson retryFilesJson createdAt) := by
  unfold QueueDatabase.job? at hnone ⊢
  rw [QueueDatabase.withJob, List.find?_append, hnone]
  simp [newJob]

/-- A new job has no delivery but its start. -/
theorem delivery?_withJob (owned : Owned db) (hnone : db.job? request.executionKey = none)
    (type : RequestType) :
    (db.withJob request taskJson requestJson retryFilesJson createdAt).delivery?
        request.executionKey type =
      if type = .start then some (startDelivery request requestJson) else none := by
  have hold := owned.delivery?_eq_none hnone type
  unfold QueueDatabase.delivery? at hold ⊢
  rw [QueueDatabase.withJob, List.find?_append, hold]
  cases type <;> simp [startDelivery]

/-- The other jobs keep their deliveries. -/
theorem delivery?_withJob_of_ne {key : Bytes} (hne : key ≠ request.executionKey)
    (type : RequestType) :
    (db.withJob request taskJson requestJson retryFilesJson createdAt).delivery? key type =
      db.delivery? key type := by
  have hother : (request.executionKey == key) = false := beq_eq_false_iff_ne.mpr hne.symm
  unfold QueueDatabase.delivery?
  rw [QueueDatabase.withJob, List.find?_append]
  simp [startDelivery, hother]

/-- A row of another job is read as before. -/
theorem readRecoveredJob_withJob_of_ne {job : PendingJob} {start : PendingDelivery}
    (hne : job.executionKey ≠ request.executionKey) :
    readRecoveredJob J (db.withJob request taskJson requestJson retryFilesJson createdAt) job
      start = readRecoveredJob J db job start := by
  unfold readRecoveredJob
  rw [delivery?_withJob_of_ne hne, delivery?_withJob_of_ne hne]
  rfl

/-- A new job is loaded from its row and its start. -/
theorem loadJob_withJob (owned : Owned db) (hnone : db.job? request.executionKey = none) :
    loadJob J (db.withJob request taskJson requestJson retryFilesJson createdAt)
        request.executionKey =
      readRecoveredJob J (db.withJob request taskJson requestJson retryFilesJson createdAt)
        (newJob request taskJson retryFilesJson createdAt) (startDelivery request requestJson) := by
  unfold loadJob
  rw [job?_withJob hnone, delivery?_withJob owned hnone, if_pos rfl]
  rfl

/-- What a new job is loaded as. -/
theorem loadJob_withJob_eq_ok (owned : Owned db) (hnone : db.job? request.executionKey = none)
    {job : RecoveredJob}
    (h : loadJob J (db.withJob request taskJson requestJson retryFilesJson createdAt)
      request.executionKey = .ok job) :
    job.executionKey = readText request.executionKey ∧
      decodeTaskConfig J (readText taskJson) = .ok job.task ∧
      decodeStartTaskRunRequest J (readText requestJson) = .ok job.startRequest ∧
      decodeRetryFiles J (readText retryFilesJson) = .ok job.retryFiles := by
  rw [loadJob_withJob owned hnone] at h
  simp only [readRecoveredJob, bind_eq_ok, pure_eq_ok] at h
  obtain ⟨readTask, htask, readStart, hstart, -, -, -, -, readFiles, hfiles, -, -, rfl⟩ := h
  exact ⟨rfl, htask, hstart, hfiles⟩

/-- A new job whose texts are decoded is loaded. -/
theorem exists_loadJob_withJob (owned : Owned db) (hnone : db.job? request.executionKey = none)
    {task : TaskConfig} {start : StartTaskRunRequest} {retryFiles : List RetryFileInput}
    (htask : decodeTaskConfig J (readText taskJson) = .ok task)
    (hstart : decodeStartTaskRunRequest J (readText requestJson) = .ok start)
    (hfiles : decodeRetryFiles J (readText retryFilesJson) = .ok retryFiles) :
    ∃ job, loadJob J (db.withJob request taskJson requestJson retryFilesJson createdAt)
      request.executionKey = .ok job := by
  have hmanifest : (db.withJob request taskJson requestJson retryFilesJson createdAt).delivery?
      request.executionKey .manifest = none := by
    rw [delivery?_withJob owned hnone]
    rfl
  have hreport : (db.withJob request taskJson requestJson retryFilesJson createdAt).delivery?
      request.executionKey .report = none := by
    rw [delivery?_withJob owned hnone]
    rfl
  rw [loadJob_withJob owned hnone]
  unfold readRecoveredJob
  dsimp only [newJob, startDelivery]
  rw [hmanifest, hreport, htask, hstart, hfiles]
  exact ⟨_, rfl⟩

/-- An agent that could recover the other jobs recovers a new job with them once it is loaded. -/
theorem recoverJobs_withJob (owned : Owned db) (hnone : db.job? request.executionKey = none)
    {job : RecoveredJob} {others : List RecoveredJob}
    (hload : loadJob J (db.withJob request taskJson requestJson retryFilesJson createdAt)
      request.executionKey = .ok job) (hothers : recoverJobs J db = .ok others) :
    ∃ recovered, recoverJobs J (db.withJob request taskJson requestJson retryFilesJson createdAt) =
      .ok recovered ∧ job ∈ recovered := by
  have hread : readRecoveredJob J (db.withJob request taskJson requestJson retryFilesJson createdAt)
      (newJob request taskJson retryFilesJson createdAt) (startDelivery request requestJson) =
        .ok job := by
    rw [← loadJob_withJob owned hnone]
    exact hload
  have hold := exists_mapM_eq_ok.mp ⟨others, hothers⟩
  have hall : ∃ recovered, recoverJobs J (db.withJob request taskJson requestJson retryFilesJson
      createdAt) = .ok recovered := by
    apply exists_mapM_eq_ok.mpr
    intro found hfound
    obtain ⟨hjob, hstage, hstart⟩ := mem_recoveredRows.mp hfound
    rw [QueueDatabase.withJob, List.mem_append, List.mem_singleton] at hjob
    rcases hjob with hjob | hjob
    · have hne : found.1.executionKey ≠ request.executionKey := by
        intro heq
        exact List.find?_eq_none.mp hnone _ hjob (beq_iff_eq.mpr heq)
      rw [delivery?_withJob_of_ne hne] at hstart
      rw [readRecoveredJob_withJob_of_ne hne]
      exact hold found (mem_recoveredRows.mpr ⟨hjob, hstage, hstart⟩)
    · have hkey : found.1.executionKey = request.executionKey := by
        rw [hjob]
        rfl
      rw [hkey, delivery?_withJob owned hnone, if_pos rfl] at hstart
      rw [hjob, ← Option.some.inj hstart]
      exact ⟨job, hread⟩
  obtain ⟨recovered, hrecovered⟩ := hall
  refine ⟨recovered, hrecovered, ?_⟩
  have hrow : (newJob request taskJson retryFilesJson createdAt, startDelivery request requestJson) ∈
      recoveredRows (db.withJob request taskJson requestJson retryFilesJson createdAt) := by
    refine mem_recoveredRows.mpr ⟨List.mem_append_right _ (List.mem_singleton.mpr rfl), ?_, ?_⟩
    · simp [newJob]
    · exact (delivery?_withJob owned hnone .start).trans (if_pos rfl)
  obtain ⟨found, hfound, hsame⟩ := exists_right (mapM_eq_ok.mp hrecovered) hrow
  rw [hread] at hsame
  exact Except.ok.inj hsame ▸ hfound

end NewJobs

/-- A printed text is read back whole. -/
theorem readText_dumped {document : Json} {stored : Bytes} (h : J.dumped document = .ok stored) :
    readText stored = stored :=
  readText_of_notMem (J.zero_notMem_dump (J.dumped_eq_ok.mp h))

/-- Persisted retry inputs of known kinds and of 64-bit sizes read back exactly when they are
named. -/
theorem decodeRetryFiles_text {retryFiles : List RetryFileInput} {stored : Bytes}
    (hfetched : ∀ file ∈ retryFiles,
      (file.inputType = text "archive" ∨ file.inputType = text "source") ∧
        -(2 ^ 63) ≤ file.sizeBytes ∧ file.sizeBytes < 2 ^ 63)
    (h : retryFilesText J retryFiles = .ok stored) :
    decodeRetryFiles J (readText stored) = .ok retryFiles ↔ ∀ file ∈ retryFiles, Named file := by
  unfold retryFilesText at h
  split at h
  · rename_i hempty
    rw [List.isEmpty_iff] at hempty
    subst hempty
    rw [← Except.ok.inj h]
    exact iff_of_true (if_pos rfl) fun file hfile => absurd hfile List.not_mem_nil
  · rw [readText_dumped h, decodeRetryFiles_encode (fun file hfile => (hfetched file hfile).2) h]
    apply forall₂_congr
    intro file hfile
    obtain ⟨hkind, -, hsize⟩ := hfetched file hfile
    constructor
    · intro hpersistable
      exact ⟨hpersistable.sourcePath, hpersistable.originalName, hpersistable.sizeBytes.1⟩
    · intro hnamed
      exact ⟨hkind, hnamed.sourcePath, hnamed.originalName, hnamed.sizeBytes, hsize⟩

theorem timestamp_ne_nil (time : SystemTime) : timestamp time ≠ [] := by
  simp [timestamp, Server.formatUtcTimestamp, Server.utcTextOf]

theorem Dispatch.request_executionKey (dispatch : Dispatch) (now : SystemTime) :
    (dispatch.request now).executionKey = dispatch.key := by
  cases dispatch <;> rfl

/-- The start of an offered dispatch reads back when its task and key are named. -/
theorem persistableStart_request {dispatch : Dispatch} (offered : dispatch.OfferedBy config)
    (fetched : fetchConfig J nodeCode response = .ok config)
    (htask : PersistableTask dispatch.task) (hkey : dispatch.key ≠ []) (now : SystemTime) :
    PersistableStart (dispatch.request now) := by
  cases dispatch with
  | scheduled execution =>
    constructor
    · exact htask.nodeCode
    · exact htask.id
    · exact hkey
    · exact timestamp_ne_nil now
    · exact .inl ⟨rfl, timestamp_ne_nil _⟩
  | manual execution =>
    obtain ⟨value, hvalue⟩ := exists_readPendingExecution fetched offered.2
    constructor
    · exact htask.nodeCode
    · exact htask.id
    · exact hkey
    · exact timestamp_ne_nil now
    · exact .inr (readPendingExecution_eq_ok hvalue).1

/-- The data source of a small configuration. -/
def smallSource : Json :=
  .record [
    ("config", .record []),
    ("id", .str (text "d")),
    ("name", .str (text "d")),
    ("node_code", .str (text "n")),
    ("source_type", .str (text "local_directory"))]

/-- The rule of a small configuration. -/
def smallRule : Json :=
  .record [
    ("config", .record []),
    ("id", .str (text "q")),
    ("name", .str (text "q")),
    ("rule_type", .str (text "required_fields")),
    ("task_id", .str (text "t"))]

/-- The task of a small configuration, under a name. -/
def smallTask (name : Bytes) : Json :=
  .record [
    ("data_source_id", .str (text "d")),
    ("enabled", .bool true),
    ("id", .str (text "t")),
    ("name", .str name),
    ("node_code", .str (text "n")),
    ("parser_type", .str (text "csv_observation")),
    ("qc_profile", .str []),
    ("qc_rule_ids", .arr [.str (text "q")]),
    ("schedule_expr", .str (text "* * * * *")),
    ("task_type", .str (text "local_file_import"))]

/-- The retry of a small configuration, of one archived file. -/
def smallRetry : Json :=
  .record [
    ("execution_key", .str (text "retry")),
    ("requested_at", .str (text "s")),
    ("retry_files", .arr [.record [
      ("archive_raw_file_id", .str (text "4")),
      ("file_hash", .str (text "h")),
      ("input_type", .str (text "archive")),
      ("original_name", .str (text "a.csv")),
      ("size_bytes", .int 3),
      ("source_mtime", .str (text "m")),
      ("source_path", .str (text "/in/a.csv")),
      ("storage_path", .str (text "/work/1-a.csv"))]]),
    ("task_id", .str (text "t")),
    ("task_run_id", .str (text "9")),
    ("trigger_type", .str (text "retry"))]

/-- A small configuration, whose task has a name. -/
def smallConfig (name : Bytes) : Json :=
  .record [
    ("data", .record [
      ("data_sources", .arr [smallSource]),
      ("node", .record [
        ("agent_version", .str (text "1")),
        ("last_heartbeat_at", .str []),
        ("name", .str (text "n")),
        ("node_code", .str (text "n")),
        ("status", .str (text "online"))]),
      ("pending_executions", .arr [smallRetry]),
      ("qc_rules", .arr [smallRule]),
      ("tasks", .arr [smallTask name])]),
    ("ok", .bool true)]

/-- The response with a small configuration. -/
def smallResponse (name : Bytes) : HttpResponse :=
  ⟨200, (compactNlohmann.dump (smallConfig name)).getD []⟩

/-- The printed configuration of its source and its rule. -/
def smallConfigJson : Bytes := (compactNlohmann.dump (.record [])).getD []

/-- The task that is read from a small configuration. -/
def readSmallTask (name : Bytes) : TaskConfig where
  id := text "t"
  nodeCode := text "n"
  dataSourceId := text "d"
  name := name
  taskType := text "local_file_import"
  scheduleExpr := text "* * * * *"
  parserType := text "csv_observation"
  qcProfile := []
  enabled := true
  dataSource := ⟨text "d", text "n", .localDirectory, text "d", smallConfigJson⟩
  qcRules := [⟨text "q", text "required_fields", text "q", smallConfigJson⟩]

/-- The retry that is read from a small configuration. -/
def readSmallRetry : PendingExecution where
  taskRunId := text "9"
  taskId := text "t"
  executionKey := text "retry"
  triggerType := text "retry"
  requestedAt := text "s"
  retryFiles := [{
    inputType := text "archive", sourcePath := text "/in/a.csv", originalName := text "a.csv",
    archiveRawFileId := text "4", storagePath := text "/work/1-a.csv", sizeBytes := 3,
    fileHash := text "h", sourceMtime := text "m" }]

/-- The retry of a small configuration. -/
def smallDispatch (name : Bytes) : Dispatch := .manual ⟨readSmallRetry, readSmallTask name⟩

/-- A queue in which a slot of another task waits. -/
def smallHistory : QueueHistory :=
  QueueHistory.after compactNlohmann pathStore {} (.beginJob pathTask pathStart [] (text "s"))

theorem reachable_smallHistory : QueueReachable compactNlohmann pathStore smallHistory :=
  .step _ .fresh trivial

/-- What is fetched of a small configuration offers its retry. -/
theorem offered_smallDispatch {name : Bytes} {config : PulledAgentConfig}
    (h : (config.tasks, config.pendingExecutions) = ([readSmallTask name], [readSmallRetry])) :
    (smallDispatch name).OfferedBy config := by
  obtain ⟨htasks, hpending⟩ := Prod.mk.inj h
  constructor
  · change readSmallTask name ∈ config.tasks
    rw [htasks]
    exact List.mem_singleton_self _
  · change readSmallRetry ∈ config.pendingExecutions
    rw [hpending]
    exact List.mem_singleton_self _

theorem named_smallDispatch : (smallDispatch (text "t")).Named := by
  refine ⟨?_, by decide, (by decide : 0 ∉ text "retry"), ?_⟩
  · refine ⟨by decide, by decide, by decide, by decide, by decide, by decide, by decide, ?_, ?_⟩
    · constructor <;> decide
    · intro rule hrule
      obtain rfl := List.mem_singleton.mp hrule
      constructor <;> decide
  · intro file hfile
    obtain rfl := List.mem_singleton.mp hfile
    constructor <;> decide

end LabBridge.Agent
