import LabBridge.Agent.CodecRoundTrip
import LabBridge.Agent.QueueLifecycle

/-!
# What loading a job can raise

Reading a persisted request raises exceptions of the codec or of the JSON library, never one of
the queue. The persisted failures of a job do raise those of the queue when they are damaged,
but every reachable queue holds them as they were written.
-/

namespace LabBridge.Agent

open ByteText JsonText Fallible LabBridge.Core

variable {J : Nlohmann} {store : AgentQueueStore} {α β : Type}

/-- A result that is no exception of the queue. -/
def NoQueueError (result : Except AgentError α) : Prop :=
  ∀ message, result ≠ .error (.queue message)

namespace NoQueueError

/-- A value is no exception. -/
@[simp] theorem ok (value : α) : NoQueueError (.ok value : Except AgentError α) := by
  intro message h
  cases h

/-- A returned value is no exception. -/
@[simp] theorem pure (value : α) : NoQueueError (Pure.pure value : Except AgentError α) := ok value

/-- An exception of another class. -/
@[simp] theorem error_iff {error : AgentError} :
    NoQueueError (.error error : Except AgentError α) ↔ ∀ message, error ≠ .queue message := by
  simp [NoQueueError]

/-- A thrown exception of another class. -/
@[simp] theorem throw_iff {error : AgentError} :
    NoQueueError (throw error : Except AgentError α) ↔ ∀ message, error ≠ .queue message :=
  error_iff

/-- A computation in two parts. -/
theorem bind {first : Except AgentError α} {next : α → Except AgentError β}
    (hfirst : NoQueueError first) (hnext : ∀ value, NoQueueError (next value)) :
    NoQueueError (first >>= next) := by
  cases first with
  | error error => exact error_iff.mpr (error_iff.mp hfirst)
  | ok value => exact hnext value

/-- A computation behind a check that raises an exception of another class. -/
theorem check {refused : Prop} [Decidable refused] {error : AgentError}
    {rest : β → Except AgentError α} {next : Except AgentError α}
    (herror : ∀ message, error ≠ .queue message) (hnext : NoQueueError next) :
    NoQueueError (if refused then throw error >>= rest else next) := by
  by_cases h : refused
  · rw [if_pos h]
    exact error_iff.mpr herror
  · rw [if_neg h]
    exact hnext

/-- A computation whose value is changed. -/
theorem map {first : Except AgentError α} {f : α → β} (hfirst : NoQueueError first) :
    NoQueueError (f <$> first) := by
  cases first with
  | error error => exact error_iff.mpr (error_iff.mp hfirst)
  | ok value => exact ok (f value)

/-- A computation on every item. -/
theorem mapM {f : α → Except AgentError β} (items : List α) (hf : ∀ item, NoQueueError (f item)) :
    NoQueueError (items.mapM f) := by
  induction items with
  | nil => exact ok []
  | cons item rest ih =>
    rw [List.mapM_cons]
    apply bind (hf item)
    intro value
    exact bind ih fun values => ok (value :: values)

end NoQueueError

/-! ## Fields -/

/-- Reading a text field. -/
theorem noQueueError_requiredString (object : Json) (field : String) (allowEmpty : Bool) :
    NoQueueError (requiredString object field allowEmpty) := by
  unfold requiredString
  split
  · split <;> simp [fieldError]
  · simp [fieldError]

/-- Reading an object field. -/
theorem noQueueError_requiredObject (object : Json) (field : String) :
    NoQueueError (requiredObject object field) := by
  unfold requiredObject
  split <;> simp [fieldError]

/-- Reading an array field. -/
theorem noQueueError_requiredArray (object : Json) (field : String) :
    NoQueueError (requiredArray object field) := by
  unfold requiredArray
  split <;> simp [fieldError]

/-- Reading a counter. -/
theorem noQueueError_requiredNonNegativeInt (object : Json) (field : String) :
    NoQueueError (requiredNonNegativeInt object field) := by
  unfold requiredNonNegativeInt
  split
  · split <;> simp [fieldError]
  · simp [fieldError]

/-- Reading a size. -/
theorem noQueueError_requiredNonNegativeLong (object : Json) (field : String) :
    NoQueueError (requiredNonNegativeLong object field) := by
  unfold requiredNonNegativeLong
  split
  · split <;> simp [fieldError]
  · simp [fieldError]

/-- Reading a truth value. -/
theorem noQueueError_requiredBoolean (object : Json) (field : String) :
    NoQueueError (requiredBoolean object field) := by
  unfold requiredBoolean
  split <;> simp [fieldError]

/-- Parsing a persisted document. -/
theorem noQueueError_parsePayload (stored : Bytes) : NoQueueError (parsePayload J stored) := by
  unfold parsePayload
  split
  · simp
  · split <;> simp
  · simp

/-! ## Requests -/

/-- Reading a rule of a task. -/
theorem noQueueError_decodeQcRule (payload : Json) : NoQueueError (decodeQcRule payload) := by
  unfold decodeQcRule
  iterate 4 refine .bind (noQueueError_requiredString _ _ _) fun _ => ?_
  exact .pure _

/-- Reading the type of a data source. -/
theorem noQueueError_decodeSourceType (value : Bytes) : NoQueueError (decodeSourceType value) := by
  unfold decodeSourceType
  split
  · exact .ok _
  · split
    · exact .ok _
    · split <;> simp

/-- Reading the data source of a task. -/
theorem noQueueError_decodeDataSource (payload : Json) :
    NoQueueError (decodeDataSource payload) := by
  unfold decodeDataSource
  iterate 3 refine .bind (noQueueError_requiredString _ _ _) fun _ => ?_
  refine .bind (noQueueError_decodeSourceType _) fun _ => ?_
  iterate 2 refine .bind (noQueueError_requiredString _ _ _) fun _ => ?_
  exact .pure _

/-- Reading a task. -/
theorem noQueueError_decodeTaskConfig (stored : Bytes) :
    NoQueueError (decodeTaskConfig J stored) := by
  unfold decodeTaskConfig
  refine .bind (noQueueError_parsePayload stored) fun payload => ?_
  refine .bind (noQueueError_requiredObject _ _) fun source => ?_
  iterate 8 refine .bind (noQueueError_requiredString _ _ _) fun _ => ?_
  refine .bind (noQueueError_requiredBoolean _ _) fun enabled => ?_
  refine .bind (noQueueError_decodeDataSource _) fun dataSource => ?_
  refine .bind (noQueueError_requiredArray _ _) fun items => ?_
  refine .bind (.mapM items noQueueError_decodeQcRule) fun qcRules => ?_
  exact .pure _

/-- Reading how a run was triggered. -/
theorem noQueueError_decodeTriggerType (payload : Json) :
    NoQueueError (decodeTriggerType payload) := by
  unfold decodeTriggerType
  refine .bind (noQueueError_requiredString _ _ _) fun triggerType => ?_
  exact .check (by simp) (.pure _)

/-- Reading a start. -/
theorem noQueueError_decodeStartTaskRunRequest (stored : Bytes) :
    NoQueueError (decodeStartTaskRunRequest J stored) := by
  unfold decodeStartTaskRunRequest
  refine .bind (noQueueError_parsePayload stored) fun payload => ?_
  refine .bind (noQueueError_decodeTriggerType payload) fun triggerType => ?_
  iterate 5 refine .bind (noQueueError_requiredString _ _ _) fun _ => ?_
  exact .pure _

/-- Reading an entry of a manifest. -/
theorem noQueueError_decodeManifestEntry (payload : Json) :
    NoQueueError (decodeManifestEntry payload) := by
  unfold decodeManifestEntry
  iterate 3 refine .bind (noQueueError_requiredString _ _ _) fun _ => ?_
  refine .bind (noQueueError_requiredNonNegativeLong _ _) fun _ => ?_
  iterate 2 refine .bind (noQueueError_requiredString _ _ _) fun _ => ?_
  exact .pure _

/-- Reading a manifest. -/
theorem noQueueError_decodeRawFileManifestRequest (stored : Bytes) :
    NoQueueError (decodeRawFileManifestRequest J stored) := by
  unfold decodeRawFileManifestRequest
  refine .bind (noQueueError_parsePayload stored) fun payload => ?_
  iterate 3 refine .bind (noQueueError_requiredString _ _ _) fun _ => ?_
  refine .bind (noQueueError_requiredArray _ _) fun items => ?_
  refine .bind (.mapM items noQueueError_decodeManifestEntry) fun files => ?_
  exact .pure _

/-- Reading a rule result. -/
theorem noQueueError_decodeQcResult (payload : Json) : NoQueueError (decodeQcResult payload) := by
  unfold decodeQcResult
  iterate 4 refine .bind (noQueueError_requiredString _ _ _) fun _ => ?_
  exact .pure _

/-- Reading a record of a report. -/
theorem noQueueError_decodeParsedRecord (payload : Json) :
    NoQueueError (decodeParsedRecord payload) := by
  unfold decodeParsedRecord
  iterate 6 refine .bind (noQueueError_requiredString _ _ _) fun _ => ?_
  refine .bind (noQueueError_requiredArray _ _) fun items => ?_
  refine .bind (.mapM items noQueueError_decodeQcResult) fun qcResults => ?_
  exact .pure _

/-- Reading a failed file of a report. -/
theorem noQueueError_decodeFailedFile (payload : Json) :
    NoQueueError (decodeFailedFile payload) := by
  unfold decodeFailedFile
  iterate 5 refine .bind (noQueueError_requiredString _ _ _) fun _ => ?_
  exact .pure _

/-- Reading the failed files of a report. -/
theorem noQueueError_decodeReportFailures (payload : Json) :
    NoQueueError (decodeReportFailures payload) := by
  unfold decodeReportFailures
  split
  · refine .bind (noQueueError_requiredArray _ _) fun items => ?_
    exact .bind (.mapM items noQueueError_decodeFailedFile) fun failed => .pure _
  · exact .pure _

/-- Reading the status of a report. -/
theorem noQueueError_decodeTerminalStatus (value : Bytes) :
    NoQueueError (decodeTerminalStatus value) := by
  unfold decodeTerminalStatus
  split
  · exact .ok _
  · split <;> simp

/-- Reading a report. -/
theorem noQueueError_decodeTaskRunReportRequest (stored : Bytes) :
    NoQueueError (decodeTaskRunReportRequest J stored) := by
  unfold decodeTaskRunReportRequest
  refine .bind (noQueueError_parsePayload stored) fun payload => ?_
  iterate 4 refine .bind (noQueueError_requiredString _ _ _) fun _ => ?_
  refine .bind (noQueueError_decodeTerminalStatus _) fun status => ?_
  refine .bind (noQueueError_requiredString _ _ _) fun finishedAt => ?_
  iterate 3 refine .bind (noQueueError_requiredNonNegativeInt _ _) fun _ => ?_
  refine .bind (noQueueError_requiredString _ _ _) fun errorSummary => ?_
  refine .bind (noQueueError_decodeReportFailures payload) fun failures => ?_
  refine .bind (noQueueError_requiredArray _ _) fun items => ?_
  refine .bind (.mapM items noQueueError_decodeParsedRecord) fun parsedRecords => ?_
  exact .pure _

/-- Reading a retry input. -/
theorem noQueueError_decodeRetryFile (item : Json) : NoQueueError (decodeRetryFile item) := by
  unfold decodeRetryFile
  refine .check (by simp) (.bind (noQueueError_requiredString _ _ _) fun inputType => ?_)
  refine .check (by simp) ?_
  iterate 4 refine .bind (noQueueError_requiredString _ _ _) fun _ => ?_
  refine .bind (noQueueError_requiredNonNegativeLong _ _) fun sizeBytes => ?_
  iterate 2 refine .bind (noQueueError_requiredString _ _ _) fun _ => ?_
  exact .pure _

/-- Reading the retry inputs of a job. -/
theorem noQueueError_decodeRetryFiles (stored : Bytes) :
    NoQueueError (decodeRetryFiles J stored) := by
  unfold decodeRetryFiles
  split
  · exact .ok _
  · split
    · simp
    · exact .mapM _ noQueueError_decodeRetryFile
    · simp

/-! ## Jobs -/

/-- Reading a request that may be absent. -/
theorem noQueueError_readRequest {decode : Bytes → Except AgentError α}
    (hdecode : ∀ stored, NoQueueError (decode stored)) (absent : α)
    (delivery : Option PendingDelivery) : NoQueueError (readRequest decode absent delivery) := by
  unfold readRequest
  dsimp only
  split
  · exact .ok _
  · exact hdecode _

/-- A job whose persisted failures read back is loaded without an exception of the queue. -/
theorem noQueueError_readRecoveredJob {db : QueueDatabase} {job : PendingJob}
    {failures : List TaskRunReportFailedFile}
    (h : decodeFailedFiles J (readText (job.fileFailuresJson.getD [])) = .ok failures)
    (start : PendingDelivery) : NoQueueError (readRecoveredJob J db job start) := by
  unfold readRecoveredJob
  refine .bind (noQueueError_decodeTaskConfig _) fun task => ?_
  refine .bind (noQueueError_decodeStartTaskRunRequest _) fun startRequest => ?_
  refine .bind (noQueueError_readRequest noQueueError_decodeRawFileManifestRequest _ _) fun _ => ?_
  refine .bind (noQueueError_readRequest noQueueError_decodeTaskRunReportRequest _ _) fun _ => ?_
  refine .bind (noQueueError_decodeRetryFiles _) fun retryFiles => ?_
  dsimp only
  rw [h]
  exact .pure _

/-! ## Persisted failures -/

/-- A text of a persisted failure reads as it was written, may it be empty. -/
theorem failureField_record {fields : List (String × Json)} {field : String} {value : Bytes}
    (fallback : Option Bytes) (h : fields.lookup field = some (.str value)) :
    failureField (.record fields) field fallback = .ok value := by
  unfold failureField
  rw [Json.field?_record, h]

/-- A persisted failure reads back, whatever its texts. -/
theorem decodePersistedFailure_encode (failed : TaskRunReportFailedFile) :
    decodePersistedFailure (encodeFailedFile failed) = .ok failed := by
  unfold decodePersistedFailure encodeFailedFile
  simp [failureField_record, List.lookup_cons, bind_eq_ok]

/-- Persisted failures read back. -/
theorem decodeFailedFiles_encode {failures : List TaskRunReportFailedFile} {stored : Bytes}
    (h : encodeFileFailures J failures = .ok stored) :
    decodeFailedFiles J (readText stored) = .ok failures := by
  have hprinted := J.dumped_eq_ok.mp h
  have hcanonical : (Json.arr (failures.map encodeFailedFile)).Canonical := by
    rw [Json.canonical_arr, List.forall_mem_map]
    intro failed hfailed
    refine .record (by simp only [List.map_cons, List.map_nil]; decide +kernel) ?_
    simp
  have hparse := J.parse_dump hcanonical hprinted
  rw [readText_of_notMem (J.zero_notMem_dump hprinted), decodeFailedFiles,
    if_neg (J.dump_ne_nil hprinted), hparse]
  simp only [mapM_map_eq_ok, decodePersistedFailure_encode, implies_true]

/-- The failures of a job are as they were written. -/
def HoldsFailures (J : Nlohmann) (job : PendingJob) : Prop :=
  ∀ stored, job.fileFailuresJson = some stored →
    ∃ failures, encodeFileFailures J failures = .ok stored

/-- The failures of a job read back. -/
theorem HoldsFailures.decodes {job : PendingJob} (h : HoldsFailures J job) :
    ∃ failures, decodeFailedFiles J (readText (job.fileFailuresJson.getD [])) = .ok failures := by
  cases hstored : job.fileFailuresJson with
  | none => exact ⟨[], if_pos rfl⟩
  | some stored =>
    obtain ⟨failures, hfailures⟩ := h stored hstored
    exact ⟨failures, decodeFailedFiles_encode hfailures⟩

variable {db after : QueueDatabase} {key : Bytes}

/-- A statement over jobs keeps their failures when its change does. -/
theorem holdsFailures_updateJobs {selects : PendingJob → Bool} {change : PendingJob → PendingJob}
    (hdb : ∀ job ∈ db.jobs, HoldsFailures J job)
    (hchange : ∀ job, HoldsFailures J job → HoldsFailures J (change job)) :
    ∀ job ∈ (db.updateJobs selects change).jobs, HoldsFailures J job := by
  intro job hjob
  obtain ⟨old, hold, rfl⟩ := List.mem_map.mp hjob
  by_cases hselected : selects old = true
  · rw [if_pos hselected]
    exact hchange old (hdb old hold)
  · rw [if_neg hselected]
    exact hdb old hold

/-- Persisting the failures of a job leaves failures that were written. -/
theorem holdsFailures_updateFailures {failures : List TaskRunReportFailedFile}
    {failuresJson : Bytes} {refusal : AgentError} (hdb : ∀ job ∈ db.jobs, HoldsFailures J job)
    (hencoded : encodeFileFailures J failures = .ok failuresJson)
    (h : db.updateJob (jobOf key) (fun job => { job with fileFailuresJson := some failuresJson })
      refusal = .ok after) : ∀ job ∈ after.jobs, HoldsFailures J job := by
  obtain ⟨-, rfl⟩ := updateJob_eq_ok.mp h
  apply holdsFailures_updateJobs hdb
  intro job _ stored hstored
  cases hstored
  exact ⟨failures, hencoded⟩

/-- A new delivery leaves the jobs alone. -/
theorem jobs_insertDelivery {delivery : PendingDelivery} {operation : String}
    (h : db.insertDelivery delivery operation = .ok after) : after.jobs = db.jobs := by
  unfold QueueDatabase.insertDelivery at h
  split at h
  · cases h
  · cases h
    rfl

/-- New planned files leave the jobs alone. -/
theorem jobs_insertFiles {files : List PendingFilePlan}
    (h : files.foldlM (fun db file => db.insertFile (file.row key)) db = .ok after) :
    after.jobs = db.jobs := by
  have hstep : ∀ {state : QueueDatabase} {file : PendingFilePlan} {next : QueueDatabase},
      state.jobs = db.jobs → state.insertFile (file.row key) = .ok next → next.jobs = db.jobs := by
    intro state file next hstate hinsert
    unfold QueueDatabase.insertFile at hinsert
    split at hinsert
    · cases hinsert
    · cases hinsert
      exact hstate
  exact foldlM_keeps hstep rfl h

/-- Recorded outcomes leave the jobs alone. -/
theorem jobs_recordOutcomes (outcomes : List (Bool × ℕ)) :
    (outcomes.foldl (recordOutcome key) db).jobs = db.jobs := by
  induction outcomes generalizing db with
  | nil => rfl
  | cons outcome rest ih => exact ih

/-- A new job has no failures yet. -/
theorem holdsFailures_beginJob {task : TaskConfig} {request : StartTaskRunRequest}
    {retryFiles : List RetryFileInput} {now : Bytes} {isNew : Bool}
    (hdb : ∀ job ∈ db.jobs, HoldsFailures J job)
    (h : beginJob J store task request retryFiles now db = .ok (isNew, after)) :
    ∀ job ∈ after.jobs, HoldsFailures J job := by
  simp only [Agent.beginJob, bind_eq_ok, check_eq_ok] at h
  obtain ⟨-, taskJson, -, requestJson, -, retryFilesJson, -, h⟩ := h
  split at h
  · split at h
    · rw [pure_eq_ok] at h
      cases h
      exact hdb
    · exact absurd h throw_ne_ok
  · simp only [check_eq_ok, bind_eq_ok, pure_eq_ok, Prod.mk.injEq] at h
    obtain ⟨-, inserted, hinserted, started, hstarted, -, rfl⟩ := h
    rw [jobs_insertDelivery hstarted]
    unfold QueueDatabase.insertJob at hinserted
    split at hinserted
    · cases hinserted
    · cases hinserted
      intro job hjob
      cases List.mem_append.mp hjob with
      | inl hold => exact hdb job hold
      | inr hnew =>
        rw [List.mem_singleton.mp hnew]
        intro stored hstored
        cases hstored

/-- Every operation keeps the failures of the jobs as they were written. -/
theorem holdsFailures_run (operation : QueueOperation) (hdb : ∀ job ∈ db.jobs, HoldsFailures J job)
    (h : operation.run J store db = .ok after) : ∀ job ∈ after.jobs, HoldsFailures J job := by
  cases operation with
  | beginJob task request retryFiles now =>
    obtain ⟨⟨isNew, database⟩, hbegin, rfl⟩ := map_eq_ok.mp h
    exact holdsFailures_beginJob hdb hbegin
  | saveFilePlan key files failures =>
    simp only [QueueOperation.run, saveFilePlan, bind_eq_ok] at h
    obtain ⟨failuresJson, hencoded, planned, hplanned, h⟩ := h
    rw [← jobs_insertFiles hplanned] at hdb
    exact holdsFailures_updateFailures hdb hencoded h
  | saveFileFailures key failures =>
    simp only [QueueOperation.run, saveFileFailures, bind_eq_ok] at h
    obtain ⟨failuresJson, hencoded, h⟩ := h
    exact holdsFailures_updateFailures hdb hencoded h
  | markFileFailed key ordinal errorDetail failures =>
    simp only [QueueOperation.run, markFileFailed, bind_eq_ok] at h
    obtain ⟨failuresJson, hencoded, marked, hmarked, h⟩ := h
    obtain ⟨-, rfl⟩ := updateFile_eq_ok.mp hmarked
    exact holdsFailures_updateFailures (by exact hdb) hencoded h
  | acceptStart key taskRunId =>
    obtain ⟨-, rfl⟩ := updateJob_eq_ok.mp h
    exact holdsFailures_updateJobs hdb fun job hjob => hjob
  | markFileArchived key ordinal =>
    obtain ⟨-, rfl⟩ := updateFile_eq_ok.mp h
    exact hdb
  | saveManifest key request =>
    simp only [QueueOperation.run, saveManifest, bind_eq_ok] at h
    obtain ⟨requestJson, -, inserted, hinserted, h⟩ := h
    obtain ⟨-, rfl⟩ := updateJob_eq_ok.mp h
    rw [← jobs_insertDelivery hinserted] at hdb
    exact holdsFailures_updateJobs hdb fun job hjob => hjob
  | acceptManifest key rawFileIds =>
    simp only [QueueOperation.run, acceptManifest] at h
    split at h
    · exact absurd h throw_ne_ok
    · simp only [bind_eq_ok, check_eq_ok, pure_eq_ok] at h
      obtain ⟨manifest, -, -, mapped, hmapped, rfl⟩ := h
      rw [← (frame_mapRawFileIds hmapped).1] at hdb
      exact holdsFailures_updateJobs hdb fun job hjob => hjob
  | saveReport key request outcomes =>
    simp only [QueueOperation.run, saveReport, bind_eq_ok, check_eq_ok, pure_eq_ok] at h
    obtain ⟨requestJson, -, -, inserted, hinserted, rfl⟩ := h
    rw [← jobs_insertDelivery hinserted, ← jobs_recordOutcomes outcomes.zipIdx] at hdb
    exact holdsFailures_updateJobs hdb fun job hjob => hjob
  | completeJob key now =>
    simp only [QueueOperation.run, completeJob] at h
    split at h
    · cases h
      exact fun job hjob => hdb job (List.mem_of_mem_filter hjob)
    · cases h
  | discardStartPendingJob key =>
    simp only [QueueOperation.run, discardStartPendingJob] at h
    split at h
    · cases h
    · split at h
      · cases h
        exact fun job hjob => hdb job (List.mem_of_mem_filter hjob)
      · cases h
  | markRequiresAttention key errorKind =>
    simp only [QueueOperation.run, markRequiresAttention] at h
    split at h
    · exact absurd h throw_ne_ok
    · rw [bind_eq_ok] at h
      obtain ⟨stage, -, h⟩ := h
      obtain ⟨-, rfl⟩ := updateJob_eq_ok.mp h
      exact holdsFailures_updateJobs hdb fun job hjob => hjob
  | recordDeliveryFailure type idempotencyKey retryable errorKind retryDelay now =>
    simp only [QueueOperation.run, recordDeliveryFailure] at h
    split at h
    · split at h
      · cases h
        exact holdsFailures_updateJobs (by exact hdb) fun job hjob => hjob
      · cases h
        exact hdb
    · cases h
  | resumeDelivery type idempotencyKey =>
    simp only [QueueOperation.run, resumeDelivery] at h
    split at h
    · cases h
    · split at h
      · cases h
      · cases h
        exact holdsFailures_updateJobs hdb fun job hjob => hjob
  | retryAttentionJob key =>
    obtain ⟨⟨status, database⟩, hretry, rfl⟩ := map_eq_ok.mp h
    simp only [retryAttentionJob] at hretry
    split at hretry
    · exact absurd hretry throw_ne_ok
    · split at hretry
      · rw [bind_eq_ok] at hretry
        obtain ⟨stage, -, hretry⟩ := hretry
        rw [pure_eq_ok] at hretry
        cases hretry
        exact holdsFailures_updateJobs hdb fun job hjob => hjob
      · rw [pure_eq_ok] at hretry
        cases hretry
        exact hdb

/-- Every reachable queue holds the failures of its jobs as they were written. -/
theorem holdsFailures_of_reachable {history : QueueHistory}
    (reached : QueueReachable J store history) :
    ∀ job ∈ history.database.jobs, HoldsFailures J job := by
  induction reached with
  | fresh => exact fun job hjob => absurd hjob List.not_mem_nil
  | step operation reached inStage ih =>
    unfold QueueHistory.after
    split
    · rename_i database h
      exact holdsFailures_run operation ih h
    · exact ih

end LabBridge.Agent
