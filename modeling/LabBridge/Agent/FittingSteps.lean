import LabBridge.Agent.AttentionRetry
import LabBridge.Agent.CodecExceptions
import LabBridge.Agent.DeliveryOutcomes
import LabBridge.Agent.PlanFrames
import LabBridge.Agent.ReliableJobs

/-!
# Which steps of a run the queue takes

The queue refuses a plan that names a place or a fingerprint twice, a request whose kind or key is
taken, identifiers that do not match the manifest, and the discard of a planned job. A step that
is none of these fits, and in a job that stands in the stage of the step no exception of the queue
is raised.
-/

namespace LabBridge.Agent

open ByteText JsonText Fallible Delivered LabBridge.Core

variable {J : Nlohmann} {store : AgentQueueStore} {db before after next : QueueDatabase}
  {key : Bytes} {row : PendingJob} {returned : Bytes → List Bytes}

/-! ## Places -/

/-- The place of a planned file. -/
def PendingFile.place (file : PendingFile) : Bytes × ℤ := (file.executionKey, file.ordinal)

/-- Planned files are told apart by their places. -/
def Placed (db : QueueDatabase) : Prop := (db.files.map PendingFile.place).Nodup

/-- A place is part of an identity. -/
theorem places_of_identities (files : List PendingFile) : files.map PendingFile.place =
    (files.map PendingFile.identity).map fun identity => (identity.1, identity.2.1) := by
  rw [List.map_map]
  rfl

/-- An edit leaves the places as they are. -/
theorem Placed.edits (h : Placed before) (hedits : Edits before after) : Placed after := by
  unfold Placed at *
  rw [places_of_identities, hedits.files, ← places_of_identities]
  exact h

/-- A file is inserted at a free place. -/
theorem Placed.insertFile {file : PendingFile} (h : Placed db)
    (hinsert : db.insertFile file = .ok next) : Placed next := by
  unfold QueueDatabase.insertFile at hinsert
  split at hinsert
  · cases hinsert
  · rename_i hfree
    cases hinsert
    rw [not_or, not_or, List.any_eq_true, not_exists] at hfree
    unfold Placed
    rw [List.map_append, List.map_singleton, List.nodup_append]
    refine ⟨h, List.nodup_singleton _, ?_⟩
    intro place hplace taken htaken heq
    rw [List.mem_singleton] at htaken
    obtain ⟨other, hother, rfl⟩ := List.mem_map.mp hplace
    rw [htaken] at heq
    obtain ⟨hkey, hordinal⟩ := Prod.mk.inj heq
    apply hfree.2.2 other
    refine ⟨List.mem_filter.mpr ⟨hother, beq_iff_eq.mpr hkey⟩, ?_⟩
    rw [Bool.or_eq_true, beq_iff_eq]
    exact .inl hordinal

/-- Deleting jobs frees places. -/
theorem Placed.deleteJobs (h : Placed db) (selects : PendingJob → Bool) :
    Placed (db.deleteJobs selects) := h.sublist (List.filter_sublist.map _)

/-- Every operation keeps the places apart. -/
theorem Placed.run {operation : QueueOperation} (h : Placed db)
    (hrun : operation.run J store db = .ok next) : Placed next := by
  cases operation with
  | beginJob task request retryFiles now =>
    obtain ⟨⟨answer, begun⟩, hbegin, rfl⟩ := map_eq_ok.mp hrun
    have hfiles : begun.files = db.files := files_beginJob hbegin
    unfold Placed
    rw [hfiles]
    exact h
  | saveFilePlan key files failures =>
    obtain ⟨failuresJson, planned, -, hplanned, hsaved⟩ := saveFilePlan_eq_ok.mp hrun
    have hplaced : Placed planned := by
      apply foldlM_keeps _ h hplanned
      exact fun hstate hnext => hstate.insertFile hnext
    exact hplaced.edits (leavesFiles_updateJob hsaved fun _ => rfl).edits
  | completeJob key now =>
    simp only [QueueOperation.run, completeJob] at hrun
    split at hrun
    · cases hrun
      apply Placed.deleteJobs
      exact h
    · cases hrun
  | discardStartPendingJob key =>
    simp only [QueueOperation.run, discardStartPendingJob] at hrun
    split at hrun
    · cases hrun
    · split at hrun
      · cases hrun
        exact h.deleteJobs _
      · cases hrun
  | saveFileFailures | markFileFailed | acceptStart | markFileArchived | saveManifest
  | acceptManifest | saveReport | markRequiresAttention | recordDeliveryFailure | resumeDelivery
  | retryAttentionJob => exact h.edits (edits_run rfl hrun)

/-- The planned files of every reachable queue are told apart by their places. -/
theorem placed_of_reachable {history : QueueHistory} (reached : QueueReachable J store history) :
    Placed history.database := by
  induction reached with
  | fresh => exact List.nodup_nil
  | step operation reached inStage ih =>
    unfold QueueHistory.after
    split
    · rename_i database h
      exact ih.run h
    · exact ih

/-- Every planned file is the one at its place. -/
theorem Placed.countP_fileAt (h : Placed db) {file : PendingFile} (hfile : file ∈ db.files)
    (hkey : file.executionKey = key) : db.files.countP (fileAt key file.ordinal) = 1 := by
  apply countP_eq_one hfile
  · simp [fileAt, hkey]
  · apply (List.pairwise_map.mp h).imp
    intro left right hne hleft
    simp only [fileAt, Bool.and_eq_true, beq_iff_eq] at hleft
    rw [← Bool.not_eq_true, fileAt, Bool.and_eq_true, beq_iff_eq, beq_iff_eq]
    intro hright
    apply hne
    unfold PendingFile.place
    rw [hleft.1, hleft.2, hright.1, hright.2]

/-- A statement that goes by identity alone selects as many files after an edit as before. -/
theorem Edits.countP (h : Edits before after) (selects : Bytes × ℤ × Bytes → Bool) :
    after.files.countP (fun file => selects file.identity) =
      before.files.countP fun file => selects file.identity := by
  have hidentity : ∀ files : List PendingFile,
      files.countP (fun file => selects file.identity) =
        (files.map PendingFile.identity).countP selects := by
    intro files
    rw [List.countP_map]
    rfl
  rw [hidentity, hidentity, h.files]

/-- An edit leaves every file at its place. -/
theorem Edits.countP_fileAt (h : Edits before after) (key : Bytes) (ordinal : ℤ) :
    after.files.countP (fileAt key ordinal) = before.files.countP (fileAt key ordinal) :=
  h.countP fun identity => identity.1 == key && identity.2.1 == ordinal

/-- An edit leaves every file under its archive path. -/
theorem Edits.countP_fileUnder (h : Edits before after) (key path : Bytes) :
    after.files.countP (fileUnder key path) = before.files.countP (fileUnder key path) :=
  h.countP fun identity => identity.1 == key && identity.2.2 == path

/-! ## Fitting steps -/

/-- The rows of a plan can stand beside each other. -/
structure Insertable (files : List PendingFilePlan) : Prop where
  sizes : ∀ file ∈ files, 0 ≤ file.sizeBytes
  apart : files.Pairwise fun left right =>
    left.ordinal ≠ right.ordinal ∧ left.fingerprint ≠ right.fingerprint

instance (files : List PendingFilePlan) : Decidable (Insertable files) :=
  decidable_of_iff ((∀ file ∈ files, 0 ≤ file.sizeBytes) ∧ files.Pairwise fun left right =>
    left.ordinal ≠ right.ordinal ∧ left.fingerprint ≠ right.fingerprint)
    ⟨fun h => ⟨h.1, h.2⟩, fun h => ⟨h.sizes, h.apart⟩⟩

/-- A job has no request of a kind yet, and no job has one under the key. -/
def Untaken (db : QueueDatabase) (key : Bytes) (type : RequestType) (idempotencyKey : Bytes) :
    Prop :=
  db.delivery? key type = none ∧ db.deliveryOf? type idempotencyKey = none

instance (db : QueueDatabase) (key : Bytes) (type : RequestType) (idempotencyKey : Bytes) :
    Decidable (Untaken db key type idempotencyKey) := inferInstanceAs (Decidable (_ ∧ _))

/-- A request is delivered under the key that it is kept under. -/
def KeptUnder (db : QueueDatabase) (key : Bytes) (type : RequestType) (idempotencyKey : Bytes) :
    Prop :=
  (db.delivery? key type).map PendingDelivery.idempotencyKey = some idempotencyKey

instance (db : QueueDatabase) (key : Bytes) (type : RequestType) (idempotencyKey : Bytes) :
    Decidable (KeptUnder db key type idempotencyKey) := inferInstanceAs (Decidable (_ = _))

/-- An operation that the queue does not refuse: unless its document does not print or read, what
it saves is not there yet, what it accepts matches what is there, and what it discards has no
plan. -/
def QueueOperation.Fits (J : Nlohmann) (db : QueueDatabase) : QueueOperation → Prop
  | .saveFilePlan _ files failures => ∀ stored, encodeFileFailures J failures = .ok stored →
      Insertable files
  | .saveManifest key request => ∀ stored, encodeRawFileManifestRequest J request = .ok stored →
      Untaken db key .manifest request.idempotencyKey
  | .acceptManifest key rawFileIds => ∀ delivery, db.delivery? key .manifest = some delivery →
      ∀ manifest, decodeRawFileManifestRequest J (readText delivery.requestJson) = .ok manifest →
        manifest.files.length = rawFileIds.length ∧
          ∀ entry ∈ manifest.files, db.files.countP (fileUnder key entry.storagePath) = 1
  | .saveReport key request _ => ∀ stored, encodeTaskRunReportRequest J request = .ok stored →
      Untaken db key .report request.idempotencyKey
  | .discardStartPendingJob key => db.filesOf key = []
  | _ => True

instance decidableOperationFits (J : Nlohmann) (db : QueueDatabase) :
    (operation : QueueOperation) → Decidable (operation.Fits J db)
  | .saveFilePlan _ files failures => inferInstanceAs (Decidable (∀ stored,
      encodeFileFailures J failures = .ok stored → Insertable files))
  | .saveManifest key request => inferInstanceAs (Decidable (∀ stored,
      encodeRawFileManifestRequest J request = .ok stored →
        Untaken db key .manifest request.idempotencyKey))
  | .acceptManifest key rawFileIds => inferInstanceAs (Decidable (∀ delivery,
      db.delivery? key .manifest = some delivery → ∀ manifest,
        decodeRawFileManifestRequest J (readText delivery.requestJson) = .ok manifest →
          manifest.files.length = rawFileIds.length ∧
            ∀ entry ∈ manifest.files, db.files.countP (fileUnder key entry.storagePath) = 1))
  | .saveReport key request _ => inferInstanceAs (Decidable (∀ stored,
      encodeTaskRunReportRequest J request = .ok stored →
        Untaken db key .report request.idempotencyKey))
  | .discardStartPendingJob key =>
    decidable_of_iff ((db.filesOf key).isEmpty = true) List.isEmpty_iff
  | .beginJob .. | .saveFileFailures .. | .markFileFailed .. | .acceptStart ..
  | .markFileArchived .. | .completeJob .. | .markRequiresAttention .. | .recordDeliveryFailure ..
  | .resumeDelivery .. | .retryAttentionJob .. => .isTrue trivial

/-- A step of the run of a job that the queue does not refuse. -/
def QueueCall.Fits (J : Nlohmann) (key : Bytes) {β : Type} :
    QueueCall β → QueueDatabase → Prop
  | .write operation, db => operation.Fits J db
  | .startTaskRun request _, db => KeptUnder db key .start request.executionKey
  | .reportRawFileManifest request _, db => KeptUnder db key .manifest request.idempotencyKey
  | .reportTaskRun request _, db => KeptUnder db key .report request.idempotencyKey
  | _, _ => True

instance decidableCallFits (J : Nlohmann) (key : Bytes) {β : Type} :
    (call : QueueCall β) → (db : QueueDatabase) → Decidable (call.Fits J key db)
  | .write operation, db => decidableOperationFits J db operation
  | .startTaskRun request _, db =>
    inferInstanceAs (Decidable (KeptUnder db key .start request.executionKey))
  | .reportRawFileManifest request _, db =>
    inferInstanceAs (Decidable (KeptUnder db key .manifest request.idempotencyKey))
  | .reportTaskRun request _, db =>
    inferInstanceAs (Decidable (KeptUnder db key .report request.idempotencyKey))
  | .hasCapacity, _ | .findJob _, _ | .loadJob _, _ | .recoverJobs, _ | .chooseInputs .., _ =>
    .isTrue trivial

/-! ## Documents -/

/-- Printing a document. -/
theorem noQueueError_dumped (document : Json) : NoQueueError (J.dumped document) := by
  unfold Nlohmann.dumped
  split
  · exact .ok _
  · exact NoQueueError.error_iff.mpr fun message h => by cases h

/-- Printing the status of a report. -/
theorem noQueueError_encodeTerminalStatus (status : TaskRunStatus) :
    NoQueueError (encodeTerminalStatus status) := by
  cases status <;> simp [encodeTerminalStatus]

/-- Printing a report. -/
theorem noQueueError_encodeTaskRunReportRequest (request : TaskRunReportRequest) :
    NoQueueError (encodeTaskRunReportRequest J request) := by
  unfold encodeTaskRunReportRequest encodeTaskRunReportRequestJson
  apply NoQueueError.bind
  · exact .bind (noQueueError_encodeTerminalStatus _) fun status => .pure _
  · exact fun document => noQueueError_dumped document

/-- Printing the body of a report. -/
theorem noQueueError_encodeTaskRunReportHttpBody (request : TaskRunReportRequest) :
    NoQueueError (encodeTaskRunReportHttpBody J request) := by
  unfold encodeTaskRunReportHttpBody encodeTaskRunReportRequestJson
  apply NoQueueError.bind
  · exact .bind (noQueueError_encodeTerminalStatus _) fun status => .pure _
  · exact fun document => noQueueError_dumped _

/-! ## The job of a run -/

/-- The job of a key stands in a stage of a reachable queue. -/
structure StandsIn (J : Nlohmann) (store : AgentQueueStore) (key : Bytes) (stage : Stage)
    (db : QueueDatabase) : Prop where
  reaches : Reaches J store db
  row : ∃ row, db.job? key = some row ∧ row.stage = stage

/-- The job of a key can be executed. -/
def Workable (J : Nlohmann) (store : AgentQueueStore) (key : Bytes) (db : QueueDatabase) : Prop :=
  ∃ stage, isExecutableStage stage = true ∧ StandsIn J store key stage db

/-- An operation raises no exception of the queue, and leads where something holds. -/
structure Takes (J : Nlohmann) (store : AgentQueueStore) (operation : QueueOperation)
    (db : QueueDatabase) (good : QueueDatabase → Prop) : Prop where
  noQueueError : NoQueueError (operation.run J store db)
  good : ∀ next, operation.run J store db = .ok next → good next

/-- An operation that succeeds. -/
theorem takes_of_ok {operation : QueueOperation} {good : QueueDatabase → Prop}
    (h : operation.run J store db = .ok next) (hgood : good next) :
    Takes J store operation db good := by
  constructor
  · rw [h]
    exact .ok next
  · intro other hother
    rw [h] at hother
    cases hother
    exact hgood

/-- A computation whose second part is only reached with what the first one gives. -/
theorem NoQueueError.bind_of {α β : Type} {first : Except AgentError α}
    {rest : α → Except AgentError β} (hfirst : NoQueueError first)
    (hrest : ∀ value, first = .ok value → NoQueueError (rest value)) :
    NoQueueError (first >>= rest) := by
  cases first with
  | error error => exact error_iff.mpr (error_iff.mp hfirst)
  | ok value => exact hrest value rfl

/-- A statement selects the job of a key in its stage, and no other. -/
theorem QueueSound.countP_jobIn (sound : QueueSound J returned db) (hrow : db.job? key = some row)
    {stages : List Stage} (hstage : row.stage ∈ stages) :
    db.jobs.countP (jobIn key stages) = 1 := by
  apply countP_eq_one (mem_of_job? hrow).1
  · exact jobIn_iff.mpr ⟨(mem_of_job? hrow).2, hstage⟩
  · apply sound.keys.imp
    intro left right hne hleft
    rw [← Bool.not_eq_true, jobIn_iff]
    exact fun hright => hne ((jobIn_iff.mp hleft).1.trans hright.1.symm)

/-- The job of a key after a statement that selects it. -/
theorem job?_updateJobs_of_selected {selects : PendingJob → Bool}
    {change : PendingJob → PendingJob} (hrow : db.job? key = some row)
    (hselected : selects row = true)
    (hkey : ∀ job, (change job).executionKey = job.executionKey) :
    (db.updateJobs selects change).job? key = some (change row) := by
  rw [job?_updateJobs selects hkey, hrow, Option.map_some, if_pos hselected]

/-- The job of a key after a statement that does not select it. -/
theorem job?_updateJobs_of_unselected {selects : PendingJob → Bool}
    {change : PendingJob → PendingJob} (hrow : db.job? key = some row)
    (hunselected : ¬selects row = true)
    (hkey : ∀ job, (change job).executionKey = job.executionKey) :
    (db.updateJobs selects change).job? key = some row := by
  rw [job?_updateJobs selects hkey, hrow, Option.map_some, if_neg hunselected]

/-- The job of a key is in the stages a statement names. -/
theorem jobIn_of_job? {stages : List Stage} (hrow : db.job? key = some row)
    (hstage : row.stage ∈ stages) : jobIn key stages row = true :=
  jobIn_iff.mpr ⟨(mem_of_job? hrow).2, hstage⟩

/-- Jobs that are left alone are found as before. -/
theorem job?_of_jobs (h : after.jobs = before.jobs) : after.job? key = before.job? key := by
  unfold QueueDatabase.job?
  rw [h]

/-- A statement that selects one job is not refused. -/
theorem noQueueError_updateJob {selects : PendingJob → Bool} (h : db.jobs.countP selects = 1)
    (change : PendingJob → PendingJob) (refusal : AgentError) :
    NoQueueError (db.updateJob selects change refusal) := by
  rw [updateJob_eq_ok.mpr ⟨h, rfl⟩]
  exact .ok _

/-- Persisting the failures of a job leaves it in its stage. -/
theorem job?_updateFailures (hrow : db.job? key = some row) (hjobs : next.jobs = db.jobs)
    (failuresJson : Bytes) :
    (next.updateJobs (jobOf key) fun job =>
      { job with fileFailuresJson := some failuresJson }).job? key =
      some { row with fileFailuresJson := some failuresJson } := by
  apply job?_updateJobs_of_selected
  · rw [job?_of_jobs hjobs, hrow]
  · exact beq_iff_eq.mpr (mem_of_job? hrow).2
  · exact fun _ => rfl

section Operations

variable {stage : Stage} {failures : List TaskRunReportFailedFile}

/-- A started job is collecting. -/
theorem StandsIn.acceptStart (h : StandsIn J store key .startPending db) (taskRunId : Bytes) :
    Takes J store (.acceptStart key taskRunId) db (StandsIn J store key .collecting) := by
  obtain ⟨returned, sound⟩ := h.reaches.sound
  obtain ⟨row, hrow, hstage⟩ := h.row
  have hmem : row.stage ∈ [Stage.startPending] := List.mem_singleton.mpr hstage
  have hrun : (QueueOperation.acceptStart key taskRunId).run J store db = .ok (db.updateJobs
      (jobIn key [.startPending])
      fun job => { job with taskRunId := some taskRunId, stage := .collecting }) :=
    updateJob_eq_ok.mpr ⟨sound.countP_jobIn hrow hmem, rfl⟩
  refine takes_of_ok hrun ⟨h.reaches.run (.acceptStart key taskRunId) trivial hrun,
    { row with taskRunId := some taskRunId, stage := .collecting }, ?_, rfl⟩
  exact job?_updateJobs_of_selected hrow (jobIn_of_job? hrow hmem) fun _ => rfl

/-- The rows of a plan are inserted where the job has none. -/
theorem exists_insertFiles {files : List PendingFilePlan} (hrow : db.job? key = some row)
    (hfits : Insertable files) (hnew : ∀ file ∈ files, ∀ other ∈ db.filesOf key,
      other.ordinal ≠ file.ordinal ∧ other.fingerprint ≠ file.fingerprint) :
    ∃ planned, files.foldlM (fun db file => db.insertFile (file.row key)) db = .ok planned := by
  induction files generalizing db with
  | nil => exact ⟨db, rfl⟩
  | cons file rest ih =>
    have hinsert : db.insertFile (file.row key) =
        .ok { db with files := db.files ++ [file.row key] } := by
      unfold QueueDatabase.insertFile
      apply if_neg
      rw [not_or, not_or]
      refine ⟨?_, not_lt.mpr (hfits.sizes file List.mem_cons_self), ?_⟩
      · change ¬(db.job? key).isNone = true
        rw [hrow]
        exact Bool.false_ne_true
      · rw [List.any_eq_true]
        rintro ⟨other, hother, htaken⟩
        obtain ⟨hordinal, hfingerprint⟩ := hnew file List.mem_cons_self other hother
        rw [Bool.or_eq_true, beq_iff_eq, beq_iff_eq] at htaken
        exact htaken.elim hordinal hfingerprint
    rw [List.foldlM_cons, hinsert]
    have hfiles : Insertable rest :=
      ⟨fun other hother => hfits.sizes other (List.mem_cons_of_mem _ hother),
        (List.pairwise_cons.mp hfits.apart).2⟩
    have hfound : QueueDatabase.job? { db with files := db.files ++ [file.row key] } key =
        some row := hrow
    apply ih hfound hfiles
    intro later hlater other hother
    unfold QueueDatabase.filesOf at hother
    rw [List.filter_append, List.mem_append] at hother
    rcases hother with hold | hadded
    · exact hnew later (List.mem_cons_of_mem _ hlater) other hold
    · rw [List.mem_singleton.mp (List.mem_of_mem_filter hadded)]
      exact (List.pairwise_cons.mp hfits.apart).1 later hlater

/-- A plan is saved for a job that has none. -/
theorem StandsIn.saveFilePlan {files : List PendingFilePlan} (h : StandsIn J store key stage db)
    (hempty : db.filesOf key = [])
    (hfits : (QueueOperation.saveFilePlan key files failures).Fits J db) :
    Takes J store (.saveFilePlan key files failures) db (StandsIn J store key stage) := by
  obtain ⟨returned, sound⟩ := h.reaches.sound
  obtain ⟨row, hrow, hstage⟩ := h.row
  have hnew : ∀ file ∈ files, ∀ other ∈ db.filesOf key,
      other.ordinal ≠ file.ordinal ∧ other.fingerprint ≠ file.fingerprint := by
    intro file _ other hother
    rw [hempty] at hother
    cases hother
  constructor
  · refine .bind_of (noQueueError_dumped _) fun failuresJson hencoded => ?_
    obtain ⟨planned, hplanned⟩ := exists_insertFiles hrow (hfits failuresJson hencoded) hnew
    rw [hplanned]
    apply noQueueError_updateJob
    rw [jobs_insertFiles hplanned]
    exact sound.countP_jobOf hrow
  · intro next hrun
    obtain ⟨failuresJson, planned, -, hplanned, hsaved⟩ := saveFilePlan_eq_ok.mp hrun
    obtain ⟨-, rfl⟩ := updateJob_eq_ok.mp hsaved
    refine ⟨h.reaches.run (.saveFilePlan key files failures) trivial hrun, _,
      job?_updateFailures hrow (jobs_insertFiles hplanned) failuresJson, hstage⟩

/-- The failures of a job are saved. -/
theorem StandsIn.saveFileFailures (h : StandsIn J store key stage db) :
    Takes J store (.saveFileFailures key failures) db (StandsIn J store key stage) := by
  obtain ⟨returned, sound⟩ := h.reaches.sound
  obtain ⟨row, hrow, hstage⟩ := h.row
  constructor
  · refine .bind (noQueueError_dumped _) fun failuresJson => ?_
    exact noQueueError_updateJob (sound.countP_jobOf hrow) _ _
  · intro next hrun
    have hsaved := hrun
    simp only [QueueOperation.run, Agent.saveFileFailures, bind_eq_ok] at hsaved
    obtain ⟨failuresJson, -, hsaved⟩ := hsaved
    obtain ⟨-, rfl⟩ := updateJob_eq_ok.mp hsaved
    exact ⟨h.reaches.run (.saveFileFailures key failures) trivial hrun, _,
      job?_updateFailures hrow rfl failuresJson, hstage⟩

/-- A planned file is marked. -/
theorem StandsIn.markFileArchived {ordinal : ℤ} (h : StandsIn J store key stage db)
    (hplace : db.files.countP (fileAt key ordinal) = 1) :
    Takes J store (.markFileArchived key ordinal) db (StandsIn J store key stage) := by
  have hrun : (QueueOperation.markFileArchived key ordinal).run J store db = .ok (db.updateFiles
      (fileAt key ordinal) fun file => { file with archiveState := .archived }) :=
    updateFile_eq_ok.mpr ⟨hplace, rfl⟩
  exact takes_of_ok hrun ⟨h.reaches.run (.markFileArchived key ordinal) trivial hrun, h.row⟩

/-- A planned file that could not be archived is marked, with the failures of its job. -/
theorem StandsIn.markFileFailed {ordinal : ℤ} {errorDetail : Bytes}
    (h : StandsIn J store key stage db) (hplace : db.files.countP (fileAt key ordinal) = 1) :
    Takes J store (.markFileFailed key ordinal errorDetail failures) db
      (StandsIn J store key stage) := by
  obtain ⟨returned, sound⟩ := h.reaches.sound
  obtain ⟨row, hrow, hstage⟩ := h.row
  constructor
  · refine .bind (noQueueError_dumped _) fun failuresJson => ?_
    rw [updateFile_eq_ok.mpr ⟨hplace, rfl⟩]
    apply noQueueError_updateJob
    exact sound.countP_jobOf hrow
  · intro next hrun
    have hmarked := hrun
    simp only [QueueOperation.run, Agent.markFileFailed, bind_eq_ok] at hmarked
    obtain ⟨failuresJson, -, marked, hmarked, hsaved⟩ := hmarked
    obtain ⟨-, rfl⟩ := updateFile_eq_ok.mp hmarked
    obtain ⟨-, rfl⟩ := updateJob_eq_ok.mp hsaved
    exact ⟨h.reaches.run (.markFileFailed key ordinal errorDetail failures) trivial hrun, _,
      job?_updateFailures hrow rfl failuresJson, hstage⟩

/-- A request whose kind and key are free is added to its job. -/
theorem insertDelivery_eq {delivery : PendingDelivery} (hrow : db.job? key = some row)
    (hkey : delivery.executionKey = key)
    (huntaken : Untaken db key delivery.requestType delivery.idempotencyKey) (operation : String) :
    db.insertDelivery delivery operation =
      .ok { db with deliveries := db.deliveries ++ [delivery] } := by
  unfold QueueDatabase.insertDelivery
  rw [hkey, hrow, huntaken.1, huntaken.2]
  simp

/-- The manifest of a collecting job is saved. -/
theorem StandsIn.saveManifest {request : RawFileManifestRequest}
    (h : StandsIn J store key .collecting db)
    (hfits : (QueueOperation.saveManifest key request).Fits J db) :
    Takes J store (.saveManifest key request) db (StandsIn J store key .manifestPending) := by
  obtain ⟨returned, sound⟩ := h.reaches.sound
  obtain ⟨row, hrow, hstage⟩ := h.row
  have hmem : row.stage ∈ [Stage.collecting] := List.mem_singleton.mpr hstage
  constructor
  · refine .bind_of (noQueueError_dumped _) fun requestJson hencoded => ?_
    rw [insertDelivery_eq hrow rfl (hfits requestJson hencoded)]
    apply noQueueError_updateJob
    exact sound.countP_jobIn hrow hmem
  · intro next hrun
    have hsaved := hrun
    simp only [QueueOperation.run, Agent.saveManifest, bind_eq_ok] at hsaved
    obtain ⟨requestJson, -, inserted, hinserted, hsaved⟩ := hsaved
    obtain ⟨-, rfl⟩ := updateJob_eq_ok.mp hsaved
    have hfound : inserted.job? key = some row := by
      rw [job?_of_jobs (jobs_insertDelivery hinserted), hrow]
    refine ⟨h.reaches.run (.saveManifest key request) trivial hrun,
      { row with stage := .manifestPending }, ?_, rfl⟩
    exact job?_updateJobs_of_selected hfound (jobIn_of_job? hfound hmem) fun _ => rfl

/-- The files of a manifest get their identifiers when each of its paths is the one of a file. -/
theorem exists_mapRawFileIds {mapped : List (RawFileManifestEntry × Bytes)}
    (h : ∀ pair ∈ mapped, db.files.countP (fileUnder key pair.1.storagePath) = 1) :
    ∃ next, mapped.foldlM (mapRawFileId key) db = .ok next := by
  induction mapped generalizing db with
  | nil => exact ⟨db, rfl⟩
  | cons first rest ih =>
    have hfirst : mapRawFileId key db first = .ok (db.updateFiles
        (fileUnder key first.1.storagePath)
        fun file => { file with rawFileId := some first.2 }) :=
      updateFile_eq_ok.mpr ⟨h first List.mem_cons_self, rfl⟩
    rw [List.foldlM_cons, hfirst]
    apply ih
    intro pair hpair
    have hedits : Edits db (db.updateFiles (fileUnder key first.1.storagePath)
        fun file => { file with rawFileId := some first.2 }) := edits_updateFiles _ fun _ => rfl
    rw [hedits.countP_fileUnder]
    exact h pair (List.mem_cons_of_mem _ hpair)

/-- The identifiers of a manifest are accepted. -/
theorem StandsIn.acceptManifest {rawFileIds : List Bytes}
    (h : StandsIn J store key .manifestPending db)
    (hfits : (QueueOperation.acceptManifest key rawFileIds).Fits J db) :
    Takes J store (.acceptManifest key rawFileIds) db
      (StandsIn J store key .reportBuilding) := by
  obtain ⟨returned, sound⟩ := h.reaches.sound
  obtain ⟨row, hrow, hstage⟩ := h.row
  have hmem : row.stage ∈ [Stage.manifestPending] := List.mem_singleton.mpr hstage
  obtain ⟨hjob, hkey⟩ := mem_of_job? hrow
  obtain ⟨delivery, hdelivery⟩ :=
    (sound.jobs row hjob).manifest (effectiveStage_of_executable hstage rfl)
  rw [hkey] at hdelivery
  constructor
  · simp only [QueueOperation.run, Agent.acceptManifest, hdelivery]
    refine .bind_of (noQueueError_decodeRawFileManifestRequest _) fun manifest hmanifest => ?_
    obtain ⟨hlength, hpaths⟩ := hfits delivery hdelivery manifest hmanifest
    rw [if_neg (not_not.mpr hlength)]
    have hfiles : ∀ pair ∈ manifest.files.zip rawFileIds,
        db.files.countP (fileUnder key pair.1.storagePath) = 1 :=
      fun pair hpair => hpaths pair.1 (List.of_mem_zip hpair).1
    obtain ⟨mapped, hmapped⟩ := exists_mapRawFileIds hfiles
    change NoQueueError (List.foldlM _ _ _ >>= _)
    rw [hmapped]
    exact .ok _
  · intro next hrun
    have haccepted := hrun
    simp only [QueueOperation.run, Agent.acceptManifest, hdelivery, bind_eq_ok, check_eq_ok,
      pure_eq_ok] at haccepted
    obtain ⟨manifest, -, -, mapped, hmapped, rfl⟩ := haccepted
    have hfound : mapped.job? key = some row := by
      rw [job?_of_jobs (frame_mapRawFileIds hmapped).1, hrow]
    refine ⟨h.reaches.run (.acceptManifest key rawFileIds) trivial hrun,
      { row with stage := .reportBuilding }, ?_, rfl⟩
    exact job?_updateJobs_of_selected hfound (jobIn_of_job? hfound hmem) fun _ => rfl

/-- The report of a job is saved with an outcome for every planned file. -/
theorem StandsIn.saveReport {request : TaskRunReportRequest} {outcomes : List Bool}
    (h : StandsIn J store key stage db) (hexecutable : isExecutableStage stage = true)
    (hlength : (db.filesOf key).length = outcomes.length)
    (hfits : (QueueOperation.saveReport key request outcomes).Fits J db) :
    Takes J store (.saveReport key request outcomes) db (Workable J store key) := by
  obtain ⟨row, hrow, hstage⟩ := h.row
  constructor
  · refine .bind_of (noQueueError_encodeTaskRunReportRequest _) fun requestJson hencoded => ?_
    rw [if_neg (not_not.mpr hlength)]
    change NoQueueError (QueueDatabase.insertDelivery _ _ _ >>= _)
    rw [insertDelivery_eq hrow rfl (hfits requestJson hencoded)]
    exact .ok _
  · intro next hrun
    have hsaved := hrun
    simp only [QueueOperation.run, Agent.saveReport, bind_eq_ok, check_eq_ok, pure_eq_ok] at hsaved
    obtain ⟨requestJson, -, -, inserted, hinserted, rfl⟩ := hsaved
    have hfound : (outcomes.zipIdx.foldl (recordOutcome key) inserted).job? key = some row := by
      rw [job?_of_jobs (jobs_recordOutcomes _), job?_of_jobs (jobs_insertDelivery hinserted), hrow]
    have hreaches := h.reaches.run (.saveReport key request outcomes) trivial hrun
    by_cases hmem : row.stage ∈ [Stage.collecting, .reportBuilding]
    · refine ⟨.reportPending, rfl, hreaches, { row with stage := .reportPending }, ?_, rfl⟩
      exact job?_updateJobs_of_selected hfound (jobIn_of_job? hfound hmem) fun _ => rfl
    · refine ⟨stage, hexecutable, hreaches, row, ?_, hstage⟩
      have hunselected : ¬jobIn key [Stage.collecting, .reportBuilding] row = true :=
        fun hselected => hmem (jobIn_iff.mp hselected).2
      exact job?_updateJobs_of_unselected hfound hunselected fun _ => rfl

/-- A reported job is completed. -/
theorem StandsIn.completeJob (h : StandsIn J store key .reportPending db) (now : Bytes) :
    NoQueueError ((QueueOperation.completeJob key now).run J store db) := by
  obtain ⟨returned, sound⟩ := h.reaches.sound
  obtain ⟨row, hrow, hstage⟩ := h.row
  have hcount := sound.countP_jobIn hrow (List.mem_singleton.mpr hstage)
  rw [List.countP_eq_length_filter, List.length_eq_one_iff] at hcount
  obtain ⟨job, hjob⟩ := hcount
  simp only [QueueOperation.run, Agent.completeJob, hjob]
  exact .ok _

/-- A job without a plan that waits for its start is discarded. -/
theorem StandsIn.discardStartPendingJob (h : StandsIn J store key .startPending db)
    (hfits : (QueueOperation.discardStartPendingJob key).Fits J db) :
    NoQueueError ((QueueOperation.discardStartPendingJob key).run J store db) := by
  obtain ⟨returned, sound⟩ := h.reaches.sound
  obtain ⟨row, hrow, hstage⟩ := h.row
  have hempty : db.filesOf key = [] := hfits
  simp only [QueueOperation.run, Agent.discardStartPendingJob, hempty]
  rw [if_neg (by simp), if_pos (sound.countP_jobIn hrow (List.mem_singleton.mpr hstage))]
  exact .ok _

/-- A job that can be executed is parked. -/
theorem Workable.markRequiresAttention (h : Workable J store key db) (errorKind : Bytes) :
    NoQueueError ((QueueOperation.markRequiresAttention key errorKind).run J store db) := by
  obtain ⟨stage, hexecutable, hstands⟩ := h
  obtain ⟨returned, sound⟩ := hstands.reaches.sound
  obtain ⟨row, hrow, hstage⟩ := hstands.row
  have hpark := sound.markRequiresAttention_eq hrow
    (executionStage_of_executable hstage hexecutable) hexecutable errorKind
  simp only [QueueOperation.run, hpark]
  exact .ok _

end Operations

end LabBridge.Agent
