import LabBridge.Agent.ArchivePaths
import LabBridge.Agent.CodecRoundTrip

/-!
# The rows of a plan

The rows of a job carry the ordinals from zero on, in the order in which they were inserted, and
different archive paths. Most operations leave ordinals and paths alone; a deleted job loses all
its rows; and a plan can only be added where there is none, since its first ordinal is taken
otherwise.
-/

namespace LabBridge.Agent

open ByteText JsonText Fallible LabBridge.Core

variable {J : Nlohmann} {store : AgentQueueStore} {db before middle after next : QueueDatabase}
  {key : Bytes}

/-- What is never changed of a job. -/
def PendingJob.identity (job : PendingJob) : Bytes × Bytes :=
  (job.executionKey, job.retryFilesJson)

/-- What is never changed of a planned file. -/
def PendingFile.identity (file : PendingFile) : Bytes × ℤ × Bytes :=
  (file.executionKey, file.ordinal, file.archivePath)

/-- Rows that carry the ordinals from zero on and different archive paths. -/
structure AlignedRows (rows : List PendingFile) : Prop where
  ordinals : rows.map PendingFile.ordinal = (List.range rows.length).map Int.ofNat
  paths : (rows.map PendingFile.archivePath).Nodup
  plain : ∀ row ∈ rows, 0 ∉ row.archivePath

/-- A job whose key is read back whole and whose fixed inputs can be numbered. -/
structure Numbered (J : Nlohmann) (identity : Bytes × Bytes) : Prop where
  plain : 0 ∉ identity.1
  inputs : ∀ files, decodeRetryFiles J (readText identity.2) = .ok files → files.length ≤ 2 ^ 31

/-- Execution keys are different, and the rows of every plan are aligned. -/
structure Orderly (J : Nlohmann) (db : QueueDatabase) : Prop where
  keys : (db.jobs.map PendingJob.executionKey).Nodup
  numbered : ∀ identity ∈ db.jobs.map PendingJob.identity, Numbered J identity
  rows : ∀ key, AlignedRows (db.filesOf key)

/-- An edit leaves the identities of the jobs and of the files as they are. -/
structure Edits (before after : QueueDatabase) : Prop where
  jobs : after.jobs.map PendingJob.identity = before.jobs.map PendingJob.identity
  files : after.files.map PendingFile.identity = before.files.map PendingFile.identity

/-- Nothing is edited. -/
theorem Edits.refl (db : QueueDatabase) : Edits db db := ⟨rfl, rfl⟩

/-- One edit after the other. -/
theorem Edits.trans (first : Edits before middle) (second : Edits middle after) :
    Edits before after := ⟨second.jobs.trans first.jobs, second.files.trans first.files⟩

/-- An edit that leaves all files as they are. -/
structure LeavesFiles (before after : QueueDatabase) : Prop where
  jobs : after.jobs.map PendingJob.identity = before.jobs.map PendingJob.identity
  files : after.files = before.files

/-- Nothing changes. -/
theorem LeavesFiles.refl (db : QueueDatabase) : LeavesFiles db db := ⟨rfl, rfl⟩

/-- One change after the other leaves the files. -/
theorem LeavesFiles.trans (first : LeavesFiles before middle) (second : LeavesFiles middle after) :
    LeavesFiles before after := ⟨second.jobs.trans first.jobs, second.files.trans first.files⟩

/-- A change that leaves the files is an edit. -/
theorem LeavesFiles.edits (h : LeavesFiles before after) : Edits before after :=
  ⟨h.jobs, congrArg (List.map PendingFile.identity) h.files⟩

/-- The plan of a job is left as it is. -/
theorem LeavesFiles.filesOf (h : LeavesFiles before after) (key : Bytes) :
    after.filesOf key = before.filesOf key := by
  unfold QueueDatabase.filesOf
  rw [h.files]

/-! ## Statements that edit -/

/-- A change of jobs that keeps their identities. -/
theorem leavesFiles_updateJobs (selects : PendingJob → Bool) {change : PendingJob → PendingJob}
    (hsame : ∀ job, (change job).identity = job.identity) :
    LeavesFiles db (db.updateJobs selects change) := by
  refine ⟨?_, rfl⟩
  rw [QueueDatabase.updateJobs, List.map_map]
  apply List.map_congr_left
  intro job _
  by_cases h : selects job = true
  · rw [Function.comp_apply, if_pos h, hsame]
  · rw [Function.comp_apply, if_neg h]

/-- A change of files that keeps their identities. -/
theorem edits_updateFiles (selects : PendingFile → Bool) {change : PendingFile → PendingFile}
    (hsame : ∀ file, (change file).identity = file.identity) :
    Edits db (db.updateFiles selects change) := by
  refine ⟨rfl, ?_⟩
  rw [QueueDatabase.updateFiles, List.map_map]
  apply List.map_congr_left
  intro file _
  by_cases h : selects file = true
  · rw [Function.comp_apply, if_pos h, hsame]
  · rw [Function.comp_apply, if_neg h]

/-- A change of deliveries. -/
theorem leavesFiles_updateDeliveries (selects : PendingDelivery → Bool)
    (change : PendingDelivery → PendingDelivery) :
    LeavesFiles db (db.updateDeliveries selects change) := ⟨rfl, rfl⟩

/-- A change of one job that keeps its identity. -/
theorem leavesFiles_updateJob {selects : PendingJob → Bool} {change : PendingJob → PendingJob}
    {refusal : AgentError} (h : db.updateJob selects change refusal = .ok next)
    (hsame : ∀ job, (change job).identity = job.identity) : LeavesFiles db next := by
  obtain ⟨-, rfl⟩ := updateJob_eq_ok.mp h
  exact leavesFiles_updateJobs selects hsame

/-- A change of one file that keeps its identity. -/
theorem edits_updateFile {selects : PendingFile → Bool} {change : PendingFile → PendingFile}
    {refusal : AgentError} (h : db.updateFile selects change refusal = .ok next)
    (hsame : ∀ file, (change file).identity = file.identity) : Edits db next := by
  obtain ⟨-, rfl⟩ := updateFile_eq_ok.mp h
  exact edits_updateFiles selects hsame

/-- A delivery is added. -/
theorem leavesFiles_insertDelivery {delivery : PendingDelivery} {operation : String}
    (h : db.insertDelivery delivery operation = .ok next) : LeavesFiles db next := by
  unfold QueueDatabase.insertDelivery at h
  split at h
  · cases h
  · cases h
    exact ⟨rfl, rfl⟩

/-! ## Operations that edit -/

/-- The operations that neither add nor delete a job or a file. -/
def QueueOperation.isEdit : QueueOperation → Bool
  | .beginJob .. | .saveFilePlan .. | .completeJob .. | .discardStartPendingJob .. => false
  | _ => true

/-- Saving the failures of a job leaves all files. -/
theorem leavesFiles_saveFileFailures {failures : List TaskRunReportFailedFile}
    (h : saveFileFailures J key failures db = .ok next) : LeavesFiles db next := by
  simp only [saveFileFailures, bind_eq_ok] at h
  obtain ⟨failuresJson, -, h⟩ := h
  exact leavesFiles_updateJob h fun _ => rfl

/-- Marking a file as failed is an edit. -/
theorem edits_markFileFailed {ordinal : ℤ} {errorDetail : Bytes}
    {failures : List TaskRunReportFailedFile}
    (h : markFileFailed J key ordinal errorDetail failures db = .ok next) : Edits db next := by
  simp only [markFileFailed, bind_eq_ok] at h
  obtain ⟨failuresJson, -, marked, hmarked, h⟩ := h
  exact (edits_updateFile hmarked fun _ => rfl).trans (leavesFiles_updateJob h fun _ => rfl).edits

/-- Saving a manifest leaves all files. -/
theorem leavesFiles_saveManifest {request : RawFileManifestRequest}
    (h : saveManifest J key request db = .ok next) : LeavesFiles db next := by
  simp only [saveManifest, bind_eq_ok] at h
  obtain ⟨requestJson, -, inserted, hinserted, h⟩ := h
  exact (leavesFiles_insertDelivery hinserted).trans (leavesFiles_updateJob h fun _ => rfl)

/-- Giving the files of a manifest their identifiers is an edit. -/
theorem edits_mapRawFileIds {mapped : List (RawFileManifestEntry × Bytes)}
    (h : mapped.foldlM (mapRawFileId key) db = .ok next) : Edits db next := by
  apply foldlM_keeps _ (Edits.refl db) h
  intro state entry after hstate hstep
  have hmapped : Edits state after := edits_updateFile hstep fun _ => rfl
  exact hstate.trans hmapped

/-- Accepting a manifest is an edit. -/
theorem edits_acceptManifest {rawFileIds : List Bytes}
    (h : acceptManifest J key rawFileIds db = .ok next) : Edits db next := by
  unfold acceptManifest at h
  split at h
  · cases h
  · simp only [bind_eq_ok] at h
    obtain ⟨manifest, -, h⟩ := h
    split at h
    · cases h
    · simp only [bind_eq_ok, pure_eq_ok] at h
      obtain ⟨mapped, hmapped, rfl⟩ := h
      apply (edits_mapRawFileIds hmapped).trans
      apply LeavesFiles.edits
      exact leavesFiles_updateJobs _ fun _ => rfl

/-- Recording outcomes is an edit. -/
theorem edits_recordOutcomes (outcomes : List (Bool × ℕ)) :
    Edits db (outcomes.foldl (recordOutcome key) db) := by
  induction outcomes generalizing db with
  | nil => exact Edits.refl db
  | cons outcome rest ih =>
    have hfirst : Edits db (recordOutcome key db outcome) := edits_updateFiles _ fun _ => rfl
    exact hfirst.trans ih

/-- What a saved report is made of. -/
theorem saveReport_eq_ok {request : TaskRunReportRequest} {outcomes : List Bool} :
    saveReport J key request outcomes db = .ok next ↔ ∃ requestJson inserted,
      encodeTaskRunReportRequest J request = .ok requestJson ∧
      (db.filesOf key).length = outcomes.length ∧
      db.insertDelivery
        { executionKey := key, requestType := .report, idempotencyKey := request.idempotencyKey,
          requestJson := requestJson } "save report" = .ok inserted ∧
      (outcomes.zipIdx.foldl (recordOutcome key) inserted).updateJobs
        (jobIn key [.collecting, .reportBuilding])
        (fun job => { job with stage := .reportPending }) = next := by
  unfold saveReport
  simp only [bind_eq_ok]
  constructor
  · rintro ⟨requestJson, hrequest, h⟩
    split at h
    · cases h
    · rename_i hlength
      simp only [bind_eq_ok, pure_eq_ok] at h
      obtain ⟨inserted, hinserted, h⟩ := h
      exact ⟨requestJson, inserted, hrequest, not_not.mp hlength, hinserted, h⟩
  · rintro ⟨requestJson, inserted, hrequest, hlength, hinserted, h⟩
    refine ⟨requestJson, hrequest, ?_⟩
    rw [if_neg (not_not.mpr hlength)]
    simp only [bind_eq_ok, pure_eq_ok]
    exact ⟨inserted, hinserted, h⟩

/-- Saving a report is an edit. -/
theorem edits_saveReport {request : TaskRunReportRequest} {outcomes : List Bool}
    (h : saveReport J key request outcomes db = .ok next) : Edits db next := by
  obtain ⟨requestJson, inserted, -, -, hinserted, rfl⟩ := saveReport_eq_ok.mp h
  apply ((leavesFiles_insertDelivery hinserted).edits.trans (edits_recordOutcomes _)).trans
  apply LeavesFiles.edits
  exact leavesFiles_updateJobs _ fun _ => rfl

/-- Parking a job leaves all files. -/
theorem leavesFiles_markRequiresAttention {errorKind : Bytes}
    (h : markRequiresAttention key errorKind db = .ok next) : LeavesFiles db next := by
  unfold markRequiresAttention at h
  split at h
  · cases h
  · simp only [bind_eq_ok] at h
    obtain ⟨stage, -, h⟩ := h
    exact leavesFiles_updateJob h fun _ => rfl

/-- Recording a failed delivery leaves all files. -/
theorem leavesFiles_recordDeliveryFailure {type : RequestType} {idempotencyKey : Bytes}
    {retryable : Bool} {errorKind : Bytes} {retryDelay now : ℤ}
    (h : recordDeliveryFailure type idempotencyKey retryable errorKind retryDelay now db =
      .ok next) : LeavesFiles db next := by
  unfold recordDeliveryFailure at h
  split at h
  · dsimp only at h
    split at h
    · cases h
      exact (leavesFiles_updateDeliveries _ _).trans (leavesFiles_updateJobs _ fun _ => rfl)
    · cases h
      exact leavesFiles_updateDeliveries _ _
  · cases h

/-- Resuming a delivery leaves all files. -/
theorem leavesFiles_resumeDelivery {type : RequestType} {idempotencyKey : Bytes}
    (h : resumeDelivery type idempotencyKey db = .ok next) : LeavesFiles db next := by
  unfold resumeDelivery at h
  split at h
  · cases h
  · dsimp only at h
    split at h
    · cases h
    · cases h
      exact leavesFiles_updateJobs _ fun _ => rfl

/-- Returning a parked job leaves all files. -/
theorem leavesFiles_retryAttentionJob {status : QueueRetryStatus}
    (h : retryAttentionJob key db = .ok (status, next)) : LeavesFiles db next := by
  unfold retryAttentionJob at h
  split at h
  · cases h
  · split at h
    · simp only [bind_eq_ok, pure_eq_ok] at h
      obtain ⟨stage, -, h⟩ := h
      cases h
      apply LeavesFiles.trans _ (leavesFiles_updateDeliveries _ _)
      exact leavesFiles_updateJobs _ fun _ => rfl
    · cases h
      exact LeavesFiles.refl db

/-- The operations that edit leave keys and identities as they are. -/
theorem edits_run {operation : QueueOperation} (hedit : operation.isEdit = true)
    (h : operation.run J store db = .ok next) : Edits db next := by
  cases operation with
  | beginJob task request retryFiles now => cases hedit
  | saveFilePlan key files failures => cases hedit
  | completeJob key now => cases hedit
  | discardStartPendingJob key => cases hedit
  | saveFileFailures key failures => exact (leavesFiles_saveFileFailures h).edits
  | markFileFailed key ordinal errorDetail failures => exact edits_markFileFailed h
  | acceptStart key taskRunId => exact (leavesFiles_updateJob h fun _ => rfl).edits
  | markFileArchived key ordinal => exact edits_updateFile h fun _ => rfl
  | saveManifest key request => exact (leavesFiles_saveManifest h).edits
  | acceptManifest key rawFileIds => exact edits_acceptManifest h
  | saveReport key request outcomes => exact edits_saveReport h
  | markRequiresAttention key errorKind => exact (leavesFiles_markRequiresAttention h).edits
  | recordDeliveryFailure type idempotencyKey retryable errorKind retryDelay now =>
    exact (leavesFiles_recordDeliveryFailure h).edits
  | resumeDelivery type idempotencyKey => exact (leavesFiles_resumeDelivery h).edits
  | retryAttentionJob key =>
    simp only [QueueOperation.run, map_eq_ok] at h
    obtain ⟨⟨status, retried⟩, h, rfl⟩ := h
    exact (leavesFiles_retryAttentionJob h).edits

/-! ## Order is kept -/

/-- Files of one identity stand at the same places of a plan. -/
theorem Edits.identities (h : Edits before after) (key : Bytes) :
    (after.filesOf key).map PendingFile.identity =
      (before.filesOf key).map PendingFile.identity := by
  have hfilter : ∀ files : List PendingFile,
      (files.filter fun file => file.executionKey == key).map PendingFile.identity =
        (files.map PendingFile.identity).filter fun identity => identity.1 == key := by
    intro files
    rw [List.filter_map]
    rfl
  unfold QueueDatabase.filesOf
  rw [hfilter, hfilter, h.files]

/-- Alignment is a matter of identities. -/
theorem AlignedRows.of_identities {rows others : List PendingFile} (h : AlignedRows rows)
    (hsame : others.map PendingFile.identity = rows.map PendingFile.identity) :
    AlignedRows others := by
  have hordinals : ∀ files : List PendingFile, files.map PendingFile.ordinal =
      (files.map PendingFile.identity).map fun identity => identity.2.1 := by
    intro files
    rw [List.map_map]
    rfl
  have hpaths : ∀ files : List PendingFile, files.map PendingFile.archivePath =
      (files.map PendingFile.identity).map fun identity => identity.2.2 := by
    intro files
    rw [List.map_map]
    rfl
  have hlength : others.length = rows.length := by
    rw [← List.length_map (f := PendingFile.identity), hsame, List.length_map]
  constructor
  · rw [hordinals, hsame, ← hordinals, h.ordinals, hlength]
  · rw [hpaths, hsame, ← hpaths]
    exact h.paths
  · intro row hrow
    have hmem : row.archivePath ∈ rows.map PendingFile.archivePath := by
      rw [hpaths, ← hsame, ← hpaths]
      exact List.mem_map_of_mem hrow
    obtain ⟨other, hother, hpath⟩ := List.mem_map.mp hmem
    rw [← hpath]
    exact h.plain other hother

/-- No rows are aligned. -/
theorem alignedRows_nil : AlignedRows [] := ⟨rfl, List.nodup_nil, by simp⟩

/-- The empty queue is in order. -/
theorem orderly_empty : Orderly J {} := ⟨List.nodup_nil, by simp, fun _ => alignedRows_nil⟩

/-- Execution keys are part of the identities. -/
theorem keys_of_identities (jobs : List PendingJob) : jobs.map PendingJob.executionKey =
    (jobs.map PendingJob.identity).map Prod.fst := by
  rw [List.map_map]
  rfl

/-- An edit keeps the order. -/
theorem Orderly.edits (h : Orderly J before) (hedits : Edits before after) : Orderly J after where
  keys := by
    rw [keys_of_identities, hedits.jobs, ← keys_of_identities]
    exact h.keys
  numbered := by
    rw [hedits.jobs]
    exact h.numbered
  rows key := (h.rows key).of_identities (hedits.identities key)

/-- The files of a job after others were deleted, or of none. -/
theorem filesOf_deleteJobs (selects : PendingJob → Bool) (key : Bytes) :
    (db.deleteJobs selects).filesOf key =
      if ((db.jobs.filter selects).map PendingJob.executionKey).contains key then []
      else db.filesOf key := by
  unfold QueueDatabase.deleteJobs QueueDatabase.filesOf
  dsimp only
  rw [List.filter_filter]
  split
  · rename_i hgone
    apply List.filter_eq_nil_iff.mpr
    intro file _
    rw [Bool.and_eq_true, not_and, beq_iff_eq]
    intro hkey
    rw [hkey, hgone]
    simp
  · rename_i hkept
    apply List.filter_congr
    intro file _
    by_cases hkey : file.executionKey = key
    · rw [hkey, (Bool.not_eq_true _).mp hkept]
      simp
    · simp [hkey]

/-- Deleting jobs keeps the order. -/
theorem Orderly.deleteJobs (h : Orderly J db) (selects : PendingJob → Bool) :
    Orderly J (db.deleteJobs selects) where
  keys := h.keys.sublist (List.filter_sublist.map _)
  numbered identity hidentity :=
    h.numbered identity ((List.filter_sublist.map PendingJob.identity).subset hidentity)
  rows key := by
    rw [filesOf_deleteJobs]
    split
    · exact alignedRows_nil
    · exact h.rows key

/-- A plan with the ordinals from zero on and different archive paths. -/
structure AlignedPlan (plan : List PendingFilePlan) : Prop where
  ordinals : plan.map PendingFilePlan.ordinal = (List.range plan.length).map Int.ofNat
  paths : (plan.map PendingFilePlan.archivePath).Nodup
  plain : ∀ file ∈ plan, 0 ∉ file.archivePath

/-- The rows of an aligned plan are aligned. -/
theorem AlignedPlan.rows {plan : List PendingFilePlan} (h : AlignedPlan plan) :
    AlignedRows (plan.map (PendingFilePlan.row key)) := by
  have hordinals : (plan.map (PendingFilePlan.row key)).map PendingFile.ordinal =
      plan.map PendingFilePlan.ordinal := by
    rw [List.map_map]
    rfl
  have hpaths : (plan.map (PendingFilePlan.row key)).map PendingFile.archivePath =
      plan.map PendingFilePlan.archivePath := by
    rw [List.map_map]
    rfl
  constructor
  · rw [hordinals, h.ordinals, List.length_map]
  · rw [hpaths]
    exact h.paths
  · intro row hrow
    obtain ⟨file, hfile, rfl⟩ := List.mem_map.mp hrow
    exact h.plain file hfile

/-- A plan is saved beside the rows of its job only when one of the two is empty: its first
ordinal is that of their first row. -/
theorem plan_or_rows_empty {plan : List PendingFilePlan}
    {failures : List TaskRunReportFailedFile} (hrows : AlignedRows (db.filesOf key))
    (hplan : AlignedPlan plan) (h : saveFilePlan J key plan failures db = .ok next) :
    plan = [] ∨ db.filesOf key = [] := by
  obtain ⟨failuresJson, planned, -, hplanned, -⟩ := saveFilePlan_eq_ok.mp h
  cases plan with
  | nil => exact .inl rfl
  | cons first rest =>
    right
    rw [List.foldlM_cons, bind_eq_ok] at hplanned
    obtain ⟨inserted, hinserted, -⟩ := hplanned
    obtain ⟨hfree, -⟩ := insertFile_eq_ok.mp hinserted
    cases hstored : db.filesOf key with
    | nil => rfl
    | cons row others =>
      have hordinals := hrows.ordinals
      have hfirst := hplan.ordinals
      rw [hstored, List.length_cons, List.range_succ_eq_map, List.map_cons, List.map_cons,
        List.cons.injEq] at hordinals
      rw [List.length_cons, List.range_succ_eq_map, List.map_cons, List.map_cons,
        List.cons.injEq] at hfirst
      have htaken : ((db.filesOf key).any fun other =>
          other.ordinal == first.ordinal || other.fingerprint == first.fingerprint) = true := by
        rw [hstored, List.any_cons, hordinals.1, hfirst.1, beq_self_eq_true, Bool.true_or,
          Bool.true_or]
      exact absurd (.inr (.inr htaken)) hfree

/-- A saved plan leaves the rows of the other jobs as they are. -/
theorem filesOf_saveFilePlan_of_ne {plan : List PendingFilePlan} {other : Bytes}
    {failures : List TaskRunReportFailedFile}
    (h : saveFilePlan J key plan failures db = .ok next) (hkey : other ≠ key) :
    next.filesOf other = db.filesOf other := by
  have hnone : (plan.map (PendingFilePlan.row key)).filter
      (fun file => file.executionKey == other) = [] := by
    apply List.filter_eq_nil_iff.mpr
    intro file hfile
    obtain ⟨planned, -, rfl⟩ := List.mem_map.mp hfile
    rw [beq_iff_eq]
    exact fun hsame => hkey hsame.symm
  unfold QueueDatabase.filesOf
  rw [files_saveFilePlan h, List.filter_append, hnone, List.append_nil]

/-- Saving an aligned plan keeps the order. -/
theorem Orderly.saveFilePlan {plan : List PendingFilePlan}
    {failures : List TaskRunReportFailedFile} (h : Orderly J db) (hplan : AlignedPlan plan)
    (hsaved : saveFilePlan J key plan failures db = .ok next) : Orderly J next := by
  obtain ⟨failuresJson, planned, -, hplanned, hupdate⟩ := saveFilePlan_eq_ok.mp hsaved
  have hedits : Edits planned next := (leavesFiles_updateJob hupdate fun _ => rfl).edits
  have hjobs : next.jobs.map PendingJob.identity = db.jobs.map PendingJob.identity := by
    rw [hedits.jobs, ← insertFiles_eq_ok hplanned]
  constructor
  · rw [keys_of_identities, hjobs, ← keys_of_identities]
    exact h.keys
  · rw [hjobs]
    exact h.numbered
  · intro other
    by_cases hkey : other = key
    · rw [hkey, filesOf_saveFilePlan hsaved]
      rcases plan_or_rows_empty (h.rows key) hplan hsaved with hempty | hempty
      · rw [hempty, List.map_nil, List.append_nil]
        exact h.rows key
      · rw [hempty, List.nil_append]
        exact hplan.rows
    · rw [filesOf_saveFilePlan_of_ne hsaved hkey]
      exact h.rows other

/-- What a job is queued with: a key that is read back whole, and fixed inputs with sizes of 64
bits that can be numbered. -/
structure Queueable (key : Bytes) (retryFiles : List RetryFileInput) : Prop where
  plain : 0 ∉ key
  sizes : ∀ file ∈ retryFiles, -(2 ^ 63) ≤ file.sizeBytes ∧ file.sizeBytes < 2 ^ 63
  count : retryFiles.length ≤ 2 ^ 31

/-- Persisted retry inputs are read back as many as they were. -/
theorem length_decodeRetryFiles {retryFiles files : List RetryFileInput} {stored : Bytes}
    (hsizes : ∀ file ∈ retryFiles, -(2 ^ 63) ≤ file.sizeBytes ∧ file.sizeBytes < 2 ^ 63)
    (hstored : retryFilesText J retryFiles = .ok stored)
    (hfiles : decodeRetryFiles J (readText stored) = .ok files) :
    files.length = retryFiles.length := by
  unfold retryFilesText at hstored
  unfold decodeRetryFiles at hfiles
  split at hstored
  · rename_i hempty
    cases hstored
    cases hfiles
    rw [List.isEmpty_iff.mp hempty]
  · have hprinted := J.dumped_eq_ok.mp hstored
    rw [readText_of_notMem (J.zero_notMem_dump hprinted), if_neg (J.dump_ne_nil hprinted),
      J.parse_dump (canonical_retryFiles hsizes) hprinted] at hfiles
    have hlength := (mapM_eq_ok.mp hfiles).length_eq
    rw [List.length_map] at hlength
    exact hlength.symm

/-- The new row of what can be queued. -/
theorem Queueable.numbered {request : StartTaskRunRequest}
    {retryFiles : List RetryFileInput} {taskJson stored now : Bytes}
    (h : Queueable request.executionKey retryFiles)
    (hstored : retryFilesText J retryFiles = .ok stored) :
    Numbered J (newJob request taskJson stored now).identity := by
  refine ⟨h.plain, ?_⟩
  intro files hfiles
  rw [length_decodeRetryFiles h.sizes hstored hfiles]
  exact h.count

/-- Queueing a job keeps the order. -/
theorem Orderly.beginJob {task : TaskConfig} {request : StartTaskRunRequest}
    {retryFiles : List RetryFileInput} {now : Bytes} {answer : Bool} (h : Orderly J db)
    (hqueueable : Queueable request.executionKey retryFiles)
    (hbegun : beginJob J store task request retryFiles now db = .ok (answer, next)) :
    Orderly J next := by
  unfold Agent.beginJob at hbegun
  rw [check_eq_ok] at hbegun
  simp only [bind_eq_ok] at hbegun
  obtain ⟨-, taskJson, -, requestJson, -, retryFilesJson, hstored, hbegun⟩ := hbegun
  cases hjob : db.job? request.executionKey with
  | some job =>
    rw [hjob] at hbegun
    dsimp only at hbegun
    split at hbegun
    · cases hbegun
      exact h
    · cases hbegun
  | none =>
    rw [hjob] at hbegun
    dsimp only at hbegun
    split at hbegun
    · cases hbegun
    · simp only [bind_eq_ok, pure_eq_ok] at hbegun
      obtain ⟨inserted, hinserted, started, hstarted, hbegun⟩ := hbegun
      cases hbegun
      apply Orderly.edits _ (leavesFiles_insertDelivery hstarted).edits
      unfold QueueDatabase.insertJob at hinserted
      split at hinserted
      · cases hinserted
      · cases hinserted
        constructor
        · rw [List.map_append, List.map_singleton, List.nodup_append]
          refine ⟨h.keys, List.nodup_singleton _, ?_⟩
          intro key hmem other hother
          rw [List.mem_singleton.mp hother]
          rintro rfl
          obtain ⟨job, hstoredJob, hsame⟩ := List.mem_map.mp hmem
          have hfound := List.find?_eq_none.mp hjob job hstoredJob
          rw [beq_iff_eq] at hfound
          exact hfound hsame
        · intro identity hmem
          rw [List.map_append, List.mem_append] at hmem
          rcases hmem with hold | hnew
          · exact h.numbered identity hold
          · rw [List.mem_singleton.mp hnew]
            exact hqueueable.numbered hstored
        · exact h.rows

/-- What an operation must be called with: a job that can be queued, or an aligned plan. -/
def QueueOperation.Orders : QueueOperation → Prop
  | .beginJob _ request retryFiles _ => Queueable request.executionKey retryFiles
  | .saveFilePlan _ files _ => AlignedPlan files
  | _ => True

/-- Every operation keeps the order. -/
theorem Orderly.run {operation : QueueOperation} (h : Orderly J db) (horders : operation.Orders)
    (hrun : operation.run J store db = .ok next) : Orderly J next := by
  by_cases hedit : operation.isEdit = true
  · exact h.edits (edits_run hedit hrun)
  · cases operation with
    | beginJob task request retryFiles now =>
      simp only [QueueOperation.run, map_eq_ok] at hrun
      obtain ⟨⟨answer, begun⟩, hbegun, rfl⟩ := hrun
      exact h.beginJob horders hbegun
    | saveFilePlan key files failures => exact h.saveFilePlan horders hrun
    | completeJob key now =>
      simp only [QueueOperation.run, completeJob] at hrun
      split at hrun
      · cases hrun
        apply Orderly.deleteJobs
        exact ⟨h.keys, h.numbered, h.rows⟩
      · cases hrun
    | discardStartPendingJob key =>
      simp only [QueueOperation.run, discardStartPendingJob] at hrun
      split at hrun
      · cases hrun
      · split at hrun
        · cases hrun
          exact h.deleteJobs _
        · cases hrun
    | _ => exact absurd rfl hedit

/-! ## Loading and outcomes -/

/-- Aligned rows are loaded in their order. -/
theorem recoverFilePlan_eq (h : AlignedRows (db.filesOf key)) :
    recoverFilePlan db key = (db.filesOf key).map PendingFile.plan := by
  have hsorted : (db.filesOf key).Pairwise fun left right => left.ordinal ≤ right.ordinal := by
    have hordinals : ((db.filesOf key).map PendingFile.ordinal).Pairwise (· ≤ ·) := by
      rw [h.ordinals, List.pairwise_map]
      apply List.pairwise_le_range.imp
      intro left right hle
      exact Int.ofNat_le.mpr hle
    exact List.pairwise_map.mp hordinals
  unfold recoverFilePlan
  rw [hsorted.insertionSort_eq]

/-- A loaded plan carries the ordinals from zero on. -/
theorem ordinals_recoverFilePlan (h : AlignedRows (db.filesOf key)) :
    (recoverFilePlan db key).map PendingFilePlan.ordinal =
      (List.range (db.filesOf key).length).map Int.ofNat := by
  rw [recoverFilePlan_eq h, List.map_map, ← h.ordinals]
  rfl

/-- A loaded plan has different archive paths. -/
theorem paths_recoverFilePlan (h : AlignedRows (db.filesOf key)) :
    ((recoverFilePlan db key).map PendingFilePlan.archivePath).Nodup := by
  have hpaths : (recoverFilePlan db key).map PendingFilePlan.archivePath =
      (db.filesOf key).map PendingFile.archivePath := by
    rw [recoverFilePlan_eq h, List.map_map]
    apply List.map_congr_left
    intro row hrow
    exact readText_of_notMem (h.plain row hrow)
  rw [hpaths]
  exact h.paths

/-- A row with the outcome of its file. -/
def PendingFile.withOutcome (row : PendingFile) (outcome : Bool) : PendingFile :=
  { row with parsedWithoutErrors := some outcome }

/-- A row after the outcome of a place was recorded. -/
def recordRow (row : PendingFile) (outcome : Bool × ℕ) : PendingFile :=
  if row.ordinal = outcome.2 then row.withOutcome outcome.1 else row

/-- Recorded outcomes change each row of the job on its own. -/
theorem filesOf_recordOutcomes (outcomes : List (Bool × ℕ)) :
    (outcomes.foldl (recordOutcome key) db).filesOf key =
      (db.filesOf key).map fun row => outcomes.foldl recordRow row := by
  induction outcomes generalizing db with
  | nil => simp
  | cons outcome rest ih =>
    have hfirst : (recordOutcome key db outcome).filesOf key =
        (db.filesOf key).map fun row => recordRow row outcome := by
      unfold recordOutcome QueueDatabase.updateFiles QueueDatabase.filesOf
      dsimp only
      rw [List.filter_map]
      have hkey : ((fun file : PendingFile => file.executionKey == key) ∘ fun file =>
          if fileAt key outcome.2 file = true then { file with parsedWithoutErrors := some outcome.1 }
          else file) = fun file => file.executionKey == key := by
        funext file
        rw [Function.comp_apply]
        split <;> rfl
      rw [hkey]
      apply List.map_congr_left
      intro file hfile
      have hown := (List.mem_filter.mp hfile).2
      unfold recordRow fileAt
      rw [hown, Bool.true_and]
      by_cases hplace : file.ordinal = outcome.2
      · rw [if_pos (beq_iff_eq.mpr hplace), if_pos hplace]
        rfl
      · rw [if_neg (mt beq_iff_eq.mp hplace), if_neg hplace]
    rw [List.foldl_cons, ih, hfirst, List.map_map]
    rfl

/-- Outcomes of later places leave a row alone. -/
theorem foldl_recordRow_of_lt {row : PendingFile} {start : ℕ} (outcomes : List Bool)
    (h : row.ordinal < start) : (outcomes.zipIdx start).foldl recordRow row = row := by
  induction outcomes generalizing start with
  | nil => rfl
  | cons outcome rest ih =>
    have hother : recordRow row (outcome, start) = row := if_neg (by omega)
    rw [List.zipIdx_cons, List.foldl_cons, hother]
    apply ih
    omega

/-- Rows in the order of their ordinals get the outcomes in their order. -/
theorem recordRows_eq_zipWith {rows : List PendingFile} {start : ℕ} (outcomes : List Bool)
    (hrows : rows.map PendingFile.ordinal = (List.range' start rows.length).map Int.ofNat)
    (hlength : rows.length = outcomes.length) :
    (rows.map fun row => (outcomes.zipIdx start).foldl recordRow row) =
      List.zipWith PendingFile.withOutcome rows outcomes := by
  induction rows generalizing start outcomes with
  | nil => rfl
  | cons row rest ih =>
    cases outcomes with
    | nil => cases hlength
    | cons outcome outcomes =>
      rw [List.length_cons, List.range'_succ, List.map_cons, List.map_cons,
        List.cons.injEq] at hrows
      have hhere : recordRow row (outcome, start) = row.withOutcome outcome := if_pos hrows.1
      have hlater : ∀ other ∈ rest, recordRow other (outcome, start) = other := by
        intro other hother
        apply if_neg
        have hmem := List.mem_map_of_mem (f := PendingFile.ordinal) hother
        rw [hrows.2] at hmem
        obtain ⟨place, hplace, hordinal⟩ := List.mem_map.mp hmem
        rw [← hordinal]
        have hbound := (List.mem_range'_1.mp hplace).1
        intro heq
        have hsame := Int.ofNat.inj heq
        omega
      rw [List.map_cons, List.zipIdx_cons, List.foldl_cons, hhere, foldl_recordRow_of_lt,
        List.zipWith_cons_cons]
      · congr 1
        rw [← ih outcomes hrows.2 (Nat.succ.inj hlength)]
        apply List.map_congr_left
        intro other hother
        rw [List.foldl_cons, hlater other hother]
      · have hordinal : row.ordinal = (start : ℤ) := hrows.1
        have hkept : (row.withOutcome outcome).ordinal = row.ordinal := rfl
        omega

/-- A saved report gives each row of its job the outcome of its place. -/
theorem filesOf_saveReport {request : TaskRunReportRequest} {outcomes : List Bool}
    (hrows : AlignedRows (db.filesOf key))
    (h : saveReport J key request outcomes db = .ok next) :
    next.filesOf key = List.zipWith PendingFile.withOutcome (db.filesOf key) outcomes := by
  obtain ⟨requestJson, inserted, -, hlength, hinserted, rfl⟩ := saveReport_eq_ok.mp h
  have hfiles : inserted.filesOf key = db.filesOf key :=
    (leavesFiles_insertDelivery hinserted).filesOf key
  have hupdated : ∀ (state : QueueDatabase) (selects : PendingJob → Bool)
      (change : PendingJob → PendingJob),
      (state.updateJobs selects change).filesOf key = state.filesOf key := fun _ _ _ => rfl
  rw [hupdated, filesOf_recordOutcomes, hfiles]
  apply recordRows_eq_zipWith outcomes _ hlength
  rw [hrows.ordinals, List.range_eq_range']

/-- A loaded file with the outcome of its parse. -/
def PendingFilePlan.withOutcome (file : PendingFilePlan) (outcome : Bool) : PendingFilePlan :=
  { file with parsedWithoutErrors := outcome }

/-- A saved report stores every outcome on the loaded file of its place. -/
theorem recoverFilePlan_saveReport {request : TaskRunReportRequest} {outcomes : List Bool}
    (h : Orderly J db) (hsaved : saveReport J key request outcomes db = .ok next) :
    recoverFilePlan next key =
      List.zipWith PendingFilePlan.withOutcome (recoverFilePlan db key) outcomes := by
  have hnext := (h.edits (edits_saveReport hsaved)).rows key
  rw [recoverFilePlan_eq hnext, recoverFilePlan_eq (h.rows key),
    filesOf_saveReport (h.rows key) hsaved, List.map_zipWith, List.zipWith_map_left]
  congr 1
  funext row outcome
  cases outcome <;> rfl

end LabBridge.Agent
