import LabBridge.Agent.PlanRows

/-!
# The jobs of deliveries

A delivery is added for a queued job and deleted with it, so a key that has no job has no
deliveries either.
-/

namespace LabBridge.Agent

open ByteText JsonText Fallible LabBridge.Core

variable {J : Nlohmann} {store : AgentQueueStore} {db before middle after next : QueueDatabase}
  {key : Bytes}

/-- The keys of the queued jobs. -/
def QueueDatabase.jobKeys (db : QueueDatabase) : List Bytes := db.jobs.map PendingJob.executionKey

/-- The keys that deliveries are for. -/
def QueueDatabase.owners (db : QueueDatabase) : List Bytes :=
  db.deliveries.map PendingDelivery.executionKey

/-- Every delivery is for a queued job. -/
def Owned (db : QueueDatabase) : Prop := ∀ key ∈ db.owners, key ∈ db.jobKeys

/-- The jobs stay, and deliveries are added for them alone. -/
structure Owns (before after : QueueDatabase) : Prop where
  keys : after.jobKeys = before.jobKeys
  owners : ∀ key ∈ after.owners, key ∈ before.owners ∨ key ∈ before.jobKeys

/-- Nothing changes. -/
theorem Owns.refl (db : QueueDatabase) : Owns db db := ⟨rfl, fun _ hkey => .inl hkey⟩

/-- One change after the other. -/
theorem Owns.trans (first : Owns before middle) (second : Owns middle after) :
    Owns before after where
  keys := second.keys.trans first.keys
  owners key hkey := by
    rcases second.owners key hkey with howner | hjob
    · exact first.owners key howner
    · rw [first.keys] at hjob
      exact .inr hjob

/-- A change that owns its deliveries leaves none without a job. -/
theorem Owned.owns (h : Owned before) (howns : Owns before after) : Owned after := by
  intro key hkey
  rw [howns.keys]
  rcases howns.owners key hkey with howner | hjob
  · exact h key howner
  · exact hjob

/-! ## Statements -/

/-- A change of jobs that keeps their keys. -/
theorem owns_updateJobs (selects : PendingJob → Bool) {change : PendingJob → PendingJob}
    (hkey : ∀ job, (change job).executionKey = job.executionKey) :
    Owns db (db.updateJobs selects change) where
  keys := by
    unfold QueueDatabase.jobKeys QueueDatabase.updateJobs
    dsimp only
    rw [List.map_map]
    apply List.map_congr_left
    intro job _
    rw [Function.comp_apply]
    split
    · exact hkey job
    · rfl
  owners _ hmem := .inl hmem

/-- A change of one job that keeps its key. -/
theorem owns_updateJob {selects : PendingJob → Bool} {change : PendingJob → PendingJob}
    {refusal : AgentError} (h : db.updateJob selects change refusal = .ok next)
    (hkey : ∀ job, (change job).executionKey = job.executionKey) : Owns db next := by
  obtain ⟨-, rfl⟩ := updateJob_eq_ok.mp h
  exact owns_updateJobs selects hkey

/-- A change of one file. -/
theorem owns_updateFile {selects : PendingFile → Bool} {change : PendingFile → PendingFile}
    {refusal : AgentError} (h : db.updateFile selects change refusal = .ok next) : Owns db next := by
  obtain ⟨-, rfl⟩ := updateFile_eq_ok.mp h
  exact ⟨rfl, fun _ hmem => .inl hmem⟩

/-- A change of deliveries that keeps their jobs. -/
theorem owns_updateDeliveries (selects : PendingDelivery → Bool)
    {change : PendingDelivery → PendingDelivery}
    (hkey : ∀ delivery, (change delivery).executionKey = delivery.executionKey) :
    Owns db (db.updateDeliveries selects change) where
  keys := rfl
  owners key hmem := by
    left
    unfold QueueDatabase.owners QueueDatabase.updateDeliveries at *
    dsimp only at hmem
    rw [List.map_map] at hmem
    obtain ⟨delivery, hdelivery, rfl⟩ := List.mem_map.mp hmem
    rw [Function.comp_apply]
    split
    · rw [hkey]
      exact List.mem_map_of_mem hdelivery
    · exact List.mem_map_of_mem hdelivery

/-- A key that finds a job is one of the keys. -/
theorem mem_jobKeys_of_job? (h : (db.job? key).isSome = true) : key ∈ db.jobKeys := by
  obtain ⟨job, hjob⟩ := Option.isSome_iff_exists.mp h
  obtain ⟨hmem, rfl⟩ := mem_of_job? hjob
  exact List.mem_map_of_mem hmem

/-- A delivery is only inserted for a job. -/
theorem owns_insertDelivery {delivery : PendingDelivery} {operation : String}
    (h : db.insertDelivery delivery operation = .ok next) : Owns db next := by
  unfold QueueDatabase.insertDelivery at h
  split at h
  · cases h
  · rename_i hfree
    cases h
    have hjob : (db.job? delivery.executionKey).isSome = true := by
      rw [← Option.not_isNone, Bool.not_eq_true', Bool.eq_false_iff]
      exact fun hnone => hfree (.inl hnone)
    refine ⟨rfl, ?_⟩
    intro key hmem
    rw [QueueDatabase.owners, List.map_append, List.mem_append, List.map_singleton,
      List.mem_singleton] at hmem
    rcases hmem with hold | rfl
    · exact .inl hold
    · exact .inr (mem_jobKeys_of_job? hjob)

/-- A change made item by item. -/
theorem owns_foldlM {α : Type} {step : QueueDatabase → α → Except AgentError QueueDatabase}
    {items : List α} (hstep : ∀ {state after item}, step state item = .ok after → Owns state after)
    (h : items.foldlM step db = .ok next) : Owns db next := by
  apply foldlM_keeps _ (Owns.refl db) h
  exact fun hstate hnext => hstate.trans (hstep hnext)

/-- Deleted jobs take their deliveries along. -/
theorem Owned.deleteJobs (h : Owned db) (selects : PendingJob → Bool) :
    Owned (db.deleteJobs selects) := by
  intro key hmem
  obtain ⟨delivery, hdelivery, rfl⟩ := List.mem_map.mp hmem
  obtain ⟨hold, hkept⟩ := List.mem_filter.mp hdelivery
  obtain ⟨job, hjob, hkey⟩ := List.mem_map.mp (h _ (List.mem_map_of_mem hold))
  refine List.mem_map.mpr ⟨job, List.mem_filter.mpr ⟨hjob, ?_⟩, hkey⟩
  rw [Bool.not_eq_true', Bool.eq_false_iff]
  intro hselected
  rw [Bool.not_eq_true', Bool.eq_false_iff] at hkept
  apply hkept
  rw [List.contains_iff_mem, ← hkey]
  exact List.mem_map_of_mem (List.mem_filter.mpr ⟨hjob, hselected⟩)

/-! ## Operations -/

/-- Saving a plan. -/
theorem owns_saveFilePlan {files : List PendingFilePlan} {failures : List TaskRunReportFailedFile}
    (h : saveFilePlan J key files failures db = .ok next) : Owns db next := by
  obtain ⟨failuresJson, planned, -, hplanned, h⟩ := saveFilePlan_eq_ok.mp h
  refine (owns_foldlM ?_ hplanned).trans (owns_updateJob h fun _ => rfl)
  intro state after file hfile
  obtain ⟨-, rfl⟩ := insertFile_eq_ok.mp hfile
  exact ⟨rfl, fun _ hmem => .inl hmem⟩

/-- Accepting a manifest. -/
theorem owns_acceptManifest {rawFileIds : List Bytes}
    (h : acceptManifest J key rawFileIds db = .ok next) : Owns db next := by
  unfold acceptManifest at h
  split at h
  · cases h
  · simp only [bind_eq_ok] at h
    obtain ⟨manifest, -, h⟩ := h
    split at h
    · cases h
    · simp only [bind_eq_ok, pure_eq_ok] at h
      obtain ⟨mapped, hmapped, rfl⟩ := h
      exact (owns_foldlM (fun hstep => owns_updateFile hstep) hmapped).trans
        (owns_updateJobs _ fun _ => rfl)

/-- Saving a report. -/
theorem owns_saveReport {request : TaskRunReportRequest} {outcomes : List Bool}
    (h : saveReport J key request outcomes db = .ok next) : Owns db next := by
  have hrecorded : ∀ (outcomes : List (Bool × ℕ)) (state : QueueDatabase),
      Owns state (outcomes.foldl (recordOutcome key) state) := by
    intro outcomes
    induction outcomes with
    | nil => exact Owns.refl
    | cons outcome rest ih =>
      intro state
      have hfirst : Owns state (recordOutcome key state outcome) := ⟨rfl, fun _ hmem => .inl hmem⟩
      exact hfirst.trans (ih _)
  obtain ⟨requestJson, inserted, -, -, hinserted, rfl⟩ := saveReport_eq_ok.mp h
  exact ((owns_insertDelivery hinserted).trans (hrecorded _ _)).trans
    (owns_updateJobs _ fun _ => rfl)

/-- Parking a job. -/
theorem owns_markRequiresAttention {errorKind : Bytes}
    (h : markRequiresAttention key errorKind db = .ok next) : Owns db next := by
  unfold markRequiresAttention at h
  split at h
  · cases h
  · simp only [bind_eq_ok] at h
    obtain ⟨stage, -, h⟩ := h
    exact owns_updateJob h fun _ => rfl

/-- Counting a failed delivery. -/
theorem owns_recordDeliveryFailure {type : RequestType} {idempotencyKey : Bytes}
    {retryable : Bool} {errorKind : Bytes} {retryDelay now : ℤ}
    (h : recordDeliveryFailure type idempotencyKey retryable errorKind retryDelay now db =
      .ok next) : Owns db next := by
  have hcounted : Owns db (db.updateDeliveries (deliveryIs type idempotencyKey) fun delivery =>
      delivery.failed (now + retryDelay)) := owns_updateDeliveries _ fun _ => rfl
  unfold recordDeliveryFailure at h
  split at h
  · dsimp only at h
    split at h
    · cases h
      exact hcounted.trans (owns_updateJobs _ fun _ => rfl)
    · cases h
      exact hcounted
  · cases h

/-- Returning a waiting job to its stage. -/
theorem owns_resumeDelivery {type : RequestType} {idempotencyKey : Bytes}
    (h : resumeDelivery type idempotencyKey db = .ok next) : Owns db next := by
  unfold resumeDelivery at h
  split at h
  · cases h
  · dsimp only at h
    split at h
    · cases h
    · cases h
      exact owns_updateJobs _ fun _ => rfl

/-- Returning a parked job to its stage. -/
theorem owns_retryAttentionJob {status : QueueRetryStatus}
    (h : retryAttentionJob key db = .ok (status, next)) : Owns db next := by
  unfold retryAttentionJob at h
  split at h
  · cases h
  · split at h
    · simp only [bind_eq_ok, pure_eq_ok] at h
      obtain ⟨stage, -, h⟩ := h
      cases h
      refine Owns.trans ?_ (owns_updateDeliveries _ ?_)
      · exact owns_updateJobs _ fun _ => rfl
      · exact fun _ => rfl
    · cases h
      exact Owns.refl db

/-- The operations that neither add nor delete a job leave every delivery its job. -/
theorem owns_run {operation : QueueOperation}
    (hkeeps : operation.isEdit = true ∨ ∃ key files failures,
      operation = .saveFilePlan key files failures)
    (h : operation.run J store db = .ok next) : Owns db next := by
  cases operation with
  | beginJob task request retryFiles now => simp [QueueOperation.isEdit] at hkeeps
  | completeJob key now => simp [QueueOperation.isEdit] at hkeeps
  | discardStartPendingJob key => simp [QueueOperation.isEdit] at hkeeps
  | saveFilePlan key files failures => exact owns_saveFilePlan h
  | saveFileFailures key failures =>
    simp only [QueueOperation.run, saveFileFailures, bind_eq_ok] at h
    obtain ⟨failuresJson, -, h⟩ := h
    exact owns_updateJob h fun _ => rfl
  | markFileFailed key ordinal errorDetail failures =>
    simp only [QueueOperation.run, markFileFailed, bind_eq_ok] at h
    obtain ⟨failuresJson, -, marked, hmarked, h⟩ := h
    exact (owns_updateFile hmarked).trans (owns_updateJob h fun _ => rfl)
  | acceptStart key taskRunId => exact owns_updateJob h fun _ => rfl
  | markFileArchived key ordinal => exact owns_updateFile h
  | saveManifest key request =>
    simp only [QueueOperation.run, saveManifest, bind_eq_ok] at h
    obtain ⟨requestJson, -, inserted, hinserted, h⟩ := h
    exact (owns_insertDelivery hinserted).trans (owns_updateJob h fun _ => rfl)
  | acceptManifest key rawFileIds => exact owns_acceptManifest h
  | saveReport key request outcomes => exact owns_saveReport h
  | markRequiresAttention key errorKind => exact owns_markRequiresAttention h
  | recordDeliveryFailure type idempotencyKey retryable errorKind retryDelay now =>
    exact owns_recordDeliveryFailure h
  | resumeDelivery type idempotencyKey => exact owns_resumeDelivery h
  | retryAttentionJob key =>
    simp only [QueueOperation.run, map_eq_ok] at h
    obtain ⟨⟨status, retried⟩, h, rfl⟩ := h
    exact owns_retryAttentionJob h

/-- A new job brings its start along. -/
theorem Owned.beginJob (h : Owned db) {task : TaskConfig} {request : StartTaskRunRequest}
    {retryFiles : List RetryFileInput} {now : Bytes} {answer : Bool}
    (hbegun : beginJob J store task request retryFiles now db = .ok (answer, next)) :
    Owned next := by
  simp only [Agent.beginJob, bind_eq_ok, check_eq_ok] at hbegun
  obtain ⟨-, taskJson, -, requestJson, -, retryFilesJson, -, hbegun⟩ := hbegun
  split at hbegun
  · split at hbegun
    · cases hbegun
      exact h
    · exact absurd hbegun throw_ne_ok
  · simp only [check_eq_ok, bind_eq_ok, pure_eq_ok, Prod.mk.injEq] at hbegun
    obtain ⟨-, inserted, hinserted, started, hstarted, -, rfl⟩ := hbegun
    apply Owned.owns _ (owns_insertDelivery hstarted)
    unfold QueueDatabase.insertJob at hinserted
    split at hinserted
    · cases hinserted
    · cases hinserted
      intro key hkey
      rw [QueueDatabase.jobKeys, List.map_append, List.mem_append]
      exact .inl (h key hkey)

/-- Every operation leaves every delivery its job. -/
theorem Owned.run (h : Owned db) {operation : QueueOperation}
    (hrun : operation.run J store db = .ok next) : Owned next := by
  cases operation with
  | beginJob task request retryFiles now =>
    simp only [QueueOperation.run, map_eq_ok] at hrun
    obtain ⟨⟨answer, begun⟩, hbegun, rfl⟩ := hrun
    exact h.beginJob hbegun
  | completeJob key now =>
    simp only [QueueOperation.run, completeJob] at hrun
    split at hrun
    · cases hrun
      have hprocessed : ∀ processed, Owned { db with processed := processed } := fun _ => h
      exact (hprocessed _).deleteJobs _
    · cases hrun
  | discardStartPendingJob key =>
    simp only [QueueOperation.run, discardStartPendingJob] at hrun
    split at hrun
    · cases hrun
    · split at hrun
      · cases hrun
        exact h.deleteJobs _
      · cases hrun
  | saveFilePlan key files failures => exact h.owns (owns_run (.inr ⟨_, _, _, rfl⟩) hrun)
  | _ => exact h.owns (owns_run (.inl rfl) hrun)

/-- Every delivery of a reachable queue is for a queued job. -/
theorem owned_of_reachable {history : QueueHistory} (reached : QueueReachable J store history) :
    Owned history.database := by
  induction reached with
  | fresh => exact fun key hkey => absurd hkey List.not_mem_nil
  | step operation reached inStage ih =>
    unfold QueueHistory.after
    split
    · rename_i database hrun
      exact ih.run hrun
    · exact ih

/-- A key without a job has no delivery. -/
theorem Owned.delivery?_eq_none (h : Owned db) (hjob : db.job? key = none) (type : RequestType) :
    db.delivery? key type = none := by
  apply List.find?_eq_none.mpr
  intro delivery hdelivery hselected
  rw [Bool.and_eq_true, beq_iff_eq] at hselected
  have howner := h _ (List.mem_map_of_mem hdelivery)
  rw [hselected.1] at howner
  obtain ⟨job, hmem, hkey⟩ := List.mem_map.mp howner
  exact List.find?_eq_none.mp hjob job hmem (beq_iff_eq.mpr hkey)

end LabBridge.Agent
