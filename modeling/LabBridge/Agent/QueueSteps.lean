import LabBridge.Agent.QueueInvariant
import Mathlib.Data.List.Pairwise

/-!
# Every operation of the queue keeps its jobs sound

An operation that only adds to deliveries and plans, or that changes jobs alone, is looked at
for the jobs it touches; the two that do more are the acceptance of a manifest, which gives
files their identifiers, and the count of a failed delivery.
-/

namespace LabBridge.Agent

open ByteText JsonText Fallible LabBridge.Core

variable {J : Nlohmann} {store : AgentQueueStore} {db before after : QueueDatabase} {key : Bytes}
  {returned : Bytes → List Bytes}

/-- Two deliveries are told apart by job and kind, and by kind and idempotency key. -/
def Apart (left right : PendingDelivery) : Prop :=
  (left.executionKey = right.executionKey → left.requestType ≠ right.requestType) ∧
    (left.requestType = right.requestType → left.idempotencyKey ≠ right.idempotencyKey)

instance : Std.Symm Apart :=
  ⟨fun _ _ h => ⟨fun heq => (h.1 heq.symm).symm, fun heq => (h.2 heq.symm).symm⟩⟩

/-- Every job is sound, and rows are told apart by their keys. -/
structure QueueSound (J : Nlohmann) (returned : Bytes → List Bytes) (db : QueueDatabase) :
    Prop where
  keys : db.jobs.Pairwise fun left right => left.executionKey ≠ right.executionKey
  kinds : db.deliveries.Pairwise Apart
  jobs : ∀ job ∈ db.jobs, JobSound J db (returned job.executionKey) job

/-- Two jobs of one key are one job. -/
theorem QueueSound.job_unique (sound : QueueSound J returned db) {left right : PendingJob}
    (hleft : left ∈ db.jobs) (hright : right ∈ db.jobs)
    (hkey : left.executionKey = right.executionKey) : left = right := by
  by_contra hne
  have : Std.Symm fun left right : PendingJob => left.executionKey ≠ right.executionKey :=
    ⟨fun _ _ h => h.symm⟩
  exact sound.keys.forall hleft hright hne hkey

/-- A job that a key finds has the key. -/
theorem mem_of_job? {job : PendingJob} (h : db.job? key = some job) :
    job ∈ db.jobs ∧ job.executionKey = key :=
  ⟨List.mem_of_find?_eq_some h, by simpa using List.find?_some h⟩

/-- Every delivery is found under its key and kind. -/
theorem QueueSound.delivery?_of_mem (sound : QueueSound J returned db) {delivery : PendingDelivery}
    (h : delivery ∈ db.deliveries) :
    db.delivery? delivery.executionKey delivery.requestType = some delivery := by
  have hsome : (db.delivery? delivery.executionKey delivery.requestType).isSome = true := by
    rw [QueueDatabase.delivery?, List.find?_isSome]
    exact ⟨delivery, h, by simp⟩
  obtain ⟨found, hfound⟩ := Option.isSome_iff_exists.mp hsome
  have hmatch := List.find?_some hfound
  simp only [Bool.and_eq_true, beq_iff_eq] at hmatch
  have hsame : found = delivery := by
    by_contra hne
    exact (sound.kinds.forall (List.mem_of_find?_eq_some hfound) h hne).1 hmatch.1 hmatch.2
  rw [hfound, hsame]

/-- Two deliveries of one kind and idempotency key are one delivery. -/
theorem QueueSound.delivery_unique (sound : QueueSound J returned db) {left right : PendingDelivery}
    (hleft : left ∈ db.deliveries) (hright : right ∈ db.deliveries)
    (htype : left.requestType = right.requestType)
    (hkey : left.idempotencyKey = right.idempotencyKey) : left = right := by
  by_contra hne
  exact (sound.kinds.forall hleft hright hne).2 htype hkey

/-! ## Statements over the jobs and over everything else -/

/-- A change of one job succeeds when exactly one is selected. -/
theorem updateJob_eq_ok {selects : PendingJob → Bool} {change : PendingJob → PendingJob}
    {refusal : AgentError} :
    db.updateJob selects change refusal = .ok after ↔
      db.jobs.countP selects = 1 ∧ db.updateJobs selects change = after := by
  unfold QueueDatabase.updateJob
  split <;> simp [*]

/-- A change of one file succeeds when exactly one is selected. -/
theorem updateFile_eq_ok {selects : PendingFile → Bool} {change : PendingFile → PendingFile}
    {refusal : AgentError} :
    db.updateFile selects change refusal = .ok after ↔
      db.files.countP selects = 1 ∧ db.updateFiles selects change = after := by
  unfold QueueDatabase.updateFile
  split <;> simp [*]

/-- A statement over jobs keeps the queue sound when it does so for the jobs it changes. -/
theorem QueueSound.updateJobs (sound : QueueSound J returned db) {selects : PendingJob → Bool}
    {change : PendingJob → PendingJob}
    (hkey : ∀ job, (change job).executionKey = job.executionKey)
    (hchange : ∀ job ∈ db.jobs, selects job = true →
      JobSound J db (returned job.executionKey) job →
      JobSound J db (returned job.executionKey) (change job)) :
    QueueSound J returned (db.updateJobs selects change) where
  keys := by
    refine List.Pairwise.map _ (fun left right h => ?_) sound.keys
    by_cases hleft : selects left <;> by_cases hright : selects right <;>
      simpa [hleft, hright, hkey] using h
  kinds := sound.kinds
  jobs := by
    intro job hjob
    obtain ⟨old, hold, rfl⟩ := List.mem_map.mp hjob
    have hsound := sound.jobs old hold
    by_cases hselected : selects old = true
    · simp only [hselected, if_true, hkey]
      exact (hchange old hold hselected hsound).keeps (keeps_updateJobs selects change)
    · simp only [hselected, Bool.false_eq_true, if_false]
      exact hsound.keeps (keeps_updateJobs selects change)

/-- A statement that leaves the jobs alone and keeps what they rely on. -/
theorem QueueSound.grow (sound : QueueSound J returned before) (hjobs : after.jobs = before.jobs)
    (kinds : after.deliveries.Pairwise Apart)
    (kept : ∀ key, Keeps key before after) : QueueSound J returned after where
  keys := by rw [hjobs]; exact sound.keys
  kinds := kinds
  jobs := by
    rw [hjobs]
    exact fun job hjob => (sound.jobs job hjob).keeps (kept _)

/-- A change of a job that touches neither its run nor its stage. -/
theorem JobSound.same {rawFileIds : List Bytes} {job changed : PendingJob}
    (sound : JobSound J db rawFileIds job) (hkey : changed.executionKey = job.executionKey)
    (hrun : changed.taskRunId = job.taskRunId) (hstage : changed.stage = job.stage)
    (hretry : changed.retryStage = job.retryStage) : JobSound J db rawFileIds changed := by
  apply sound.restage hkey hrun
  · simp only [PendingJob.effectiveStage, hstage, hretry]
  · rw [hstage, hretry]
    exact sound.waiting

/-- The failures of a job change nothing it relies on. -/
theorem QueueSound.updateFailures (sound : QueueSound J returned db) {refusal : AgentError}
    {failuresJson : Bytes}
    (h : db.updateJob (jobOf key) (fun job => { job with fileFailuresJson := some failuresJson })
      refusal = .ok after) : QueueSound J returned after := by
  obtain ⟨-, rfl⟩ := updateJob_eq_ok.mp h
  exact sound.updateJobs (fun _ => rfl) fun _ _ _ hsound => hsound.same rfl rfl rfl rfl

/-- An inserted delivery is of a kind that its job has not yet, under a new key. -/
theorem kinds_insertDelivery {delivery : PendingDelivery} {operation : String}
    (kinds : db.deliveries.Pairwise Apart)
    (h : db.insertDelivery delivery operation = .ok after) :
    after.jobs = db.jobs ∧ after.deliveries.Pairwise Apart := by
  unfold QueueDatabase.insertDelivery at h
  split at h
  · cases h
  · rename_i hfree
    cases h
    have hnone : db.delivery? delivery.executionKey delivery.requestType = none := by
      simpa using (not_or.mp (not_or.mp hfree).2).1
    have hnew : db.deliveryOf? delivery.requestType delivery.idempotencyKey = none := by
      simpa using (not_or.mp (not_or.mp hfree).2).2
    refine ⟨rfl, List.pairwise_append.mpr ⟨kinds, List.pairwise_singleton _ _, ?_⟩⟩
    intro left hleft right hright
    rw [List.mem_singleton.mp hright]
    constructor
    · intro hkey htype
      have hother := List.find?_eq_none.mp hnone left hleft
      simp [hkey, htype] at hother
    · intro htype hkey
      have hother := List.find?_eq_none.mp hnew left hleft
      simp [hkey, htype] at hother

/-- A new delivery keeps the queue sound. -/
theorem QueueSound.insertDelivery (sound : QueueSound J returned db) {delivery : PendingDelivery}
    {operation : String} (h : db.insertDelivery delivery operation = .ok after) :
    QueueSound J returned after :=
  have added := kinds_insertDelivery sound.kinds h
  sound.grow added.1 added.2 fun _ => keeps_insertDelivery h

/-- A new planned file keeps the queue sound. -/
theorem QueueSound.insertFile (sound : QueueSound J returned db) {file : PendingFile}
    (h : db.insertFile file = .ok after) : QueueSound J returned after := by
  refine sound.grow ?_ ?_ fun _ => keeps_insertFile h
  all_goals
    unfold QueueDatabase.insertFile at h
    split at h
    · cases h
    · cases h
      first
        | rfl
        | exact sound.kinds

/-- A statement over files that leaves them under their paths and identifiers. -/
theorem QueueSound.updateFiles (sound : QueueSound J returned db) {selects : PendingFile → Bool}
    {change : PendingFile → PendingFile} (hsame : ∀ file, SameRegistration file (change file)) :
    QueueSound J returned (db.updateFiles selects change) :=
  sound.grow rfl sound.kinds fun _ => keeps_updateFiles selects fun file _ _ => hsame file

/-- Deleting jobs with all that belongs to them keeps the queue sound. -/
theorem QueueSound.deleteJobs (sound : QueueSound J returned db) (selects : PendingJob → Bool) :
    QueueSound J returned (db.deleteJobs selects) where
  keys := sound.keys.filter _
  kinds := sound.kinds.filter _
  jobs := by
    intro job hjob
    obtain ⟨hmem, hkept⟩ := List.mem_filter.mp hjob
    refine (sound.jobs job hmem).keeps (keeps_deleteJobs fun other hother hselected hkey => ?_)
    rw [sound.job_unique hother hmem hkey] at hselected
    simp [hselected] at hkept

/-- A statement over deliveries that leaves them under their keys with their requests. -/
theorem QueueSound.updateDeliveries (sound : QueueSound J returned db)
    {selects : PendingDelivery → Bool} {change : PendingDelivery → PendingDelivery}
    (hkey : ∀ delivery, (change delivery).executionKey = delivery.executionKey)
    (htype : ∀ delivery, (change delivery).requestType = delivery.requestType)
    (hname : ∀ delivery, (change delivery).idempotencyKey = delivery.idempotencyKey)
    (hsame : ∀ delivery, Redelivers delivery (change delivery)) :
    QueueSound J returned (db.updateDeliveries selects change) := by
  refine sound.grow rfl ?_ fun key => keeps_updateDeliveries selects hkey htype hsame
  refine List.Pairwise.map _ (fun left right hdistinct => ?_) sound.kinds
  by_cases hleft : selects left <;> by_cases hright : selects right <;>
    simpa [Apart, hleft, hright, hkey, htype, hname] using hdistinct

/-! ## New jobs and plans -/

/-- A job that was just inserted waits for its start. -/
theorem jobSound_new {rawFileIds : List Bytes} {request : StartTaskRunRequest}
    {taskJson retryFilesJson now : Bytes} {delivery : PendingDelivery}
    (h : db.delivery? request.executionKey .start = some delivery) :
    JobSound J db rawFileIds (newJob request taskJson retryFilesJson now) where
  executable := ⟨.startPending, rfl, rfl⟩
  start := ⟨delivery, h⟩
  run := by simp [newJob, PendingJob.effectiveStage, isExecutableStage]
  manifest h := by cases h
  report h := by cases h
  registered h := by cases h
  waiting h := by cases h

/-- Queueing a job with its start keeps the queue sound. -/
theorem QueueSound.beginJob (sound : QueueSound J returned db) {task : TaskConfig}
    {request : StartTaskRunRequest} {retryFiles : List RetryFileInput} {now : Bytes} {isNew : Bool}
    (h : beginJob J store task request retryFiles now db = .ok (isNew, after)) :
    QueueSound J returned after := by
  simp only [Agent.beginJob, bind_eq_ok, check_eq_ok] at h
  obtain ⟨-, taskJson, -, requestJson, -, retryFilesJson, -, h⟩ := h
  split at h
  · split at h
    · rw [pure_eq_ok] at h
      cases h
      exact sound
    · exact absurd h throw_ne_ok
  · rename_i hnone
    simp only [check_eq_ok, bind_eq_ok, pure_eq_ok, Prod.mk.injEq] at h
    obtain ⟨-, inserted, hinserted, started, hstarted, -, rfl⟩ := h
    have hfresh : ∀ job ∈ db.jobs, job.executionKey ≠ request.executionKey := by
      simpa [QueueDatabase.job?] using hnone
    have hjobs : inserted =
        { db with jobs := db.jobs ++ [newJob request taskJson retryFilesJson now] } := by
      unfold QueueDatabase.insertJob at hinserted
      split at hinserted
      · cases hinserted
      · exact (Except.ok.inj hinserted).symm
    subst hjobs
    have hkept : ∀ key, Keeps key db started := fun key =>
      (keeps_jobs key _).trans (keeps_insertDelivery hstarted)
    have hkinds := kinds_insertDelivery (by exact sound.kinds) hstarted
    constructor
    · rw [hkinds.1]
      refine List.pairwise_append.mpr ⟨sound.keys, List.pairwise_singleton _ _, ?_⟩
      intro left hleft right hright
      rw [List.mem_singleton.mp hright]
      exact hfresh left hleft
    · exact hkinds.2
    · intro job hjob
      rw [hkinds.1, List.mem_append, List.mem_singleton] at hjob
      cases hjob with
      | inl hold => exact (sound.jobs job hold).keeps (hkept _)
      | inr hnew =>
        subst hnew
        exact jobSound_new (delivery?_insertDelivery hstarted)

/-- Planning files keeps the queue sound. -/
theorem QueueSound.insertFiles (sound : QueueSound J returned db) {files : List PendingFilePlan}
    (h : files.foldlM (fun db file => db.insertFile (file.row key)) db = .ok after) :
    QueueSound J returned after := by
  apply foldlM_keeps _ sound h
  exact fun hstate hnext => hstate.insertFile hnext

/-- Saving a plan keeps the queue sound. -/
theorem QueueSound.saveFilePlan (sound : QueueSound J returned db) {files : List PendingFilePlan}
    {failures : List TaskRunReportFailedFile}
    (h : saveFilePlan J key files failures db = .ok after) : QueueSound J returned after := by
  simp only [Agent.saveFilePlan, bind_eq_ok] at h
  obtain ⟨failuresJson, -, planned, hplanned, h⟩ := h
  exact (sound.insertFiles hplanned).updateFailures h

/-- Saving the failures of a job keeps the queue sound. -/
theorem QueueSound.saveFileFailures (sound : QueueSound J returned db)
    {failures : List TaskRunReportFailedFile} (h : saveFileFailures J key failures db = .ok after) :
    QueueSound J returned after := by
  simp only [Agent.saveFileFailures, bind_eq_ok] at h
  obtain ⟨failuresJson, -, h⟩ := h
  exact sound.updateFailures h

/-- Marking a file as failed keeps the queue sound. -/
theorem QueueSound.markFileFailed (sound : QueueSound J returned db) {ordinal : ℤ}
    {errorDetail : Bytes} {failures : List TaskRunReportFailedFile}
    (h : markFileFailed J key ordinal errorDetail failures db = .ok after) :
    QueueSound J returned after := by
  simp only [Agent.markFileFailed, bind_eq_ok] at h
  obtain ⟨failuresJson, -, marked, hmarked, h⟩ := h
  obtain ⟨-, rfl⟩ := updateFile_eq_ok.mp hmarked
  refine QueueSound.updateFailures ?_ h
  exact sound.updateFiles fun _ => ⟨rfl, rfl, rfl⟩

/-- Marking a file as archived keeps the queue sound. -/
theorem QueueSound.markFileArchived (sound : QueueSound J returned db) {ordinal : ℤ}
    (h : markFileArchived key ordinal db = .ok after) : QueueSound J returned after := by
  obtain ⟨-, rfl⟩ := updateFile_eq_ok.mp h
  exact sound.updateFiles fun _ => ⟨rfl, rfl, rfl⟩

/-! ## Stages -/

/-- A job that is selected by its key and its stage. -/
theorem jobIn_iff {stages : List Stage} {job : PendingJob} :
    jobIn key stages job = true ↔ job.executionKey = key ∧ job.stage ∈ stages := by
  simp [jobIn]

/-- The stage a job that is not parked returns to is its own. -/
theorem effectiveStage_of_executable {job : PendingJob} {stage : Stage} (h : job.stage = stage)
    (hexecutable : isExecutableStage stage = true) : job.effectiveStage = some stage := by
  rw [PendingJob.effectiveStage, h, if_pos hexecutable]

/-- Taking the run of a started job keeps the queue sound. -/
theorem QueueSound.acceptStart (sound : QueueSound J returned db) {taskRunId : Bytes}
    (h : acceptStart key taskRunId db = .ok after) : QueueSound J returned after := by
  obtain ⟨-, rfl⟩ := updateJob_eq_ok.mp h
  refine sound.updateJobs (fun _ => rfl) fun job _ _ hsound => ?_
  constructor
  · exact ⟨.collecting, rfl, rfl⟩
  · exact hsound.start
  · simp [PendingJob.effectiveStage, isExecutableStage]
  all_goals
    intro h
    cases h

/-- Saving a manifest, with its delivery, keeps the queue sound. -/
theorem QueueSound.saveManifest (sound : QueueSound J returned db)
    {request : RawFileManifestRequest} (h : saveManifest J key request db = .ok after) :
    QueueSound J returned after := by
  simp only [Agent.saveManifest, bind_eq_ok] at h
  obtain ⟨requestJson, -, inserted, hinserted, h⟩ := h
  obtain ⟨-, rfl⟩ := updateJob_eq_ok.mp h
  have hfound := delivery?_insertDelivery hinserted
  refine (sound.insertDelivery hinserted).updateJobs (fun _ => rfl) fun job _ hselected hsound => ?_
  obtain ⟨hkey, hstage⟩ := jobIn_iff.mp hselected
  have heffective := effectiveStage_of_executable (List.mem_singleton.mp hstage) rfl
  have hrun := hsound.run
  rw [heffective] at hrun
  constructor
  · exact ⟨.manifestPending, rfl, rfl⟩
  · exact hsound.start
  · simpa [PendingJob.effectiveStage, isExecutableStage] using hrun
  · exact fun _ => ⟨_, hkey ▸ hfound⟩
  all_goals
    intro h
    cases h

/-- Recording an outcome keeps the queue sound. -/
theorem QueueSound.recordOutcomes (sound : QueueSound J returned db) (outcomes : List (Bool × ℕ)) :
    QueueSound J returned (outcomes.foldl (recordOutcome key) db) := by
  induction outcomes generalizing db with
  | nil => exact sound
  | cons outcome rest ih => exact ih (sound.updateFiles fun _ => ⟨rfl, rfl, rfl⟩)

/-- Recording outcomes keeps what a job relies on. -/
theorem keeps_recordOutcomes {other : Bytes} (outcomes : List (Bool × ℕ)) :
    Keeps other db (outcomes.foldl (recordOutcome key) db) := by
  induction outcomes generalizing db with
  | nil => exact Keeps.refl other db
  | cons outcome rest ih =>
    have hone : Keeps other db (recordOutcome key db outcome) :=
      keeps_updateFiles _ fun _ _ _ => ⟨rfl, rfl, rfl⟩
    exact hone.trans ih

/-- Saving a report, with its delivery and the outcomes, keeps the queue sound. -/
theorem QueueSound.saveReport (sound : QueueSound J returned db) {request : TaskRunReportRequest}
    {outcomes : List Bool} (h : saveReport J key request outcomes db = .ok after) :
    QueueSound J returned after := by
  simp only [Agent.saveReport, bind_eq_ok, check_eq_ok, pure_eq_ok] at h
  obtain ⟨requestJson, -, -, inserted, hinserted, rfl⟩ := h
  have hfound := delivery?_insertDelivery hinserted
  refine ((sound.insertDelivery hinserted).recordOutcomes _).updateJobs (fun _ => rfl)
    fun job _ hselected hsound => ?_
  obtain ⟨hkey, hstage⟩ := jobIn_iff.mp hselected
  have hrun : job.taskRunId.isSome = true := by
    rw [hsound.run]
    rcases List.mem_pair.mp hstage with h | h
    all_goals
      rw [effectiveStage_of_executable h rfl]
      decide
  constructor
  · exact ⟨.reportPending, rfl, rfl⟩
  · exact hsound.start
  · simpa [PendingJob.effectiveStage, isExecutableStage] using hrun
  · intro h
    cases h
  · intro _
    subst hkey
    obtain ⟨found, h, -⟩ := (keeps_recordOutcomes outcomes.zipIdx).deliveries _ _ hfound
    exact ⟨found, h⟩
  all_goals
    intro h
    cases h

/-! ## The end of a job -/

/-- Completing a job keeps the queue sound. -/
theorem QueueSound.completeJob (sound : QueueSound J returned db) {now : Bytes}
    (h : completeJob store key now db = .ok after) : QueueSound J returned after := by
  unfold Agent.completeJob at h
  split at h
  · cases h
    refine QueueSound.deleteJobs ?_ _
    exact sound.grow rfl sound.kinds fun key => ⟨(Keeps.refl key db).1, (Keeps.refl key db).2⟩
  · cases h

/-- Discarding a job whose run has ended keeps the queue sound. -/
theorem QueueSound.discardStartPendingJob (sound : QueueSound J returned db)
    (h : discardStartPendingJob key db = .ok after) : QueueSound J returned after := by
  unfold Agent.discardStartPendingJob at h
  split at h
  · cases h
  · split at h
    · cases h
      exact sound.deleteJobs _
    · cases h

/-! ## Parking and returning -/

/-- The stage that parking a job keeps is the one it is to return to. -/
theorem resumeStageOf_eq_ok {job : PendingJob} {stage : Stage}
    (h : resumeStageOf key job = .ok stage) : job.effectiveStage = some stage := by
  unfold resumeStageOf at h
  unfold PendingJob.effectiveStage
  split at h
  · rename_i hstage hretry
    split at h
    · cases h
      rw [hstage, hretry]
      rfl
    · cases h
  · cases h
  · cases h
  · rename_i hsome hnone hattention
    cases h
    have hexecutable : isExecutableStage job.stage = true := by
      cases hretry : job.retryStage <;> cases hstage : job.stage <;> simp_all [isExecutableStage]
    rw [if_pos hexecutable]

/-- Parking a job with the stage it returns to keeps the queue sound. -/
theorem QueueSound.markRequiresAttention (sound : QueueSound J returned db) {errorKind : Bytes}
    (h : markRequiresAttention key errorKind db = .ok after) : QueueSound J returned after := by
  unfold Agent.markRequiresAttention at h
  split at h
  · exact absurd h throw_ne_ok
  · rename_i job hjob
    rw [bind_eq_ok] at h
    obtain ⟨stage, hstage, h⟩ := h
    obtain ⟨-, rfl⟩ := updateJob_eq_ok.mp h
    refine sound.updateJobs (fun _ => rfl) fun other hother hselected hsound => ?_
    have hsame : other = job := by
      apply sound.job_unique hother (mem_of_job? hjob).1
      rw [(mem_of_job? hjob).2]
      simpa [jobOf] using hselected
    subst hsame
    refine hsound.restage rfl rfl ?_ ?_
    · rw [resumeStageOf_eq_ok hstage]
      rfl
    · intro hwaiting
      cases hwaiting

/-- A waiting or parked job that is returned to work. -/
theorem JobSound.resume {rawFileIds : List Bytes} {job changed : PendingJob} {stage : Stage}
    (sound : JobSound J db rawFileIds job) (hkey : changed.executionKey = job.executionKey)
    (hrun : changed.taskRunId = job.taskRunId) (heffective : job.effectiveStage = some stage)
    (hstage : changed.stage = stage) : JobSound J db rawFileIds changed := by
  obtain ⟨found, hfound, hexecutable⟩ := sound.executable
  obtain rfl : found = stage := by simpa [heffective] using hfound.symm
  apply sound.restage hkey hrun
  · rw [effectiveStage_of_executable hstage hexecutable, heffective]
  · intro hwaiting
    rw [← hstage, hwaiting] at hexecutable
    cases hexecutable

/-- Returning a waiting job to its stage keeps the queue sound. -/
theorem QueueSound.resumeDelivery (sound : QueueSound J returned db) {type : RequestType}
    {idempotencyKey : Bytes} (h : resumeDelivery type idempotencyKey db = .ok after) :
    QueueSound J returned after := by
  unfold Agent.resumeDelivery at h
  split at h
  · cases h
  · dsimp only at h
    split at h
    · cases h
    · cases h
      refine sound.updateJobs (fun _ => rfl) fun job _ hselected hsound => ?_
      have hstage := List.mem_singleton.mp (jobIn_iff.mp hselected).2
      have heffective : job.effectiveStage = job.retryStage := by
        rw [PendingJob.effectiveStage, hstage]
        rfl
      obtain ⟨stage, hfound, -⟩ := hsound.executable
      refine hsound.resume rfl rfl hfound ?_
      rw [resumed, ← heffective, hfound]
      rfl

/-- Returning a parked job to its stage keeps the queue sound. -/
theorem QueueSound.retryAttentionJob (sound : QueueSound J returned db) {status : QueueRetryStatus}
    (h : retryAttentionJob key db = .ok (status, after)) : QueueSound J returned after := by
  unfold Agent.retryAttentionJob at h
  split at h
  · exact absurd h throw_ne_ok
  · rename_i job hjob
    split at h
    · rename_i hparked
      rw [bind_eq_ok] at h
      obtain ⟨stage, hstage, h⟩ := h
      rw [pure_eq_ok] at h
      cases h
      have hreturned : QueueSound J returned (db.updateJobs (jobIn key [.requiresAttention])
          fun job => job.unparked stage) := by
        refine sound.updateJobs (fun _ => rfl) fun other hother hselected hsound => ?_
        have hsame : other = job := by
          apply sound.job_unique hother (mem_of_job? hjob).1
          rw [(mem_of_job? hjob).2]
          exact (jobIn_iff.mp hselected).1
        subst hsame
        have heffective : other.effectiveStage = other.retryStage := by
          rw [PendingJob.effectiveStage, hparked]
          rfl
        obtain ⟨found, hfound, hexecutable⟩ := hsound.executable
        refine hsound.resume rfl rfl hfound ?_
        rw [attentionStage, ← heffective, hfound] at hstage
        simpa [PendingJob.unparked, hexecutable, eq_comm] using hstage
      apply hreturned.updateDeliveries
      · exact fun _ => rfl
      · exact fun _ => rfl
      · exact fun _ => rfl
      · exact fun _ => ⟨rfl, Nat.le_refl _⟩
    · rw [pure_eq_ok] at h
      cases h
      exact sound

end LabBridge.Agent
