import LabBridge.Agent.PlanRows
import LabBridge.Agent.ReliableDelivery

/-!
# What leaves a plan alone

An operation changes the plan of one job only, and a delivery the plan of none: whatever it
records about its failures, the files of every job stay as they are.
-/

namespace LabBridge.Agent

open ByteText JsonText Fallible LabBridge.Core

variable {J : Nlohmann} {store : AgentQueueStore} {db before middle after next : QueueDatabase}
  {key : Bytes}

/-! ## Other jobs -/

/-- The job whose rows an operation changes. -/
def QueueOperation.executionKey? : QueueOperation → Option Bytes
  | .beginJob _ request _ _ => some request.executionKey
  | .saveFilePlan key _ _ | .saveFileFailures key _ | .markFileFailed key _ _ _
  | .acceptStart key _ | .markFileArchived key _ | .saveManifest key _ | .acceptManifest key _
  | .saveReport key _ _ | .completeJob key _ | .discardStartPendingJob key
  | .markRequiresAttention key _ | .retryAttentionJob key => some key
  | .recordDeliveryFailure .. | .resumeDelivery .. => none

/-- A statement on the files of one job leaves those of another as they are. -/
theorem filesOf_updateFiles_of_ne {selects : PendingFile → Bool}
    {change : PendingFile → PendingFile} {other : Bytes} (hkey : other ≠ key)
    (hselects : ∀ file, selects file = true → file.executionKey = key)
    (hsame : ∀ file, (change file).executionKey = file.executionKey) :
    (db.updateFiles selects change).filesOf other = db.filesOf other := by
  have howner : ∀ file, (if selects file = true then change file else file).executionKey =
      file.executionKey := by
    intro file
    split
    · exact hsame file
    · rfl
  have hfilter : ((fun file : PendingFile => file.executionKey == other) ∘ fun file =>
      if selects file = true then change file else file) =
        fun file => file.executionKey == other := by
    funext file
    rw [Function.comp_apply, howner]
  unfold QueueDatabase.updateFiles QueueDatabase.filesOf
  dsimp only
  rw [List.filter_map, hfilter]
  conv_rhs => rw [← List.map_id (db.files.filter _)]
  apply List.map_congr_left
  intro file hfile
  have hown : file.executionKey = other := beq_iff_eq.mp (List.mem_filter.mp hfile).2
  rw [if_neg]
  · rfl
  · intro hselected
    exact hkey (hown.symm.trans (hselects file hselected))

/-- A change of one file leaves the files of other keys alone. -/
theorem filesOf_updateFile_of_ne {selects : PendingFile → Bool}
    {change : PendingFile → PendingFile} {refusal : AgentError} {other : Bytes}
    (h : db.updateFile selects change refusal = .ok next) (hkey : other ≠ key)
    (hselects : ∀ file, selects file = true → file.executionKey = key)
    (hsame : ∀ file, (change file).executionKey = file.executionKey) :
    next.filesOf other = db.filesOf other := by
  obtain ⟨-, rfl⟩ := updateFile_eq_ok.mp h
  exact filesOf_updateFiles_of_ne hkey hselects hsame

/-- A file that is selected by its place belongs to the key. -/
theorem executionKey_of_fileAt {ordinal : ℤ} {file : PendingFile}
    (h : fileAt key ordinal file = true) : file.executionKey = key :=
  beq_iff_eq.mp (Bool.and_eq_true_iff.mp h).1

/-- A file that is selected by its archive path belongs to the key. -/
theorem executionKey_of_fileUnder {path : Bytes} {file : PendingFile}
    (h : fileUnder key path file = true) : file.executionKey = key :=
  beq_iff_eq.mp (Bool.and_eq_true_iff.mp h).1

/-- Deleting the job of one key leaves the files of others alone. -/
theorem filesOf_deleteJobs_of_ne {selects : PendingJob → Bool} {other : Bytes}
    (hkey : other ≠ key) (hselects : ∀ job, selects job = true → job.executionKey = key) :
    (db.deleteJobs selects).filesOf other = db.filesOf other := by
  rw [filesOf_deleteJobs, if_neg]
  rw [List.contains_iff_mem]
  intro hmem
  obtain ⟨job, hjob, hsame⟩ := List.mem_map.mp hmem
  exact hkey (hsame.symm.trans (hselects job (List.mem_filter.mp hjob).2))

/-- An accepted manifest leaves the files of other keys alone. -/
theorem filesOf_acceptManifest_of_ne {rawFileIds : List Bytes} {other : Bytes}
    (h : acceptManifest J key rawFileIds db = .ok next) (hkey : other ≠ key) :
    next.filesOf other = db.filesOf other := by
  unfold acceptManifest at h
  split at h
  · cases h
  · simp only [bind_eq_ok] at h
    obtain ⟨manifest, -, h⟩ := h
    split at h
    · cases h
    · simp only [bind_eq_ok, pure_eq_ok] at h
      obtain ⟨mapped, hmapped, rfl⟩ := h
      have hstep : ∀ {state : QueueDatabase} {entry : RawFileManifestEntry × Bytes}
          {after : QueueDatabase}, state.filesOf other = db.filesOf other →
            mapRawFileId key state entry = .ok after → after.filesOf other = db.filesOf other := by
        intro state entry after hstate hstep
        unfold mapRawFileId at hstep
        rw [filesOf_updateFile_of_ne hstep hkey (fun _ => executionKey_of_fileUnder) fun _ => rfl]
        exact hstate
      have hkept : mapped.filesOf other = db.filesOf other :=
        foldlM_keeps (fun hstate => hstep hstate) rfl hmapped
      exact hkept

/-- A saved report leaves the files of other keys alone. -/
theorem filesOf_saveReport_of_ne {request : TaskRunReportRequest} {outcomes : List Bool}
    {other : Bytes} (h : saveReport J key request outcomes db = .ok next) (hkey : other ≠ key) :
    next.filesOf other = db.filesOf other := by
  have hrecorded : ∀ (outcomes : List (Bool × ℕ)) (state : QueueDatabase),
      (outcomes.foldl (recordOutcome key) state).filesOf other = state.filesOf other := by
    intro outcomes
    induction outcomes with
    | nil => exact fun _ => rfl
    | cons outcome rest ih =>
      intro state
      rw [List.foldl_cons, ih]
      exact filesOf_updateFiles_of_ne hkey (fun _ => executionKey_of_fileAt) fun _ => rfl
  obtain ⟨requestJson, inserted, -, -, hinserted, rfl⟩ := saveReport_eq_ok.mp h
  change (List.foldl (recordOutcome key) inserted outcomes.zipIdx).filesOf other = _
  rw [hrecorded, (leavesFiles_insertDelivery hinserted).filesOf]

/-- Queueing a job leaves all files alone. -/
theorem files_beginJob {task : TaskConfig} {request : StartTaskRunRequest}
    {retryFiles : List RetryFileInput} {now : Bytes} {answer : Bool}
    (h : beginJob J store task request retryFiles now db = .ok (answer, next)) :
    next.files = db.files := by
  simp only [beginJob, bind_eq_ok, check_eq_ok] at h
  obtain ⟨-, taskJson, -, requestJson, -, retryFilesJson, -, h⟩ := h
  split at h
  · split at h
    · cases h
      rfl
    · cases h
  · simp only [bind_eq_ok, check_eq_ok, pure_eq_ok] at h
    obtain ⟨-, inserted, hinserted, started, hstarted, h⟩ := h
    cases h
    rw [(leavesFiles_insertDelivery hstarted).files]
    unfold QueueDatabase.insertJob at hinserted
    split at hinserted
    · cases hinserted
    · cases hinserted
      rfl

/-- An operation leaves the plans of all other jobs as they are. -/
theorem filesOf_run_of_ne {operation : QueueOperation} {other : Bytes}
    (h : operation.run J store db = .ok next)
    (hkey : ∀ key, operation.executionKey? = some key → other ≠ key) :
    next.filesOf other = db.filesOf other := by
  cases operation with
  | beginJob task request retryFiles now =>
    simp only [QueueOperation.run, map_eq_ok] at h
    obtain ⟨⟨answer, begun⟩, hbegun, rfl⟩ := h
    rw [QueueDatabase.filesOf, files_beginJob hbegun]
    rfl
  | saveFilePlan key files failures => exact filesOf_saveFilePlan_of_ne h (hkey key rfl)
  | saveFileFailures key failures => exact (leavesFiles_saveFileFailures h).filesOf other
  | markFileFailed key ordinal errorDetail failures =>
    simp only [QueueOperation.run, markFileFailed, bind_eq_ok] at h
    obtain ⟨failuresJson, -, marked, hmarked, h⟩ := h
    have hlisted : LeavesFiles marked next := leavesFiles_updateJob h fun _ => rfl
    rw [hlisted.filesOf]
    exact filesOf_updateFile_of_ne hmarked (hkey key rfl) (fun _ => executionKey_of_fileAt)
      fun _ => rfl
  | acceptStart key taskRunId =>
    have haccepted : LeavesFiles db next := leavesFiles_updateJob h fun _ => rfl
    exact haccepted.filesOf other
  | markFileArchived key ordinal =>
    exact filesOf_updateFile_of_ne h (hkey key rfl) (fun _ => executionKey_of_fileAt) fun _ => rfl
  | saveManifest key request => exact (leavesFiles_saveManifest h).filesOf other
  | acceptManifest key rawFileIds => exact filesOf_acceptManifest_of_ne h (hkey key rfl)
  | saveReport key request outcomes => exact filesOf_saveReport_of_ne h (hkey key rfl)
  | completeJob key now =>
    simp only [QueueOperation.run, completeJob] at h
    split at h
    · cases h
      exact filesOf_deleteJobs_of_ne (hkey key rfl) fun _ hjob => (jobIn_iff.mp hjob).1
    · cases h
  | discardStartPendingJob key =>
    simp only [QueueOperation.run, discardStartPendingJob] at h
    split at h
    · cases h
    · split at h
      · cases h
        exact filesOf_deleteJobs_of_ne (hkey key rfl) fun _ hjob => (jobIn_iff.mp hjob).1
      · cases h
  | markRequiresAttention key errorKind => exact (leavesFiles_markRequiresAttention h).filesOf other
  | recordDeliveryFailure type idempotencyKey retryable errorKind retryDelay now =>
    exact (leavesFiles_recordDeliveryFailure h).filesOf other
  | resumeDelivery type idempotencyKey => exact (leavesFiles_resumeDelivery h).filesOf other
  | retryAttentionJob key =>
    simp only [QueueOperation.run, map_eq_ok] at h
    obtain ⟨⟨status, retried⟩, h, rfl⟩ := h
    exact (leavesFiles_retryAttentionJob h).filesOf other

/-! ## Deliveries -/

section Deliveries

variable {α : Type} {client : ReliableDeliveryClient} {type : RequestType}
  {name body : Bytes} {holds : QueueDatabase → Prop}

/-- What the failures and the resumptions of a delivery keep holds after its turns. -/
theorem deliverLoop_keeps
    (hrecord : ∀ {retryable errorKind retryDelay now db next}, holds db →
      recordDeliveryFailure type name retryable errorKind retryDelay now db = .ok next → holds next)
    (hresume : ∀ {db next}, holds db → resumeDelivery type name db = .ok next → holds next)
    {turns : List (DeliveryTurn α)} {attempts : ℕ} (h : holds db) :
    holds (client.deliverLoop type name attempts db turns).database := by
  induction turns generalizing attempts db with
  | nil => exact h
  | cons turn later ih =>
    rw [ReliableDeliveryClient.deliverLoop]
    split
    · exact h
    · dsimp only [Delivered.called]
      split
      · cases hrecorded : recordDeliveryFailure type name true _ 0 turn.now db with
        | error error => exact h
        | ok recorded => exact hrecord h hrecorded
      · cases hrecorded : recordDeliveryFailure type name _ _ _ turn.now db with
        | error error => exact h
        | ok recorded =>
          have hheld := hrecord h hrecorded
          dsimp only [Delivered.storing]
          split
          · exact hheld
          split
          · exact hheld
          cases hresumed : resumeDelivery type name recorded with
          | error error => exact hheld
          | ok resumed => exact ih (hresume hheld hresumed)

/-- What parking, failures and resumptions keep holds after a delivery. -/
theorem deliver_keeps
    (hpark : ∀ {key errorKind db next}, holds db →
      markRequiresAttention key errorKind db = .ok next → holds next)
    (hrecord : ∀ {retryable errorKind retryDelay now db next}, holds db →
      recordDeliveryFailure type name retryable errorKind retryDelay now db = .ok next → holds next)
    (hresume : ∀ {db next}, holds db → resumeDelivery type name db = .ok next → holds next)
    {tape : DeliveryTape α} (h : holds db) :
    holds (client.deliver type name body tape db).database := by
  unfold ReliableDeliveryClient.deliver
  split
  · unfold ReliableDeliveryClient.abandonOversizedBody
    cases deliveryExecutionKey type name db with
    | error error => exact h
    | ok key =>
      dsimp only [Delivered.storing]
      cases hparked : markRequiresAttention key (text "payload_too_large") db with
      | error error => exact h
      | ok parked => exact hpark h hparked
  · cases deliveryAttemptCount type name db with
    | error error => exact h
    | ok attempts =>
      dsimp only [Delivered.storing]
      split
      · cases deliveryRetryRemaining type name tape.now db with
        | error error => exact h
        | ok remaining =>
          dsimp only
          split
          · exact h
          cases hresumed : resumeDelivery type name db with
          | error error => exact h
          | ok resumed => exact deliverLoop_keeps hrecord hresume (hresume h hresumed)
      · exact deliverLoop_keeps hrecord hresume h

/-- A delivery edits the queue and leaves its files as they are. -/
theorem leavesFiles_deliver (tape : DeliveryTape α) :
    LeavesFiles db (client.deliver type name body tape db).database := by
  have hpark : ∀ {key errorKind middle next}, LeavesFiles db middle →
      markRequiresAttention key errorKind middle = .ok next → LeavesFiles db next :=
    fun h hparked => h.trans (leavesFiles_markRequiresAttention hparked)
  have hrecord : ∀ {retryable errorKind retryDelay now middle next}, LeavesFiles db middle →
      recordDeliveryFailure type name retryable errorKind retryDelay now middle = .ok next →
        LeavesFiles db next :=
    fun h hrecorded => h.trans (leavesFiles_recordDeliveryFailure hrecorded)
  have hresume : ∀ {middle next}, LeavesFiles db middle →
      resumeDelivery type name middle = .ok next → LeavesFiles db next :=
    fun h hresumed => h.trans (leavesFiles_resumeDelivery hresumed)
  exact deliver_keeps hpark hrecord hresume (LeavesFiles.refl db)

end Deliveries

end LabBridge.Agent
