import LabBridge.Agent.FittingSteps

/-!
# What the queue refuses

An operation that does not fit raises an exception of the queue, and no part of a run swallows
one: a run that raises none has only written what fits.
-/

namespace LabBridge.Agent

open ByteText JsonText Fallible Interaction Interaction.Program LabBridge.Core

variable {J : Nlohmann} {store : AgentQueueStore} {executor : TaskExecutor}
  {client : ReliableDeliveryClient} {db : QueueDatabase} {key : Bytes}

/-! ## Operations -/

/-- A computation raises what its first part raises. -/
theorem NoQueueError.first {α β : Type} {first : Except AgentError α}
    {rest : α → Except AgentError β} (h : NoQueueError (first >>= rest)) : NoQueueError first := by
  cases first with
  | error error => exact error_iff.mpr (error_iff.mp h)
  | ok value => exact .ok value

/-- A refusal of the queue is an exception of the queue. -/
theorem not_noQueueError_queue {α : Type} {message : Bytes} :
    ¬NoQueueError (.error (.queue message) : Except AgentError α) := by
  intro h
  exact h message rfl

/-- A check of the queue was passed where no exception of the queue is raised. -/
theorem NoQueueError.passed {α β : Type} {refused : Prop} [Decidable refused] {message : Bytes}
    {rest : β → Except AgentError α} {next : Except AgentError α}
    (h : NoQueueError (if refused then throw (.queue message) >>= rest else next)) :
    ¬refused ∧ NoQueueError next := by
  by_cases hrefused : refused
  · rw [if_pos hrefused] at h
    exact absurd h not_noQueueError_queue
  · rw [if_neg hrefused] at h
    exact ⟨hrefused, h⟩

/-- Rows that are inserted can stand beside each other and beside those of the job. -/
theorem insertable_of_insertFiles {files : List PendingFilePlan}
    (h : NoQueueError (files.foldlM (fun db file => db.insertFile (file.row key)) db)) :
    Insertable files ∧ ∀ file ∈ files, ∀ other ∈ db.filesOf key,
      other.ordinal ≠ file.ordinal ∧ other.fingerprint ≠ file.fingerprint := by
  induction files generalizing db with
  | nil => exact ⟨⟨by simp, List.Pairwise.nil⟩, by simp⟩
  | cons file rest ih =>
    rw [List.foldlM_cons] at h
    cases hinsert : db.insertFile (file.row key) with
    | error error =>
      rw [hinsert] at h
      unfold QueueDatabase.insertFile at hinsert
      split at hinsert
      · cases hinsert
        exact absurd h not_noQueueError_queue
      · cases hinsert
    | ok next =>
      rw [hinsert] at h
      obtain ⟨⟨hsizes, hapart⟩, hbeside⟩ := ih h
      obtain ⟨hfree, rfl⟩ := insertFile_eq_ok.mp hinsert
      rw [not_or, not_or, List.any_eq_true, not_exists] at hfree
      have hstands : ∀ other ∈ db.filesOf key ++ [file.row key], other ∈
          QueueDatabase.filesOf { db with files := db.files ++ [file.row key] } key := by
        intro other hother
        unfold QueueDatabase.filesOf
        rw [List.filter_append, List.mem_append]
        rcases List.mem_append.mp hother with hold | hadded
        · exact .inl hold
        · rw [List.mem_singleton.mp hadded]
          exact .inr (List.mem_filter.mpr ⟨List.mem_singleton_self _, beq_self_eq_true _⟩)
      refine ⟨⟨?_, ?_⟩, ?_⟩
      · exact List.forall_mem_cons.mpr ⟨not_lt.mp hfree.2.1, hsizes⟩
      · refine List.pairwise_cons.mpr ⟨?_, hapart⟩
        intro later hlater
        exact hbeside later hlater (file.row key)
          (hstands _ (List.mem_append_right _ (List.mem_singleton_self _)))
      · intro later hlater other hother
        rcases List.mem_cons.mp hlater with rfl | hrest
        · have hapart := hfree.2.2 other
          rw [not_and, Bool.or_eq_true, beq_iff_eq, beq_iff_eq, not_or] at hapart
          exact hapart hother
        · exact hbeside later hrest other (hstands _ (List.mem_append_left _ hother))

/-- A request that is added was not there. -/
theorem untaken_of_insertDelivery {delivery : PendingDelivery} {operation : String}
    (h : NoQueueError (db.insertDelivery delivery operation)) :
    Untaken db delivery.executionKey delivery.requestType delivery.idempotencyKey := by
  unfold QueueDatabase.insertDelivery at h
  split at h
  · exact absurd h not_noQueueError_queue
  · rename_i hfree
    rw [not_or, not_or, Option.not_isSome_iff_eq_none, Option.not_isSome_iff_eq_none] at hfree
    exact hfree.2

/-- Files that get their identifiers were each found under the path. -/
theorem countP_of_mapRawFileIds {mapped : List (RawFileManifestEntry × Bytes)}
    (h : NoQueueError (mapped.foldlM (mapRawFileId key) db)) :
    ∀ pair ∈ mapped, db.files.countP (fileUnder key pair.1.storagePath) = 1 := by
  induction mapped generalizing db with
  | nil => simp
  | cons first rest ih =>
    rw [List.foldlM_cons] at h
    cases hfirst : mapRawFileId key db first with
    | error error =>
      rw [hfirst] at h
      unfold mapRawFileId QueueDatabase.updateFile at hfirst
      split at hfirst
      · cases hfirst
      · cases hfirst
        exact absurd h not_noQueueError_queue
    | ok next =>
      rw [hfirst] at h
      obtain ⟨hcount, hnext⟩ := updateFile_eq_ok.mp hfirst
      have hedits : Edits db next := edits_updateFile hfirst fun _ => rfl
      refine List.forall_mem_cons.mpr ⟨hcount, ?_⟩
      intro pair hpair
      rw [← hedits.countP_fileUnder]
      exact ih h pair hpair

/-- An operation that raises no exception of the queue fits. -/
theorem fits_of_noQueueError {operation : QueueOperation}
    (h : NoQueueError (operation.run J store db)) : operation.Fits J db := by
  cases operation with
  | saveFilePlan key files failures =>
    intro stored hstored
    simp only [QueueOperation.run, saveFilePlan, hstored] at h
    exact (insertable_of_insertFiles (NoQueueError.first h)).1
  | saveManifest key request =>
    intro stored hstored
    simp only [QueueOperation.run, saveManifest, hstored] at h
    exact untaken_of_insertDelivery (NoQueueError.first h)
  | acceptManifest key rawFileIds =>
    intro delivery hdelivery manifest hmanifest
    simp only [QueueOperation.run, acceptManifest, hdelivery, hmanifest] at h
    obtain ⟨hlength, hmapped⟩ := NoQueueError.passed h
    rw [not_not] at hlength
    refine ⟨hlength, ?_⟩
    intro entry hentry
    rw [← List.map_fst_zip hlength.le] at hentry
    obtain ⟨pair, hpair, rfl⟩ := List.mem_map.mp hentry
    exact countP_of_mapRawFileIds (NoQueueError.first hmapped) pair hpair
  | saveReport key request outcomes =>
    intro stored hstored
    simp only [QueueOperation.run, saveReport, hstored] at h
    exact untaken_of_insertDelivery (NoQueueError.first (NoQueueError.passed h).2)
  | discardStartPendingJob key =>
    simp only [QueueOperation.run, discardStartPendingJob] at h
    split at h
    · exact absurd h not_noQueueError_queue
    · rename_i hlength
      exact List.eq_nil_of_length_eq_zero (not_not.mp hlength)
  | _ => trivial

/-! ## Candid parts -/

/-- What a call writes fits. -/
def QueueCall.Unrefused (J : Nlohmann) {β : Type} (call : QueueCall β) (db : QueueDatabase) :
    Prop :=
  ∀ operation, call.operation? = some operation → operation.Fits J db

/-- A part of a run is candid: when it ends without an exception of the queue, everything it has
written fits. -/
def Candid (J : Nlohmann) (store : AgentQueueStore) (executor : TaskExecutor)
    (client : ReliableDeliveryClient) {α : Type} (program : JobProgram α) : Prop :=
  ∀ db, NoQueueError (program.run (queueHandler J store executor client) db).1 →
    program.Meets (queueHandler J store executor client)
      (fun _ call state => call.Unrefused J state) (fun _ _ => True) db

variable {α β : Type}

/-- A value is candid. -/
theorem candid_ret (value : α) : Candid J store executor client (.ret value) :=
  fun _ _ => trivial

/-- Stopping is candid. -/
theorem candid_stop (error : AgentError) :
    Candid J store executor client (.stop error : JobProgram α) := fun _ _ => trivial

/-- Raising what a computation raises is candid. -/
theorem candid_raised (result : Except AgentError α) :
    Candid J store executor client (raised result) := by
  cases result with
  | error error => exact candid_stop error
  | ok value => exact candid_ret value

/-- A sequence of candid parts is candid. -/
theorem Candid.bind {program : JobProgram α} {next : α → JobProgram β}
    (h : Candid J store executor client program)
    (hnext : ∀ value, Candid J store executor client (next value)) :
    Candid J store executor client (program >>= next) := by
  intro db hquiet
  rw [run_bind] at hquiet
  have hfirst : NoQueueError (program.run (queueHandler J store executor client) db).1 := by
    rcases hrun : program.run (queueHandler J store executor client) db with
      ⟨value | value, reached⟩
    · rw [hrun] at hquiet
      exact NoQueueError.error_iff.mpr (NoQueueError.error_iff.mp hquiet)
    · exact .ok value
  apply Meets.bind (h db hfirst).ends
  · intro value reached hrun
    rw [hrun] at hquiet
    exact hnext value reached hquiet
  · exact fun _ _ _ => trivial

/-- The value of a candid part may be wrapped. -/
theorem Candid.map {program : JobProgram α} {wrap : α → β}
    (h : Candid J store executor client program) :
    Candid J store executor client (wrap <$> program) := h.bind fun _ => candid_ret _

/-- A rescue that lets the exceptions of the queue pass is candid. -/
theorem Candid.rescue {program : JobProgram α} {instead : AgentError → JobProgram α}
    (h : Candid J store executor client program)
    (hinstead : ∀ error, Candid J store executor client (instead error))
    (hpasses : ∀ message, instead (.queue message) = .stop (.queue message)) :
    Candid J store executor client (program.rescue instead) := by
  intro db hquiet
  have hanswered : ∀ (γ : Type) (call : QueueCall γ) (state : QueueDatabase), ∃ answer reached,
      queueHandler J store executor client _ call state = (.ok answer, reached) :=
    fun _ call state => ⟨_, _, rfl⟩
  have hstood : ∀ error reached,
      program.run (queueHandler J store executor client) db = (.error error, reached) →
      NoQueueError ((instead error).run (queueHandler J store executor client) reached).1 := by
    intro error reached hrun
    rw [run_rescue_of_error hanswered hrun] at hquiet
    exact hquiet
  have hfirst : NoQueueError (program.run (queueHandler J store executor client) db).1 := by
    rcases hrun : program.run (queueHandler J store executor client) db with
      ⟨error | value, reached⟩
    · intro message heq
      cases heq
      have hraised := hstood _ _ hrun
      rw [hpasses] at hraised
      exact not_noQueueError_queue hraised
    · exact .ok value
  apply Meets.rescue hanswered (h db hfirst).ends
  · exact fun _ _ _ => trivial
  · exact fun error reached hrun => hinstead error reached (hstood error reached hrun)

/-- A call whose answer is an exception of the queue or a write that fits. -/
theorem candid_must {call : QueueCall (Except AgentError α)}
    (h : ∀ db, NoQueueError (answerCall J store executor client call db).1 →
      call.Unrefused J db) : Candid J store executor client (must call) := by
  intro db hquiet
  have hrun : ((must call).run (queueHandler J store executor client) db).1 =
      (answerCall J store executor client call db).1 := by
    unfold must
    rw [perform_bind, run_call_ok _ rfl]
    cases (answerCall J store executor client call db).1 <;> rfl
  rw [hrun] at hquiet
  apply meets_call_ok rfl (h db hquiet)
  cases (answerCall J store executor client call db).1 <;> trivial

/-- A call that does not write. -/
theorem candid_read {call : QueueCall (Except AgentError α)} (hcall : call.operation? = none) :
    Candid J store executor client (must call) := by
  apply candid_must
  intro db _ operation hoperation
  rw [hcall] at hoperation
  cases hoperation

/-- An operation. -/
theorem candid_write (operation : QueueOperation) :
    Candid J store executor client (must (.write operation)) := by
  apply candid_must
  intro db hquiet other hother
  cases hother
  apply fits_of_noQueueError
  simp only [answerCall] at hquiet
  cases hrun : operation.run J store db with
  | error error =>
    rw [hrun] at hquiet
    exact NoQueueError.error_iff.mpr (NoQueueError.error_iff.mp hquiet)
  | ok next => exact .ok next

/-! ## Stages -/

variable {around : Surroundings} {job : RecoveredJob}

/-- A job is loaded behind an operation. -/
theorem candid_writeLoad (operation : QueueOperation) (name : Bytes) :
    Candid J store executor client (do
      must (.write operation)
      must (.loadJob name)) :=
  (candid_write operation).bind fun _ => candid_read rfl

/-- The planning of a job. -/
theorem candid_planStage : Candid J store executor client (planStage around job) := by
  unfold planStage
  split
  · apply (candid_read rfl).bind
    exact fun chosen => candid_writeLoad _ _
  · exact candid_ret job

/-- The completion of the failures of a job. -/
theorem candid_amendStage : Candid J store executor client (amendStage job) := by
  unfold amendStage
  split
  · exact candid_ret job
  · exact candid_writeLoad _ _

/-- The archiving of the files of a plan. -/
theorem candid_archiveFiles {files : List PendingFilePlan} {archived : ArchivedFiles} :
    Candid J store executor client (archiveFiles around job files archived) := by
  induction files generalizing archived with
  | nil => exact candid_ret archived
  | cons file rest ih =>
    unfold archiveFiles
    split
    · exact ih
    split
    · exact candid_stop _
    split
    · exact (candid_write _).bind fun _ => ih
    · exact candid_stop _
    · exact (candid_write _).bind fun _ => ih

/-- The manifest of what was archived. -/
theorem candid_manifestStage {archived : ArchivedFiles} :
    Candid J store executor client (manifestStage job archived) := by
  unfold manifestStage
  split
  · exact candid_writeLoad _ _
  split
  · exact candid_read rfl
  · exact candid_ret job

/-- A collection is candid. -/
theorem candid_runCollectingStage :
    Candid J store executor client (runCollectingStage around job) := by
  unfold runCollectingStage
  apply candid_planStage.bind
  intro planned
  apply candid_amendStage.bind
  intro amended
  apply candid_archiveFiles.bind
  exact fun archived => candid_manifestStage

/-- The report of a failed collection. -/
theorem candid_saveCollectionFailureReport {error : Bytes} :
    Candid J store executor client (saveCollectionFailureReport around job error) := by
  unfold saveCollectionFailureReport
  apply (candid_read rfl).bind
  exact fun current => candid_writeLoad _ _

/-- A collection that has failed. -/
theorem candid_collectionFailed (error : AgentError) :
    Candid J store executor client (collectionFailed around job error) := by
  unfold collectionFailed
  split
  · exact (candid_write _).bind fun _ => candid_ret none
  · exact candid_stop _
  · exact candid_saveCollectionFailureReport.map

/-- The collection of a job, which lets the exceptions of the queue pass. -/
theorem candid_collectStage : Candid J store executor client (collectStage around job) := by
  unfold collectStage
  split
  · exact candid_runCollectingStage.map.rescue candid_collectionFailed fun _ => rfl
  · exact candid_ret (some job)

/-- The start of a job. -/
theorem candid_startStage : Candid J store executor client (startStage around job) := by
  unfold startStage
  split
  · apply (candid_read rfl).bind
    intro started
    split
    · exact (candid_write _).bind fun _ => candid_ret none
    split
    · exact candid_stop _
    · exact (candid_write _).bind fun _ => (candid_read rfl).map
  · exact candid_ret (some job)

/-- The delivery of a manifest. -/
theorem candid_deliverManifestStage :
    Candid J store executor client (deliverManifestStage around job) := by
  unfold deliverManifestStage
  split
  · apply (candid_read rfl).bind
    exact fun rawFileIds => candid_writeLoad _ _
  · exact candid_ret job

/-- The report of a job. -/
theorem candid_reportStage : Candid J store executor client (reportStage around J job) := by
  unfold reportStage
  split
  · apply (candid_raised _).bind
    exact fun draft => candid_writeLoad _ _
  · exact candid_ret job

/-- The delivery of a report. -/
theorem candid_deliverReportStage :
    Candid J store executor client (deliverReportStage around job) := by
  unfold deliverReportStage
  split
  · exact (candid_read rfl).bind fun _ => candid_write _
  · exact candid_ret ()

/-- The run of a job is candid. -/
theorem candid_runReliableJob : Candid J store executor client (runReliableJob around J job) := by
  unfold runReliableJob
  apply candid_startStage.bind
  intro started
  cases started with
  | none => exact candid_ret ()
  | some started =>
    apply candid_collectStage.bind
    intro collected
    cases collected with
    | none => exact candid_ret ()
    | some collected =>
      apply candid_deliverManifestStage.bind
      intro accepted
      apply candid_reportStage.bind
      exact fun reported => candid_deliverReportStage

end LabBridge.Agent
