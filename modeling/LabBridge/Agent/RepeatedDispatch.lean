import LabBridge.Agent.AlignedOutcomes
import LabBridge.Agent.RefusedSteps
import LabBridge.Agent.ResumedJobs

/-!
# A dispatch whose job is already queued

A manual execution finds its job in whatever stage and leaves it alone. A slot goes on to queue
its job again, to load it and to run it, so it needs the job that was queued: of the same
configuration, not parked, and with a run whose steps the queue takes.
-/

namespace LabBridge.Agent

open ByteText JsonText Fallible Interaction Interaction.Program LabBridge.Core

section Conditions

variable (J : Nlohmann) (store : AgentQueueStore) (executor : TaskExecutor)
  (client : ReliableDeliveryClient) (around : Surroundings) (db : QueueDatabase) (key : Bytes)

/-- A dispatch raises no exception of the queue, and it leaves the queue as it is or does what the
run of the queued job does with its persisted requests. -/
structure Harmless (ended : Except AgentError Unit × QueueDatabase) : Prop where
  noQueueError : NoQueueError ended.1
  resumes : ended.2 = db ∨ ∃ loaded, loadJob J db key = .ok loaded ∧
    ended = (runReliableJob around J loaded).run (queueHandler J store executor client) db

/-- The run of the queued job raises no exception of the queue. -/
def ResumesQuietly : Prop :=
  ∀ loaded, loadJob J db key = .ok loaded →
    NoQueueError ((runReliableJob around J loaded).run (queueHandler J store executor client) db).1

/-- Every step of the run of the queued job fits. -/
def ResumesFitting : Prop :=
  ∀ loaded, loadJob J db key = .ok loaded →
    (runReliableJob around J loaded).Meets (queueHandler J store executor client)
      (fun _ call state => call.Fits J key state) (fun _ _ => True) db

instance : Decidable (ResumesFitting J store executor client around db key) :=
  inferInstanceAs (Decidable (∀ loaded, loadJob J db key = .ok loaded → _))

/-- Everything that the run of the queued job writes fits. -/
def ResumesUnrefused : Prop :=
  ∀ loaded, loadJob J db key = .ok loaded →
    (runReliableJob around J loaded).Meets (queueHandler J store executor client)
      (fun _ call state => call.Unrefused J state) (fun _ _ => True) db

/-- The queued job is the one a slot would queue: of the node of the queue, the same task and
slot, the same persisted configuration; it is not parked, and its run goes on as it should. A slot
that does not print is not queued at all. -/
def QueuedAlike (execution : ScheduledTaskExecution) (now : SystemTime) (job : PendingJob)
    (resumes : Prop) : Prop :=
  execution.task.nodeCode = store.nodeCode ∧
    ∀ taskJson, encodeTaskConfig J execution.task = .ok taskJson → ∀ requestJson,
      encodeStartTaskRunRequest J (scheduledRequest execution now) = .ok requestJson →
      (readText job.taskId = execution.task.id ∧
        readText job.scheduledFor = timestamp execution.scheduledFor ∧
        readText job.taskConfigJson = taskJson) ∧ job.stage ≠ .requiresAttention ∧ resumes

instance (execution : ScheduledTaskExecution) (now : SystemTime) (job : PendingJob)
    (resumes : Prop) [Decidable resumes] :
    Decidable (QueuedAlike J store execution now job resumes) :=
  inferInstanceAs (Decidable (_ = _ ∧ ∀ taskJson, encodeTaskConfig J execution.task = .ok taskJson →
    ∀ requestJson, encodeStartTaskRunRequest J (scheduledRequest execution now) = .ok requestJson →
      (readText job.taskId = execution.task.id ∧
        readText job.scheduledFor = timestamp execution.scheduledFor ∧
        readText job.taskConfigJson = taskJson) ∧ job.stage ≠ .requiresAttention ∧ resumes))

/-- A dispatch meets its queued job: always as a manual execution; as a slot when it is left out,
or when the queued job is the one it would queue. -/
def Dispatch.MeetsQueued (stopRequested : Bool) (now : SystemTime) (job : PendingJob)
    (resumes : Prop) : Dispatch → Prop
  | .manual _ => True
  | .scheduled execution => stopRequested = true ∨ hasCapacity store db = false ∨
      QueuedAlike J store execution now job resumes

end Conditions

variable {J : Nlohmann} {store : AgentQueueStore} {executor : TaskExecutor}
  {client : ReliableDeliveryClient} {around : Surroundings} {db : QueueDatabase} {job : PendingJob}
  {key : Bytes}

/-- What leaves the queue as it is and raises no exception of the queue is harmless. -/
theorem harmless_idle {result : Except AgentError Unit} (h : NoQueueError result) :
    Harmless J store executor client around db key (result, db) := ⟨h, .inl rfl⟩

/-- An exception of the queue is not harmless. -/
theorem not_harmless_queue {message : Bytes} {reached : QueueDatabase} :
    ¬Harmless J store executor client around db key (.error (.queue message), reached) := by
  intro h
  exact h.noQueueError message rfl

/-- A dispatch that runs the queued job is harmless when the run is. -/
theorem harmless_run_iff {loaded : RecoveredJob} (hload : loadJob J db key = .ok loaded) :
    Harmless J store executor client around db key
        ((runReliableJob around J loaded).run (queueHandler J store executor client) db) ↔
      ResumesQuietly J store executor client around db key := by
  constructor
  · intro h other hother
    rw [hload, Except.ok.injEq] at hother
    rw [← hother]
    exact h.noQueueError
  · exact fun h => ⟨h loaded hload, .inr ⟨loaded, hload, rfl⟩⟩

/-- A manual execution whose job is queued leaves it alone. -/
theorem harmless_executePending {start : PendingDelivery} {execution : ManualTaskExecution}
    (hjob : db.job? execution.execution.executionKey = some job)
    (hstart : db.delivery? execution.execution.executionKey .start = some start)
    (hread : NoQueueError (readRecoveredJob J db job start)) (stopRequested : Bool)
    (now : SystemTime) (createdAt : Bytes) :
    Harmless J store executor client around db execution.execution.executionKey
      (((fun _ => ()) <$> executePending J around now createdAt stopRequested execution).run
        (queueHandler J store executor client) db) := by
  unfold executePending
  cases stopRequested with
  | true => exact harmless_idle (.ok ())
  | false =>
    have hfind : findJob J db execution.execution.executionKey =
        (readRecoveredJob J db job start).map some := by
      unfold findJob
      rw [hjob, hstart]
    rw [if_neg Bool.false_ne_true]
    cases hloaded : readRecoveredJob J db job start with
    | error error =>
      rw [hloaded] at hfind hread
      have hfound : answerCall J store executor client
          (.findJob execution.execution.executionKey) db = (.error error, db) := by
        simp only [answerCall, hfind]
        rfl
      change Harmless J store executor client around db _
        (((must _ >>= _) >>= fun _ => Program.ret ()).run _ _)
      rw [run_bind, run_must_error hfound]
      exact harmless_idle (NoQueueError.error_iff.mpr (NoQueueError.error_iff.mp hread))
    | ok recovered =>
      rw [hloaded] at hfind
      have hfound : answerCall J store executor client
          (.findJob execution.execution.executionKey) db = (.ok (some recovered), db) := by
        simp only [answerCall, hfind]
        rfl
      change Harmless J store executor client around db _
        (((must _ >>= _) >>= fun _ => Program.ret ()).run _ _)
      rw [run_bind, run_must hfound]
      exact harmless_idle (.ok ())

/-- Queueing a slot of another node, or of another configuration, raises an exception of the
queue; a slot that would be queued alike is found. -/
theorem beginJob_queued {execution : ScheduledTaskExecution} {now : SystemTime}
    {taskJson requestJson : Bytes}
    (hjob : db.job? (scheduledRequest execution now).executionKey = some job)
    (hnode : execution.task.nodeCode = store.nodeCode)
    (htask : encodeTaskConfig J execution.task = .ok taskJson)
    (hrequest : encodeStartTaskRunRequest J (scheduledRequest execution now) = .ok requestJson)
    (createdAt : Bytes) :
    beginJob J store execution.task (scheduledRequest execution now) [] createdAt db =
      if readText job.taskId = execution.task.id ∧
          readText job.scheduledFor = timestamp execution.scheduledFor ∧
          readText job.taskConfigJson = taskJson then .ok (false, db)
      else .error (queueError "execution key conflicts with persisted job") := by
  have hidentity : ¬((scheduledRequest execution now).nodeCode ≠ store.nodeCode ∨
      execution.task.nodeCode ≠ store.nodeCode ∨
      (scheduledRequest execution now).taskId ≠ execution.task.id) := by
    simp [scheduledRequest, hnode]
  unfold beginJob
  rw [if_neg hidentity, htask, hrequest, hjob]
  rfl

/-- A slot of another node is refused. -/
theorem beginJob_other_node {execution : ScheduledTaskExecution} {now : SystemTime}
    (hnode : execution.task.nodeCode ≠ store.nodeCode) (createdAt : Bytes) :
    beginJob J store execution.task (scheduledRequest execution now) [] createdAt db =
      .error (queueError "job identity does not match queue identity") := by
  unfold beginJob
  rw [if_pos (.inl hnode)]
  rfl

/-- A slot whose task or start does not print raises an exception of the JSON library. -/
theorem beginJob_unprintable (db : QueueDatabase) {execution : ScheduledTaskExecution}
    {now : SystemTime}
    (hnode : execution.task.nodeCode = store.nodeCode)
    (hprints : ¬∃ taskJson requestJson, encodeTaskConfig J execution.task = .ok taskJson ∧
      encodeStartTaskRunRequest J (scheduledRequest execution now) = .ok requestJson)
    (createdAt : Bytes) :
    ∃ error, (∀ message, error ≠ .queue message) ∧
      beginJob J store execution.task (scheduledRequest execution now) [] createdAt db =
        .error error := by
  have hidentity : ¬((scheduledRequest execution now).nodeCode ≠ store.nodeCode ∨
      execution.task.nodeCode ≠ store.nodeCode ∨
      (scheduledRequest execution now).taskId ≠ execution.task.id) := by
    simp [scheduledRequest, hnode]
  unfold beginJob
  rw [if_neg hidentity]
  cases htask : encodeTaskConfig J execution.task with
  | error error =>
    refine ⟨error, ?_, rfl⟩
    have hquiet : NoQueueError (encodeTaskConfig J execution.task) := noQueueError_dumped _
    rw [htask] at hquiet
    exact NoQueueError.error_iff.mp hquiet
  | ok taskJson =>
    cases hrequest : encodeStartTaskRunRequest J (scheduledRequest execution now) with
    | error error =>
      refine ⟨error, ?_, rfl⟩
      have hquiet : NoQueueError
          (encodeStartTaskRunRequest J (scheduledRequest execution now)) := noQueueError_dumped _
      rw [hrequest] at hquiet
      exact NoQueueError.error_iff.mp hquiet
    | ok requestJson => exact absurd ⟨taskJson, requestJson, htask, hrequest⟩ hprints

/-- A slot that prints is harmless exactly when the queued job is the one it would queue, is not
parked, and its run raises no exception of the queue. -/
theorem harmless_beginAndRun_iff {start : PendingDelivery} {execution : ScheduledTaskExecution}
    {now : SystemTime} {taskJson requestJson : Bytes}
    (hjob : db.job? (scheduledRequest execution now).executionKey = some job)
    (hstart : db.delivery? (scheduledRequest execution now).executionKey .start = some start)
    (hread : NoQueueError (readRecoveredJob J db job start))
    (hnode : execution.task.nodeCode = store.nodeCode)
    (htask : encodeTaskConfig J execution.task = .ok taskJson)
    (hrequest : encodeStartTaskRunRequest J (scheduledRequest execution now) = .ok requestJson)
    (createdAt : Bytes) :
    Harmless J store executor client around db (scheduledRequest execution now).executionKey
        ((beginAndRun J around createdAt execution.task (scheduledRequest execution now) []).run
          (queueHandler J store executor client) db) ↔
      (readText job.taskId = execution.task.id ∧
        readText job.scheduledFor = timestamp execution.scheduledFor ∧
        readText job.taskConfigJson = taskJson) ∧ job.stage ≠ .requiresAttention ∧
          ResumesQuietly J store executor client around db
            (scheduledRequest execution now).executionKey := by
  have hbegin := beginJob_queued hjob hnode htask hrequest createdAt
  by_cases hsame : readText job.taskId = execution.task.id ∧
      readText job.scheduledFor = timestamp execution.scheduledFor ∧
      readText job.taskConfigJson = taskJson
  · have hload : loadJob J db (scheduledRequest execution now).executionKey =
        if job.stage = .requiresAttention then
          .error (.queue (text "pending job does not exist: " ++
            (scheduledRequest execution now).executionKey))
        else readRecoveredJob J db job start := by
      unfold loadJob
      rw [hjob, hstart]
    rw [if_pos hsame] at hbegin
    rw [and_iff_right hsame]
    by_cases hparked : job.stage = .requiresAttention
    · rw [if_pos hparked] at hload
      rw [run_beginAndRun_unloaded hbegin hload]
      exact iff_of_false not_harmless_queue fun h => h.1 hparked
    · rw [if_neg hparked] at hload
      rw [and_iff_right hparked]
      cases hloaded : readRecoveredJob J db job start with
      | error error =>
        rw [hloaded] at hload hread
        rw [run_beginAndRun_unloaded hbegin hload]
        refine iff_of_true (harmless_idle (NoQueueError.error_iff.mpr
          (NoQueueError.error_iff.mp hread))) ?_
        intro loaded hother
        rw [hload] at hother
        cases hother
      | ok recovered =>
        rw [hloaded] at hload
        rw [run_beginAndRun hbegin hload]
        exact harmless_run_iff hload
  · rw [if_neg hsame] at hbegin
    rw [run_beginAndRun_refused hbegin]
    exact iff_of_false not_harmless_queue fun h => hsame h.1

/-- A slot whose job is queued is harmless exactly when it is left out, or when the queued job is
the one it would queue and its run raises no exception of the queue. -/
theorem harmless_execute_iff {start : PendingDelivery} {execution : ScheduledTaskExecution}
    {now : SystemTime} (hjob : db.job? (scheduledRequest execution now).executionKey = some job)
    (hstart : db.delivery? (scheduledRequest execution now).executionKey .start = some start)
    (hread : NoQueueError (readRecoveredJob J db job start)) (stopRequested : Bool)
    (createdAt : Bytes) :
    Harmless J store executor client around db (scheduledRequest execution now).executionKey
        ((execute J around now createdAt stopRequested execution).run
          (queueHandler J store executor client) db) ↔
      (stopRequested = true ∨ hasCapacity store db = false ∨ QueuedAlike J store execution now job
        (ResumesQuietly J store executor client around db
          (scheduledRequest execution now).executionKey)) := by
  by_cases hstopped : stopRequested = true
  · unfold execute
    rw [if_pos hstopped]
    exact iff_of_true (harmless_idle (.ok ())) (.inl hstopped)
  by_cases hfull : hasCapacity store db = false
  · rw [run_execute_full hstopped hfull]
    exact iff_of_true (harmless_idle (.ok ())) (.inr (.inl hfull))
  rw [run_execute_begins hstopped hfull, or_iff_right hstopped, or_iff_right hfull]
  by_cases hnode : execution.task.nodeCode = store.nodeCode
  · by_cases hprints : ∃ taskJson requestJson, encodeTaskConfig J execution.task = .ok taskJson ∧
        encodeStartTaskRunRequest J (scheduledRequest execution now) = .ok requestJson
    · obtain ⟨taskJson, requestJson, htask, hrequest⟩ := hprints
      have hcondition (resumes : Prop) : QueuedAlike J store execution now job resumes ↔
          (readText job.taskId = execution.task.id ∧
            readText job.scheduledFor = timestamp execution.scheduledFor ∧
            readText job.taskConfigJson = taskJson) ∧ job.stage ≠ .requiresAttention ∧
              resumes := by
        simp [QueuedAlike, hnode, htask, hrequest]
      rw [hcondition]
      exact harmless_beginAndRun_iff hjob hstart hread hnode htask hrequest createdAt
    · obtain ⟨error, herror, hbegin⟩ := beginJob_unprintable db hnode hprints createdAt
      rw [run_beginAndRun_refused hbegin]
      refine iff_of_true (harmless_idle (NoQueueError.error_iff.mpr herror)) ⟨hnode, ?_⟩
      intro taskJson htask requestJson hrequest
      exact absurd ⟨taskJson, requestJson, htask, hrequest⟩ hprints
  · rw [run_beginAndRun_refused (beginJob_other_node hnode createdAt)]
    exact iff_of_false not_harmless_queue fun h => hnode h.1

/-- A dispatch goes on to meet its queued job when less is asked of the run. -/
theorem Dispatch.MeetsQueued.mono {stopRequested : Bool} {now : SystemTime} {dispatch : Dispatch}
    {resumes weaker : Prop} (h : dispatch.MeetsQueued J store db stopRequested now job resumes)
    (hweaker : (∃ execution, dispatch = .scheduled execution) → resumes → weaker) :
    dispatch.MeetsQueued J store db stopRequested now job weaker := by
  cases dispatch with
  | manual execution => trivial
  | scheduled execution =>
    rcases h with hstopped | hfull | ⟨hnode, halike⟩
    · exact .inl hstopped
    · exact .inr (.inl hfull)
    · refine .inr (.inr ⟨hnode, ?_⟩)
      intro taskJson htask requestJson hrequest
      obtain ⟨hsame, hparked, hresumes⟩ := halike taskJson htask requestJson hrequest
      exact ⟨hsame, hparked, hweaker ⟨execution, rfl⟩ hresumes⟩

/-- The dispatch of a queued key is harmless exactly when it meets its job, and the run it resumes
raises no exception of the queue. -/
theorem harmless_dispatch_iff (executor : TaskExecutor) (client : ReliableDeliveryClient)
    (around : Surroundings) {history : QueueHistory} (reached : QueueReachable J store history)
    (hjob : job ∈ history.database.jobs) {dispatch : Dispatch}
    (hkey : job.executionKey = dispatch.key) (stopRequested : Bool) (now : SystemTime)
    (createdAt : Bytes) :
    Harmless J store executor client around history.database dispatch.key
        ((dispatch.program J around now createdAt stopRequested).run
          (queueHandler J store executor client) history.database) ↔
      dispatch.MeetsQueued J store history.database stopRequested now job
        (ResumesQuietly J store executor client around history.database dispatch.key) := by
  have sound := queueSound_of_reachable reached
  have hfound := sound.job?_of_mem hjob
  obtain ⟨start, hstart⟩ := (sound.jobs job hjob).start
  obtain ⟨failures, hfailures⟩ := (holdsFailures_of_reachable reached job hjob).decodes
  have hread : NoQueueError (readRecoveredJob J history.database job start) :=
    noQueueError_readRecoveredJob hfailures start
  rw [hkey] at hfound hstart
  cases dispatch with
  | manual execution =>
    exact iff_of_true (harmless_executePending hfound hstart hread stopRequested now createdAt)
      trivial
  | scheduled execution => exact harmless_execute_iff hfound hstart hread stopRequested createdAt

/-- A slot of the task at the epoch. -/
def epochSlot : ScheduledTaskExecution := ⟨dropTask, 0⟩

/-- One file was dropped, and every delivery is answered. -/
def slotSurroundings : Surroundings :=
  { dropSurroundings ⟨0, false, [⟨.ok [text "1"], 0, false⟩]⟩ with files := loneFile }

/-- The queue after the slot was dispatched, and the agent stopped before its start was sent. -/
def slotHistory : QueueHistory :=
  QueueHistory.after compactNlohmann dropStore {}
    (.beginJob dropTask (scheduledRequest epochSlot 0) [] (text "s"))

theorem reachable_slotHistory : QueueReachable compactNlohmann dropStore slotHistory :=
  .step _ .fresh trivial

/-- The queue after the job of the slot was parked. -/
def parkedSlotHistory : QueueHistory :=
  slotHistory.after compactNlohmann dropStore
    (.markRequiresAttention (scheduledRequest epochSlot 0).executionKey
      (text "payload_too_large"))

theorem reachable_parkedSlotHistory :
    QueueReachable compactNlohmann dropStore parkedSlotHistory :=
  .step _ reachable_slotHistory trivial

end LabBridge.Agent
