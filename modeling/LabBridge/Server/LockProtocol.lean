import LabBridge.Library.Protocol
import LabBridge.Server.Interleaving

/-!
# The order in which requests take their locks

A stage says what a transaction has locked and seen. Triggers and retries lock the task, see
that it is enabled and that no run of another action waits for it, and insert one run. A
manual start locks the task before it moves its run. A switch locks the task and gives up
its waiting runs before it disables it.
-/

namespace LabBridge.Server

open ByteText LabBridge.Core Storage Interaction

variable {R : Runtime} {α β : Type}

/-- How far a transaction has come. -/
inductive LockStage
  /-- It has only read. -/
  | reading
  /-- It has locked a task. -/
  | locked (taskId : Bytes)
  /-- It has seen that the task it locked is enabled. -/
  | enabled (taskId nodeCode : Bytes)
  /-- It has seen that at most the run under a key waits for the task. -/
  | clear (taskId nodeCode executionKey : Bytes)
  /-- It has given up the waiting runs of the task it locked. -/
  | emptied (taskId : Bytes)
  /-- It has locked a waiting run after its task. -/
  | found (taskRunId : Bytes)
  /-- It knows that a run is running. -/
  | passed (taskRunId : Bytes)
  /-- It has written all it writes. -/
  | done

/-- The stages that an answer leads to. -/
inductive LockStage.After : LockStage → ∀ {γ : Type}, Statement γ → γ → LockStage → Prop
  | read {stage : LockStage} {γ : Type} {statement : Statement γ} {answer : γ}
      (isRead : statement.IsRead) : After stage statement answer stage
  | lock {taskId : Bytes} : After .reading (.selectTaskForUpdate taskId) true (.locked taskId)
  | see {taskId : Bytes} {task : TaskRecord} (enabled : task.enabled = true) :
      After (.locked taskId) (.selectTask taskId) (some task)
        (.enabled taskId task.nodeCode)
  | clear {taskId nodeCode executionKey : Bytes} {answer : Option TaskRunRecord}
      (same : ∀ run, answer = some run → run.executionKey = executionKey) :
      After (.enabled taskId nodeCode) (.selectPendingManual taskId) answer
        (.clear taskId nodeCode executionKey)
  | insert {request : ManualTaskRunRequest} {json : Bytes} {answer : Option Bytes} :
      After (.clear request.taskId request.nodeCode request.executionKey)
        (.insertManualRun request json) answer .done
  | insertScheduled {record : TaskRunRecord} {answer : Option Bytes}
      (running : record.status = .running) :
      After .reading (.insertScheduledRun record) answer .done
  | insertRun {record : TaskRunRecord} {answer : Option Bytes}
      (running : record.status = .running) : After .reading (.insertRun record) answer .done
  | find {taskId taskRunId : Bytes} {run : TaskRunRecord} (waits : run.status = .pending) :
      After (.locked taskId) (.selectRunForUpdate taskRunId) (some run) (.found taskRunId)
  | start {taskRunId startedAt : Bytes} :
      After (.found taskRunId) (.updateManualRunning taskRunId startedAt) () (.passed taskRunId)
  | passKey {executionKey : Bytes} {run : TaskRunRecord} (running : run.status = .running) :
      After .reading (.selectRunByKey executionKey) (some run) (.passed run.id)
  | passLocked {taskId taskRunId : Bytes} {run : TaskRunRecord} (running : run.status = .running) :
      After (.locked taskId) (.selectRunForUpdate taskRunId) (some run) (.passed run.id)
  | empty {taskId summary : Bytes} :
      After (.locked taskId) (.updatePendingManualFailed taskId summary) () (.emptied taskId)
  | enable {taskId : Bytes} : After (.locked taskId) (.updateTaskEnabled taskId true) () .done
  | disable {taskId : Bytes} : After (.emptied taskId) (.updateTaskEnabled taskId false) () .done

/-- The protocol of the locks; any refusal may end it. -/
def lockProtocol : Program.Protocol Statement Stop LockStage where
  after := LockStage.After
  stops _ _ := True

namespace Tx

variable {G : Type} {P : Program.Protocol Statement Stop G} {ends : G → α → Prop} {stage : G}

/-- A statement and what follows it follow a protocol when every answer leads to a stage from
which the rest does. -/
theorem follows_sql_bind {statement : Statement β} {next : β → Tx α} :
    Program.Follows P ends (sql statement >>= next) stage ↔
      ∀ answer, ∃ reached, P.after stage statement answer reached ∧
        Program.Follows P ends (next answer) reached := Iff.rfl

/-- A guarded body follows a protocol when it may stop at the guard and its body follows. -/
theorem follows_unless_refuse {condition : Prop} [Decidable condition] {failure : Failure}
    {tx : Tx α} (stops : condition → P.stops stage (.refused failure))
    (h : ¬condition → Program.Follows P ends tx stage) :
    Program.Follows P ends (if condition then refuse failure else tx) stage := by
  by_cases hcondition : condition
  · rw [if_pos hcondition]
    exact stops hcondition
  · rw [if_neg hcondition]
    exact h hcondition

end Tx

/-- What only reads follows the protocol of the locks in its stage. -/
theorem follows_of_reads {ends : LockStage → α → Prop} {stage : LockStage} {tx : Tx α}
    (h : tx.Calls fun _ => Statement.IsRead) (finish : ∀ value, ends stage value) :
    Program.Follows lockProtocol ends tx stage :=
  .of_calls (fun _ _ => .read) (fun _ => trivial) finish h

namespace TaskRunService

open TaskRunRepository

/-- What is answered for a stored run calls a running run running, and no other. -/
theorem running_of_replayResult {run : TaskRunRecord}
    (h : (replayResult run).runStatus = text "running") : run.status = .running :=
  TaskRunStatus.toStorage_injective h

/-- A manual start follows the protocol; a run it calls running is running. -/
theorem startManual_follows (request : StartTaskRunRequest) :
    Program.Follows lockProtocol
      (fun stage result => result.runStatus = text "running" → stage = .passed result.id)
      (startManual request) .reading := by
  refine Tx.follows_unless_refuse (fun _ => trivial) fun _ => ?_
  refine Tx.follows_unless_refuse (fun _ => trivial) fun _ => ?_
  refine Tx.follows_unless_refuse (fun _ => trivial) fun _ => ?_
  refine Tx.follows_sql_bind.mpr fun found => ?_
  cases found with
  | none => exact ⟨.reading, .read trivial, trivial⟩
  | some run =>
    by_cases hpending : run.status = .pending
    · refine ⟨.reading, .read trivial, Tx.follows_unless_refuse (fun _ => trivial) fun _ => ?_⟩
      rw [if_neg (not_not.mpr hpending)]
      refine Tx.follows_sql_bind.mpr fun held => ?_
      cases held with
      | false => exact ⟨.reading, .read trivial, trivial⟩
      | true =>
        refine ⟨.locked run.taskId, .lock, Tx.follows_sql_bind.mpr fun locked => ?_⟩
        cases locked with
        | none => exact ⟨_, .read trivial, trivial⟩
        | some locked =>
          by_cases hwaits : locked.status = .pending
          · simp only [hwaits, ne_eq, not_true_eq_false, if_false]
            refine ⟨.found run.id, .find hwaits, Tx.follows_sql_bind.mpr fun _ => ?_⟩
            exact ⟨.passed run.id, .start, fun _ => rfl⟩
          · simp only [hwaits, ne_eq, not_false_eq_true, if_true]
            by_cases hrunning : locked.status = .running
            · exact ⟨.passed locked.id, .passLocked hrunning, fun _ => rfl⟩
            · exact ⟨_, .read trivial, fun h => absurd (running_of_replayResult h) hrunning⟩
    · by_cases hrunning : run.status = .running
      · refine ⟨.passed run.id, .passKey hrunning,
          Tx.follows_unless_refuse (fun _ => trivial) fun _ => ?_⟩
        rw [if_pos hpending]
        exact fun _ => rfl
      · refine ⟨.reading, .read trivial, Tx.follows_unless_refuse (fun _ => trivial) fun _ => ?_⟩
        rw [if_pos hpending]
        exact fun h => absurd (running_of_replayResult h) hrunning

/-- A scheduled start follows the protocol. -/
theorem startScheduled_follows (request : StartTaskRunRequest) :
    Program.Follows lockProtocol (fun _ _ => True) (startScheduled request) .reading := by
  unfold startScheduled
  split
  · trivial
  · refine Tx.follows_sql_bind.mpr fun found => ⟨.reading, .read trivial, ?_⟩
    cases found with
    | none => trivial
    | some task =>
      refine Tx.follows_unless_refuse (fun _ => trivial) fun _ => ?_
      refine Tx.follows_unless_refuse (fun _ => trivial) fun _ => ?_
      split
      · have hcreate : Program.Follows lockProtocol (fun _ _ => True)
            (create (scheduledRecord request)) .reading := by
          refine Tx.follows_sql_bind.mpr fun id => ⟨.done, .insertRun rfl, ?_⟩
          cases id <;> trivial
        exact hcreate.bind fun _ _ _ => trivial
      · have hcreate : Program.Follows lockProtocol (fun _ _ => True)
            (createOrFindScheduled (scheduledRecord request)) .reading := by
          refine Tx.follows_sql_bind.mpr fun id => ⟨.done, .insertScheduled rfl, ?_⟩
          cases id with
          | some id => trivial
          | none =>
            refine Tx.follows_sql_bind.mpr fun existing => ⟨.done, .read trivial, ?_⟩
            cases existing <;> trivial
        exact hcreate.bind fun _ _ _ => Tx.follows_unless_refuse (fun _ => trivial) fun _ => trivial

/-- The insert of an operator run closes the protocol. -/
theorem createOrFindManual_follows (request : ManualTaskRunRequest) :
    Program.Follows lockProtocol (fun _ _ => True) (createOrFindManual R request)
      (.clear request.taskId request.nodeCode request.executionKey) := by
  have hprinted : Program.Follows lockProtocol
      (fun stage _ => stage = .clear request.taskId request.nodeCode request.executionKey)
      (printed (if request.retryFiles = [] then some []
        else toRetryFilesJson R.json request.retryFiles))
      (.clear request.taskId request.nodeCode request.executionKey) := by
    unfold printed
    split
    · rfl
    · trivial
  refine hprinted.bind fun stage json hstage => ?_
  subst hstage
  refine Tx.follows_sql_bind.mpr fun id => ⟨.done, .insert, ?_⟩
  cases id with
  | some id =>
    refine Tx.follows_sql_bind.mpr fun created => ⟨.done, .read trivial, ?_⟩
    cases created <;> trivial
  | none =>
    refine Tx.follows_sql_bind.mpr fun existing => ⟨.done, .read trivial, ?_⟩
    cases existing <;> trivial

/-- Accepting an operator action follows the protocol. -/
theorem acceptManualRun_follows (triggerType taskId retryOfRunId executionKey : Bytes)
    (retryFiles : List TaskRunRetryFile) :
    Program.Follows lockProtocol (fun _ _ => True)
      (acceptManualRun R triggerType taskId retryOfRunId executionKey retryFiles) .reading := by
  refine Tx.follows_unless_refuse (fun _ => trivial) fun _ => ?_
  refine Tx.follows_sql_bind.mpr fun held => ?_
  cases held with
  | false => exact ⟨.reading, .read trivial, trivial⟩
  | true =>
    refine ⟨.locked taskId, .lock, Tx.follows_sql_bind.mpr fun found => ?_⟩
    cases found with
    | none => exact ⟨_, .read trivial, trivial⟩
    | some task =>
      by_cases henabled : task.enabled = true
      · refine ⟨.enabled taskId task.nodeCode, .see henabled,
          Tx.follows_unless_refuse (fun _ => trivial) fun _ => ?_⟩
        refine Tx.follows_sql_bind.mpr fun qcRuleIds => ⟨_, .read trivial, ?_⟩
        have hchecked : Program.Follows lockProtocol (fun stage _ => stage = .enabled taskId task.nodeCode)
            (validateTaskExecutable R task qcRuleIds) (.enabled taskId task.nodeCode) :=
          follows_of_reads (validateTaskExecutable_reads _ _) fun _ => rfl
        refine hchecked.bind fun stage _ hstage => ?_
        subst hstage
        refine Tx.follows_sql_bind.mpr fun pending => ?_
        split
        · exact ⟨_, .read trivial, trivial⟩
        · rename_i hnone
          refine ⟨.clear taskId task.nodeCode executionKey, .clear fun run hrun => ?_, ?_⟩
          · rw [hrun] at hnone
            simpa [Option.filter] using hnone
          · refine Program.Follows.bind (createOrFindManual_follows _) fun stage started _ => ?_
            cases started with
            | some started => trivial
            | none =>
              refine Tx.follows_sql_bind.mpr fun raced => ⟨_, .read trivial, ?_⟩
              cases raced <;> trivial
      · refine ⟨_, .read trivial, ?_⟩
        simp only [henabled, Bool.not_false, if_true]
        trivial

/-- An operator action follows the protocol. -/
theorem applyManualRun_follows (triggerType taskId retryOfRunId idempotencyKey : Bytes)
    (retryFiles : List TaskRunRetryFile) :
    Program.Follows lockProtocol (fun _ _ => True)
      (applyManualRun R triggerType taskId retryOfRunId idempotencyKey retryFiles) .reading := by
  refine Tx.follows_unless_refuse (fun _ => trivial) fun _ => ?_
  refine Tx.follows_sql_bind.mpr fun existing => ⟨_, .read trivial, ?_⟩
  cases existing with
  | some existing => exact Tx.follows_unless_refuse (fun _ => trivial) fun _ => trivial
  | none => exact acceptManualRun_follows _ _ _ _ _

/-- An operator retry follows the protocol. -/
theorem requestRetryRun_follows (taskRunId idempotencyKey : Bytes) :
    Program.Follows lockProtocol (fun _ _ => True) (requestRetryRun R taskRunId idempotencyKey)
      .reading := by
  refine Tx.follows_unless_refuse (fun _ => trivial) fun _ => ?_
  refine Tx.follows_sql_bind.mpr fun existing => ⟨_, .read trivial, ?_⟩
  cases existing with
  | some existing => exact Tx.follows_unless_refuse (fun _ => trivial) fun _ => trivial
  | none =>
    refine Tx.follows_unless_refuse (fun _ => trivial) fun _ => ?_
    refine Tx.follows_sql_bind.mpr fun found => ⟨_, .read trivial, ?_⟩
    cases found with
    | none => trivial
    | some parent =>
      refine Tx.follows_unless_refuse (fun _ => trivial) fun _ => ?_
      have hfound : Program.Follows lockProtocol (fun stage _ => stage = .reading)
          (TaskRunRepository.findFailedFiles R taskRunId) .reading := by
        refine Tx.follows_sql_bind.mpr fun stored => ⟨_, .read trivial, ?_⟩
        cases stored <;> rfl
      refine hfound.bind fun stage failedFiles hstage => ?_
      subst hstage
      split
      · trivial
      · trivial
      · rename_i failed rest
        have hresolved : Program.Follows lockProtocol (fun stage _ => stage = .reading)
            (resolveRetryFiles parent (failed :: rest)) .reading :=
          follows_of_reads (resolveRetryFiles_reads _ _) fun _ => rfl
        refine hresolved.bind fun stage retryFiles hstage => ?_
        subst hstage
        exact applyManualRun_follows _ _ _ _ _

end TaskRunService

/-- Switching a task follows the protocol. -/
theorem setTaskEnabled_follows (taskId : Bytes) (enabled : Bool) :
    Program.Follows lockProtocol (fun _ _ => True) (setTaskEnabled R taskId enabled)
      .reading := by
  refine Tx.follows_unless_refuse (fun _ => trivial) fun _ => ?_
  refine Tx.follows_sql_bind.mpr fun held => ?_
  cases held with
  | false => exact ⟨.reading, .read trivial, trivial⟩
  | true =>
    refine ⟨.locked taskId, .lock, Tx.follows_sql_bind.mpr fun found => ⟨_, .read trivial, ?_⟩⟩
    cases found with
    | none => trivial
    | some task =>
      have hlast {stage : LockStage} {after : _ → Tx ManagementTaskResult}
          (hswitch : LockStage.After stage (.updateTaskEnabled taskId enabled) () .done)
          (hafter : ∀ updated, Program.Follows lockProtocol (fun _ _ => True) (after updated)
            .done) :
          Program.Follows lockProtocol (fun _ _ => True)
            (sql (.updateTaskEnabled taskId enabled) >>= fun _ =>
              sql (.selectTask taskId) >>= after) stage :=
        Tx.follows_sql_bind.mpr fun _ => ⟨.done, hswitch,
          Tx.follows_sql_bind.mpr fun updated => ⟨.done, .read trivial, hafter updated⟩⟩
      cases enabled with
      | true =>
        refine Tx.follows_sql_bind.mpr fun qcRuleIds => ⟨_, .read trivial, ?_⟩
        have hchecked : Program.Follows lockProtocol (fun stage _ => stage = .locked taskId)
            (validateTaskExecutable R task qcRuleIds) (.locked taskId) :=
          follows_of_reads (validateTaskExecutable_reads _ _) fun _ => rfl
        refine hchecked.bind fun stage _ hstage => ?_
        subst hstage
        refine hlast .enable fun updated => ?_
        cases updated with
        | none => trivial
        | some updated => exact Tx.follows_sql_bind.mpr fun _ => ⟨_, .read trivial, trivial⟩
      | false =>
        refine Tx.follows_sql_bind.mpr fun _ => ⟨_, .empty, ?_⟩
        refine hlast .disable fun updated => ?_
        cases updated with
        | none => trivial
        | some updated => exact Tx.follows_sql_bind.mpr fun _ => ⟨_, .read trivial, trivial⟩

/-- A manual start that calls its run running knows that it is. -/
def TellsRunning (call : Call) (stage : LockStage) (reply : Reply) : Prop :=
  ∀ request result, call = .start request → TaskRunService.isManualStart request = true →
    reply = .start result → result.runStatus = text "running" → stage = .passed result.id

/-- Every request on runs follows the protocol of the locks. -/
theorem Call.transaction_follows {call : Call} (hruns : call.concernsRuns = true) :
    Program.Follows lockProtocol (TellsRunning call) (call.transaction R) .reading := by
  cases call <;> simp only [concernsRuns, Bool.false_eq_true] at hruns
  case start request =>
    have hstart : Program.Follows lockProtocol (fun stage result =>
        TaskRunService.isManualStart request = true → result.runStatus = text "running" →
          stage = .passed result.id) (TaskRunService.start request) .reading := by
      refine Tx.follows_unless_refuse (fun _ => trivial) fun _ => ?_
      refine Tx.follows_unless_refuse (fun _ => trivial) fun _ => ?_
      split
      · exact (TaskRunService.startManual_follows request).mono fun _ _ h _ => h
      · rename_i hscheduled
        exact (TaskRunService.startScheduled_follows request).mono
          fun _ _ _ hmanual => absurd hmanual hscheduled
    refine hstart.bind fun stage result hresult => ?_
    intro request' result' hcall hmanual hreply hrunning
    cases hcall
    cases hreply
    exact hresult hmanual hrunning
  case trigger taskId key =>
    exact (TaskRunService.applyManualRun_follows _ _ _ _ _).bind fun _ _ _ _ _ _ _ hreply => by cases hreply
  case retry taskRunId key =>
    exact (TaskRunService.requestRetryRun_follows _ _).bind fun _ _ _ _ _ _ _ hreply => by cases hreply
  case setEnabled taskId enabled =>
    exact (setTaskEnabled_follows _ _).bind fun _ _ _ _ _ _ _ hreply => by cases hreply

end LabBridge.Server
