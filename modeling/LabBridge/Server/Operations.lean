import LabBridge.Server.ManagementCommandService
import LabBridge.Server.Runs

/-!
# What the operations on runs issue

The statements that starting, triggering, retrying and switching can issue, whatever the
tables answer, and from them what each operation does to the tables.
-/

namespace LabBridge.Server

open ByteText LabBridge.Core Storage Interaction

variable {R : Runtime} {session : Session} {db db' : Database} {α : Type}

/-- Checking the rules of a task only reads. -/
theorem validateRules_reads (qcRuleIds : List Bytes) :
    (validateRules R qcRuleIds).Calls fun _ => Statement.IsRead := by
  induction qcRuleIds with
  | nil => trivial
  | cons qcRuleId rest ih =>
    refine Tx.calls_sql_bind.mpr ⟨trivial, fun answer => ?_⟩
    cases answer with
    | none => trivial
    | some rule =>
      refine Tx.calls_unless_refuse (Tx.calls_unless_refuse (Tx.calls_unless_refuse ?_))
      exact ih

/-- Checking a task only reads. -/
theorem validateTaskExecutable_reads (task : TaskRecord) (qcRuleIds : List Bytes) :
    (validateTaskExecutable R task qcRuleIds).Calls fun _ => Statement.IsRead := by
  refine Tx.calls_sql_bind.mpr ⟨trivial, fun node => ?_⟩
  cases node with
  | none => trivial
  | some node =>
    refine Tx.calls_sql_bind.mpr ⟨trivial, fun source => ?_⟩
    cases source with
    | none => trivial
    | some source =>
      refine Tx.calls_unless_refuse (Tx.calls_unless_refuse
        (Tx.calls_unless_refuse (Tx.calls_unless_refuse ?_)))
      exact validateRules_reads qcRuleIds

namespace TaskRunService

open TaskRunRepository

/-- The statements of the operations that create and start runs. -/
abbrev Starting (tx : Tx α) : Prop := tx.Calls fun _ => Statement.IsStarting

/-- What only reads is among them. -/
theorem starting_of_reads {tx : Tx α} (h : tx.Calls fun _ => Statement.IsRead) : Starting tx :=
  h.mono fun _ _ => .read

/-- A manual start reads and marks its run as running. -/
theorem startManual_starting (request : StartTaskRunRequest) : Starting (startManual request) := by
  refine Tx.calls_unless_refuse (Tx.calls_unless_refuse (Tx.calls_unless_refuse ?_))
  refine Tx.calls_sql_bind.mpr ⟨.read trivial, fun answer => ?_⟩
  cases answer with
  | none => trivial
  | some run =>
    refine Tx.calls_unless_refuse ?_
    split
    · trivial
    · refine Tx.calls_sql_bind.mpr ⟨.read trivial, fun found => Tx.calls_unless_refuse ?_⟩
      refine Tx.calls_sql_bind.mpr ⟨.read trivial, fun locked => ?_⟩
      cases locked with
      | none => trivial
      | some locked =>
        simp only
        split
        · trivial
        · exact Tx.calls_sql_bind.mpr ⟨.updateManualRunning, fun _ => trivial⟩

/-- A scheduled start reads and inserts a running run. -/
theorem startScheduled_starting (request : StartTaskRunRequest) :
    Starting (startScheduled request) := by
  unfold startScheduled
  split
  · trivial
  · refine Tx.calls_sql_bind.mpr ⟨.read trivial, fun answer => ?_⟩
    cases answer with
    | none => trivial
    | some task =>
      refine Tx.calls_unless_refuse (Tx.calls_unless_refuse ?_)
      split
      · refine Program.Calls.bind ?_ fun id => trivial
        refine Tx.calls_sql_bind.mpr ⟨.insertRun rfl, fun id => ?_⟩
        cases id <;> trivial
      · refine Program.Calls.bind ?_ fun started => Tx.calls_unless_refuse trivial
        refine Tx.calls_sql_bind.mpr ⟨.insertScheduledRun rfl, fun id => ?_⟩
        cases id with
        | some id => trivial
        | none =>
          refine Tx.calls_sql_bind.mpr ⟨.read trivial, fun existing => ?_⟩
          cases existing <;> trivial

/-- A start creates a running run or starts a pending one. -/
theorem start_starting (request : StartTaskRunRequest) : Starting (start request) := by
  refine Tx.calls_unless_refuse (Tx.calls_unless_refuse ?_)
  split
  · exact startManual_starting request
  · exact startScheduled_starting request

/-- Creating or finding the run of an operator action inserts a pending run. -/
theorem createOrFindManual_starting (request : ManualTaskRunRequest) :
    Starting (createOrFindManual R request) := by
  refine Program.Calls.bind ?_ fun json => ?_
  · unfold printed
    split <;> trivial
  · refine Tx.calls_sql_bind.mpr ⟨.insertManualRun, fun id => ?_⟩
    cases id with
    | some id =>
      refine Tx.calls_sql_bind.mpr ⟨.read trivial, fun created => ?_⟩
      cases created <;> trivial
    | none =>
      refine Tx.calls_sql_bind.mpr ⟨.read trivial, fun existing => ?_⟩
      cases existing <;> trivial

/-- Accepting an operator action inserts a pending run at most. -/
theorem acceptManualRun_starting (triggerType taskId retryOfRunId executionKey : Bytes)
    (retryFiles : List TaskRunRetryFile) :
    Starting (acceptManualRun R triggerType taskId retryOfRunId executionKey retryFiles) := by
  refine Tx.calls_unless_refuse ?_
  refine Tx.calls_sql_bind.mpr ⟨.read trivial, fun found => Tx.calls_unless_refuse ?_⟩
  refine Tx.calls_sql_bind.mpr ⟨.read trivial, fun answer => ?_⟩
  cases answer with
  | none => trivial
  | some task =>
    refine Tx.calls_unless_refuse ?_
    refine Tx.calls_sql_bind.mpr ⟨.read trivial, fun qcRuleIds => ?_⟩
    refine Program.Calls.bind (starting_of_reads (validateTaskExecutable_reads _ _)) fun _ => ?_
    refine Tx.calls_sql_bind.mpr ⟨.read trivial, fun pending => ?_⟩
    split
    · trivial
    · refine Program.Calls.bind (createOrFindManual_starting _) fun started => ?_
      cases started with
      | some started => trivial
      | none =>
        refine Tx.calls_sql_bind.mpr ⟨.read trivial, fun raced => ?_⟩
        cases raced <;> trivial

/-- An operator action inserts a pending run at most. -/
theorem applyManualRun_starting (triggerType taskId retryOfRunId idempotencyKey : Bytes)
    (retryFiles : List TaskRunRetryFile) :
    Starting (applyManualRun R triggerType taskId retryOfRunId idempotencyKey retryFiles) := by
  refine Tx.calls_unless_refuse ?_
  refine Tx.calls_sql_bind.mpr ⟨.read trivial, fun existing => ?_⟩
  cases existing with
  | some existing => exact Tx.calls_unless_refuse trivial
  | none => exact acceptManualRun_starting _ _ _ _ _

/-- Fixing the input of a retry only reads. -/
theorem resolveRetryFiles_reads (parent : TaskRunRecord) (failedFiles : List TaskRunFailedFile) :
    (resolveRetryFiles parent failedFiles).Calls fun _ => Statement.IsRead := by
  induction failedFiles with
  | nil => trivial
  | cons failed rest ih =>
    refine Tx.calls_unless_refuse ?_
    split
    · exact Program.Calls.bind ih fun _ => trivial
    · refine Tx.calls_sql_bind.mpr ⟨trivial, fun answer => ?_⟩
      cases answer with
      | none => trivial
      | some rawFile =>
        refine Tx.calls_unless_refuse ?_
        refine Tx.calls_sql_bind.mpr ⟨trivial, fun rawRun => ?_⟩
        refine Tx.calls_unless_refuse (Tx.calls_unless_refuse ?_)
        exact Program.Calls.bind ih fun _ => trivial

/-- An operator retry inserts a pending run at most. -/
theorem requestRetryRun_starting (taskRunId idempotencyKey : Bytes) :
    Starting (requestRetryRun R taskRunId idempotencyKey) := by
  refine Tx.calls_unless_refuse ?_
  refine Tx.calls_sql_bind.mpr ⟨.read trivial, fun existing => ?_⟩
  cases existing with
  | some existing => exact Tx.calls_unless_refuse trivial
  | none =>
    refine Tx.calls_unless_refuse ?_
    refine Tx.calls_sql_bind.mpr ⟨.read trivial, fun answer => ?_⟩
    cases answer with
    | none => trivial
    | some parent =>
      refine Tx.calls_unless_refuse (Program.Calls.bind ?_ fun failedFiles => ?_)
      · refine Tx.calls_sql_bind.mpr ⟨.read trivial, fun stored => ?_⟩
        cases stored <;> trivial
      · split
        · trivial
        · trivial
        · refine Program.Calls.bind (starting_of_reads (resolveRetryFiles_reads _ _)) fun _ => ?_
          exact applyManualRun_starting _ _ _ _ _

/-- What these operations do to the tables. -/
theorem starts_of_yields {tx : Tx α} (calls : Starting tx) {result : α}
    (h : Tx.Yields R.postgres session tx db result db') : Starts db db' :=
  h.related calls Starts .refl .trans fun hstarting hexec => hstarting.exec hexec

end TaskRunService

/-- Switching a task reads, gives up its waiting runs and updates the task. -/
theorem setTaskEnabled_switching (taskId : Bytes) (enabled : Bool) :
    (setTaskEnabled R taskId enabled).Calls fun _ => Statement.IsSwitching := by
  refine Tx.calls_unless_refuse ?_
  refine Tx.calls_sql_bind.mpr ⟨.read trivial, fun found => Tx.calls_unless_refuse ?_⟩
  refine Tx.calls_sql_bind.mpr ⟨.read trivial, fun answer => ?_⟩
  cases answer with
  | none => trivial
  | some task =>
    have hswitch {after : _ → Tx ManagementTaskResult}
        (hafter : ∀ updated, (after updated).Calls fun _ => Statement.IsSwitching) :
        (sql (.updateTaskEnabled taskId enabled) >>= fun _ =>
          sql (.selectTask taskId) >>= after).Calls fun _ => Statement.IsSwitching :=
      Tx.calls_sql_bind.mpr
        ⟨.updateTaskEnabled, fun _ => Tx.calls_sql_bind.mpr ⟨.read trivial, hafter⟩⟩
    simp only
    split
    · refine Tx.calls_sql_bind.mpr ⟨.read trivial, fun qcRuleIds => ?_⟩
      refine Program.Calls.bind ?_ fun _ => hswitch fun updated => ?_
      · exact (validateTaskExecutable_reads _ _).mono fun _ _ => .read
      · cases updated with
        | none => trivial
        | some updated => exact Tx.calls_sql_bind.mpr ⟨.read trivial, fun _ => trivial⟩
    · refine Tx.calls_sql_bind.mpr
        ⟨.updatePendingManualFailed, fun _ => hswitch fun updated => ?_⟩
      cases updated with
      | none => trivial
      | some updated => exact Tx.calls_sql_bind.mpr ⟨.read trivial, fun _ => trivial⟩

/-- What switching a task does to the tables. -/
theorem setTaskEnabled_yields {taskId : Bytes} {enabled : Bool} {result : ManagementTaskResult}
    (h : Tx.Yields R.postgres session (setTaskEnabled R taskId enabled) db result db') :
    Switches db db' :=
  h.related (setTaskEnabled_switching taskId enabled) Switches .refl .trans
    fun hswitching hexec => hswitching.exec hexec

end LabBridge.Server
