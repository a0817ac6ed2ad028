import LabBridge.Server.Session
import Mathlib.Data.List.Sort

/-!
# The statements on task runs and configuration

One definition for each SQL text of the task-run, configuration, node and rule
repositories. A statement casts its parameters, selects its rows and answers with texts, in
the order of its SQL. `INSERT … SELECT` answers nothing when the selected row does not
exist; `ON CONFLICT DO NOTHING` answers nothing when a unique index is violated.
-/

namespace LabBridge.Server

open ByteText LabBridge.Core Storage

namespace Database

variable (pg : Postgres) (session : Session) (db : Database)

/-- The projection shared by every read of a task run. -/
def toTaskRunRecord (run : TaskRunRow) : TaskRunRecord where
  id := decimal run.id
  taskId := decimal run.taskId
  nodeCode := run.nodeCode
  status := run.status
  startedAt := pg.utcColumn run.startedAt
  finishedAt := pg.utcColumn run.finishedAt
  itemsTotal := run.itemsTotal
  itemsSuccess := run.itemsSuccess
  itemsFailed := run.itemsFailed
  errorSummary := run.errorSummary
  triggerType := run.triggerType
  executionKey := run.executionKey.getD []
  scheduledFor := pg.utcColumn run.scheduledFor
  requestedAt := pg.utcColumn run.requestedAt
  retryOfRunId := (run.retryOfRunId.map fun id => decimal id).getD []

/-- The task a run is inserted for: it must exist and belong to the node. -/
def ownTask (taskId : Option RowId) (nodeCode : Bytes) : Option TaskRow :=
  (taskId.bind db.tasks.find?).filter fun task => task.nodeCode == nodeCode

/-- Whether the index on node and execution key holds the pair. -/
def hasExecutionKey (nodeCode executionKey : Bytes) : Bool :=
  db.taskRuns.rows.any fun run =>
    run.nodeCode == nodeCode && run.executionKey == some executionKey

/-- A pending operator run of a task. -/
def isPendingManual (taskId : RowId) (run : TaskRunRow) : Bool :=
  run.taskId == taskId && run.status == .pending && run.isManual

/-- Append a run and answer with its identifier; `skipped` says which duplicates an
`ON CONFLICT` clause turns into no row. -/
def storeRun (make : RowId → TaskRunRow) (keyed : ∀ id, (make id).id = id)
    (blind : ∀ id row, TaskRunRow.clash row (make id) = TaskRunRow.clash row (make 0))
    (skipped : Bool) : Answer (Option Bytes × Database) :=
  match db.taskRuns.insert make keyed blind with
  | .ok (id, taskRuns) => .ok (some (decimal id), { db with taskRuns := taskRuns })
  | .error .duplicate => if skipped then .ok (none, db) else .error .rejected
  | .error .exhausted => .error .outage

/-- The insert of `create`. -/
def insertRun (record : TaskRunRecord) : Answer (Option Bytes × Database) := do
  let taskId ← pg.idParam record.taskId
  let nodeCode ← pg.textParam record.nodeCode
  let startedAt ← pg.nullableTimeParam record.startedAt
  let errorSummary ← pg.textParam record.errorSummary
  let triggerType ← pg.varcharParam 32 record.triggerType
  match db.ownTask taskId nodeCode with
  | none => pure (none, db)
  | some task =>
    db.storeRun (fun id => {
      id := id
      taskId := task.id
      nodeCode := task.nodeCode
      status := record.status
      startedAt := startedAt
      itemsTotal := record.itemsTotal
      itemsSuccess := record.itemsSuccess
      itemsFailed := record.itemsFailed
      errorSummary := errorSummary
      triggerType := triggerType }) (fun _ => rfl) (fun _ _ => rfl) false

/-- The insert of `create_or_find_scheduled`. -/
def insertScheduledRun (record : TaskRunRecord) : Answer (Option Bytes × Database) := do
  let taskId ← pg.idParam record.taskId
  let nodeCode ← pg.textParam record.nodeCode
  let startedAt ← pg.timeParam record.startedAt
  let errorSummary ← pg.textParam record.errorSummary
  let triggerType ← pg.varcharParam 32 record.triggerType
  let executionKey ← pg.varcharParam 128 record.executionKey
  let scheduledFor ← pg.timeParam record.scheduledFor
  match db.ownTask taskId nodeCode with
  | none => pure (none, db)
  | some task =>
    db.storeRun (fun id => {
      id := id
      taskId := task.id
      nodeCode := task.nodeCode
      status := record.status
      startedAt := some startedAt
      itemsTotal := record.itemsTotal
      itemsSuccess := record.itemsSuccess
      itemsFailed := record.itemsFailed
      errorSummary := errorSummary
      triggerType := triggerType
      executionKey := some executionKey
      scheduledFor := some scheduledFor }) (fun _ => rfl) (fun _ _ => rfl)
      (db.hasExecutionKey task.nodeCode executionKey)

/-- The insert of `create_or_find_manual`. -/
def insertManualRun (request : ManualTaskRunRequest) (retryFilesJson : Bytes) :
    Answer (Option Bytes × Database) := do
  let taskId ← pg.idParam request.taskId
  let nodeCode ← pg.textParam request.nodeCode
  let triggerType ← pg.varcharParam 32 request.triggerType
  let executionKey ← pg.varcharParam 128 request.executionKey
  let retryOfRunId ← pg.nullableIdParam request.retryOfRunId
  let retryFiles ← pg.nullableJsonParam retryFilesJson
  match db.ownTask taskId nodeCode with
  | none => pure (none, db)
  | some task =>
    -- The parent run is a foreign key: a key that matches no run is an error.
    match retryOfRunId with
    | some none => .error .rejected
    | some (some parent) =>
      if (db.taskRuns.find? parent).isNone then .error .rejected
      else store task triggerType executionKey (some parent) retryFiles
    | none => store task triggerType executionKey none retryFiles
where
  store (task : TaskRow) (triggerType executionKey : Bytes) (parent : Option RowId)
      (retryFiles : Option Bytes) : Answer (Option Bytes × Database) :=
    db.storeRun (fun id => {
      id := id
      taskId := task.id
      nodeCode := task.nodeCode
      status := .pending
      triggerType := triggerType
      executionKey := some executionKey
      requestedAt := some session.now
      retryOfRunId := parent
      retryFiles := retryFiles }) (fun _ => rfl) (fun _ _ => rfl) true

/-- The read of `find_by_id`. -/
def selectRunById (taskRunId : Bytes) : Answer (Option TaskRunRecord) := do
  let id ← pg.idParam taskRunId
  pure ((id.bind db.taskRuns.find?).map (toTaskRunRecord pg))

/-- The read that follows a scheduled insert without a row. -/
def selectRunByNodeKey (nodeCode executionKey : Bytes) : Answer (Option TaskRunRecord) := do
  let nodeCode ← pg.textParam nodeCode
  let executionKey ← pg.textParam executionKey
  let rows := db.taskRuns.rows.filter fun run =>
    run.nodeCode == nodeCode && run.executionKey == some executionKey
  pure ((session.pick rows).map (toTaskRunRecord pg))

/-- The runs under an execution key, of whatever node. -/
def runsByKey (executionKey : Bytes) : List TaskRunRow :=
  db.taskRuns.rows.filter fun run => run.executionKey == some executionKey

/-- The read of `find_by_execution_key`. -/
def selectRunByKey (executionKey : Bytes) : Answer (Option TaskRunRecord) := do
  let executionKey ← pg.textParam executionKey
  pure ((session.pick (db.runsByKey executionKey)).map (toTaskRunRecord pg))

/-- The read of `find_pending_manual_by_task`. -/
def selectPendingManual (taskId : Bytes) : Answer (Option TaskRunRecord) := do
  let id ← pg.idParam taskId
  pure ((id.bind fun id => db.taskRuns.rows.find? (isPendingManual id)).map
    (toTaskRunRecord pg))

/-- The read of `find_failed_files`. -/
def selectFailedFiles (taskRunId : Bytes) : Answer (Option Bytes) := do
  let id ← pg.idParam taskRunId
  pure ((id.bind db.taskRuns.find?).map fun run => run.failedFiles.getD [])

/-- The read of `find_retry_files`. -/
def selectRetryFiles (taskRunId : Bytes) : Answer (Option Bytes) := do
  let id ← pg.idParam taskRunId
  pure ((id.bind db.taskRuns.find?).map fun run => run.retryFiles.getD [])

/-- Change the runs that satisfy a condition; a unique index may refuse. -/
def changeRuns (selected : TaskRunRow → Bool) (change : TaskRunRow → TaskRunRow)
    (keyed : ∀ run, (change run).id = run.id) : Answer (Unit × Database) := do
  let taskRuns ← accepted (db.taskRuns.update selected change keyed)
  pure ((), { db with taskRuns := taskRuns })

/-- The update of `finish`. -/
def updateRunFinish (record : TaskRunRecord) : Answer (Unit × Database) := do
  let id ← pg.idParam record.id
  let finishedAt ← pg.nullableTimeParam record.finishedAt
  let errorSummary ← pg.textParam record.errorSummary
  let failedFiles ← pg.nullableJsonParam record.failedFilesJson
  db.changeRuns (fun run => some run.id == id) (fun run => { run with
    status := record.status
    finishedAt := finishedAt
    itemsTotal := record.itemsTotal
    itemsSuccess := record.itemsSuccess
    itemsFailed := record.itemsFailed
    errorSummary := errorSummary
    failedFiles := failedFiles }) fun _ => rfl

/-- The update of `fail_pending_manual_runs`. -/
def updatePendingManualFailed (taskId errorSummary : Bytes) : Answer (Unit × Database) := do
  let id ← pg.idParam taskId
  let errorSummary ← pg.textParam errorSummary
  db.changeRuns (fun run => id.any fun id => isPendingManual id run) (fun run => { run with
    status := .failed
    finishedAt := some session.now
    errorSummary := errorSummary
    failedFiles := some (text "[]") }) fun _ => rfl

/-- The update of `mark_manual_running`. -/
def updateManualRunning (taskRunId startedAt : Bytes) : Answer (Unit × Database) := do
  let id ← pg.idParam taskRunId
  let startedAt ← pg.timeParam startedAt
  db.changeRuns (fun run => some run.id == id && run.status == .pending) (fun run =>
    { run with status := .running, startedAt := some startedAt }) fun _ => rfl

/-- The lock on a task row. -/
def selectTaskForUpdate (taskId : Bytes) : Answer Bool := do
  let id ← pg.idParam taskId
  pure (id.bind db.tasks.find?).isSome

/-- The read of `find_task`. -/
def selectTask (taskId : Bytes) : Answer (Option TaskRecord) := do
  let id ← pg.idParam taskId
  pure ((id.bind db.tasks.find?).map fun task => {
    id := decimal task.id
    nodeCode := task.nodeCode
    dataSourceId := decimal task.dataSourceId
    name := task.name
    taskType := task.taskType
    scheduleExpr := task.scheduleExpr
    parserType := task.parserType
    qcProfile := task.qcProfile
    enabled := task.enabled })

/-- The read of `find_data_source`. -/
def selectDataSource (dataSourceId : Bytes) : Answer (Option DataSourceRecord) := do
  let id ← pg.idParam dataSourceId
  pure ((id.bind db.dataSources.find?).map fun source => {
    id := decimal source.id
    nodeCode := source.nodeCode
    sourceType := source.sourceType
    name := source.name
    configJson := source.configJson
    enabled := source.enabled })

/-- The read of `find_task_qc_rule_ids`, ordered by sort order and rule. -/
def selectTaskQcRuleIds (taskId : Bytes) : Answer (List Bytes) := do
  let id ← pg.idParam taskId
  let bound := db.taskQcRules.filter fun binding => some binding.taskId == id
  let ordered := bound.insertionSort fun left right =>
    left.sortOrder < right.sortOrder ∨
      left.sortOrder = right.sortOrder ∧ left.qcRuleId ≤ right.qcRuleId
  pure (ordered.map fun binding => decimal binding.qcRuleId)

/-- The update of `set_task_enabled`. -/
def updateTaskEnabled (taskId : Bytes) (enabled : Bool) : Answer (Unit × Database) := do
  let id ← pg.idParam taskId
  let tasks ← accepted (db.tasks.update (fun task => some task.id == id)
    (fun task => { task with enabled := enabled }) fun _ => rfl)
  pure ((), { db with tasks := tasks })

/-- The read of `find_by_code`. -/
def selectNodeByCode (nodeCode : Bytes) : Answer (Option NodeRecord) := do
  let nodeCode ← pg.textParam nodeCode
  pure ((db.nodes.rows.find? fun node => node.nodeCode == nodeCode).map fun node => {
    nodeCode := node.nodeCode
    name := node.name
    agentVersion := node.agentVersion
    status := node.status
    lastHeartbeatAt := pg.utcColumn node.lastHeartbeatAt })

/-- The read of `find_rule`. -/
def selectRule (qcRuleId : Bytes) : Answer (Option QcRuleRecord) := do
  let id ← pg.idParam qcRuleId
  pure ((id.bind db.qcRules.find?).map fun rule => {
    id := decimal rule.id
    name := rule.name
    ruleType := rule.ruleType
    ruleConfigJson := rule.ruleConfigJson
    enabled := rule.enabled })

end Database

end LabBridge.Server
