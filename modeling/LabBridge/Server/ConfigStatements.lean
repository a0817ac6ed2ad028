import LabBridge.Library.KeyedRows
import LabBridge.Library.Transactions
import LabBridge.Server.Effects
import LabBridge.Server.ManagementQueries

/-!
# The statements on nodes and configuration

The SQL that registers nodes, creates data sources, rules and tasks, binds rules to tasks and
reads what a node has to run. Together with the statements on runs they are what the control
plane issues.
-/

namespace LabBridge.Server

open ByteText LabBridge.Core Storage Interaction

/-- A rule of a task as the configuration reads it. -/
structure TaskQcRuleBinding where
  taskId : Bytes
  qcRuleId : Bytes
  ruleType : Bytes
  name : Bytes
  ruleConfigJson : Bytes
  sortOrder : ℤ
  deriving DecidableEq

/-- A run that waits for its node, as the statement answers it. -/
structure PendingExecutionRow where
  taskRunId : Bytes
  taskId : Bytes
  executionKey : Bytes
  triggerType : Bytes
  requestedAt : Bytes
  retryFiles : Bytes
  deriving DecidableEq

/-- `to_storage` of a source type. -/
def sourceTypeToStorage : SourceType → Bytes
  | .localDirectory => text "local_directory"
  | .ftp => text "ftp"
  | .oracle => text "oracle"

namespace Database

variable (pg : Postgres) (db : Database)

/-- The node under a code. -/
def nodeByCode (nodeCode : Bytes) : Option NodeRow :=
  db.nodes.rows.find? fun node => node.nodeCode == nodeCode

/-- The projection of a task. -/
def toTaskRecord (task : TaskRow) : TaskRecord where
  id := decimal task.id
  nodeCode := task.nodeCode
  dataSourceId := decimal task.dataSourceId
  name := task.name
  taskType := task.taskType
  scheduleExpr := task.scheduleExpr
  parserType := task.parserType
  qcProfile := task.qcProfile
  enabled := task.enabled

/-- The insert of `create_data_source`. -/
def insertDataSource (record : DataSourceRecord) : Answer (Option Bytes × Database) := do
  let nodeCode ← pg.textParam record.nodeCode
  let _ ← pg.varcharParam 32 (sourceTypeToStorage record.sourceType)
  let name ← pg.varcharParam 128 record.name
  let configJson ← pg.jsonParam record.configJson
  match db.nodeByCode nodeCode with
  | none => pure (none, db)
  | some node => do
    let (id, dataSources) ← stored (db.dataSources.insert (fun id => {
      id := id
      nodeCode := node.nodeCode
      sourceType := record.sourceType
      name := name
      configJson := configJson
      enabled := record.enabled }) (fun _ => rfl) (fun _ _ => rfl))
    pure (some (decimal id), { db with dataSources := dataSources })

/-- The insert of `create_rule`. -/
def insertRule (record : QcRuleRecord) : Answer (Option Bytes × Database) := do
  let name ← pg.varcharParam 128 record.name
  let ruleType ← pg.varcharParam 64 record.ruleType
  let ruleConfigJson ← pg.jsonParam record.ruleConfigJson
  let (id, qcRules) ← stored (db.qcRules.insert (fun id => {
    id := id
    name := name
    ruleType := ruleType
    ruleConfigJson := ruleConfigJson
    enabled := record.enabled }) (fun _ => rfl) (fun _ _ => rfl))
  pure (some (decimal id), { db with qcRules := qcRules })

/-- The data source a task is inserted for: it must exist and belong to the node. -/
def ownSource (dataSourceId : Option RowId) (nodeCode : Bytes) : Option DataSourceRow :=
  (dataSourceId.bind db.dataSources.find?).filter fun source => source.nodeCode == nodeCode

/-- The insert of `create_task`. -/
def insertTask (record : TaskRecord) : Answer (Option Bytes × Database) := do
  let nodeCode ← pg.textParam record.nodeCode
  let dataSourceId ← pg.idParam record.dataSourceId
  let name ← pg.varcharParam 128 record.name
  let taskType ← pg.varcharParam 32 record.taskType
  let scheduleExpr ← pg.varcharParam 128 record.scheduleExpr
  let parserType ← pg.varcharParam 64 record.parserType
  let qcProfile ← pg.nullableVarcharParam 64 record.qcProfile
  match db.nodeByCode nodeCode with
  | none => pure (none, db)
  | some node =>
    match db.ownSource dataSourceId node.nodeCode with
    | none => pure (none, db)
    | some source => do
      let (id, tasks) ← stored (db.tasks.insert (fun id => {
        id := id
        nodeCode := node.nodeCode
        dataSourceId := source.id
        name := name
        taskType := taskType
        scheduleExpr := scheduleExpr
        parserType := parserType
        qcProfile := qcProfile
        enabled := record.enabled }) (fun _ => rfl) (fun _ _ => rfl))
      pure (some (decimal id), { db with tasks := tasks })

/-- The key of a binding. -/
def bindingKey (binding : TaskQcRuleRow) : RowId × RowId := (binding.taskId, binding.qcRuleId)

/-- The upsert of `bind_task_qc_rule`; task and rule are foreign keys. -/
def upsertTaskQcRule (taskId qcRuleId : Bytes) (sortOrder : ℤ) : Answer (Unit × Database) := do
  let taskId ← pg.idParam taskId
  let qcRuleId ← pg.idParam qcRuleId
  match taskId.bind db.tasks.find?, qcRuleId.bind db.qcRules.find? with
  | some task, some rule =>
    pure ((), { db with
      taskQcRules := upsert bindingKey db.taskQcRules ⟨task.id, rule.id, sortOrder⟩ })
  | _, _ => .error .rejected

/-- The upsert of a node. -/
def upsertNode (record : NodeRecord) : Answer (Unit × Database) := do
  let nodeCode ← pg.varcharParam 64 record.nodeCode
  let name ← pg.varcharParam 128 record.name
  let agentVersion ← pg.varcharParam 64 record.agentVersion
  let lastHeartbeatAt ← pg.nullableTimeParam record.lastHeartbeatAt
  if (db.nodeByCode nodeCode).isSome then do
    let nodes ← accepted (db.nodes.update (fun node => node.nodeCode == nodeCode) (fun node =>
      { node with
        name := name
        status := record.status
        agentVersion := agentVersion
        lastHeartbeatAt := lastHeartbeatAt }) fun _ => rfl)
    pure ((), { db with nodes := nodes })
  else do
    let (_, nodes) ← stored (db.nodes.insert (fun id => {
      id := id
      nodeCode := nodeCode
      name := name
      agentVersion := agentVersion
      status := record.status
      lastHeartbeatAt := lastHeartbeatAt }) (fun _ => rfl) (fun _ _ => rfl))
    pure ((), { db with nodes := nodes })

/-- The enabled tasks of a node. -/
def enabledTasks (nodeCode : Bytes) : List TaskRow :=
  db.tasks.rows.filter fun task => task.nodeCode == nodeCode && task.enabled

/-- The read of `find_enabled_tasks_by_node`. -/
def selectEnabledTasks (nodeCode : Bytes) : Answer (List TaskRecord) := do
  let nodeCode ← pg.textParam nodeCode
  pure ((db.enabledTasks nodeCode).map toTaskRecord)

/-- Whether an enabled task of the node reads a data source. -/
def isInUse (source : DataSourceRow) : Bool :=
  db.tasks.rows.any fun task =>
    task.dataSourceId == source.id && task.nodeCode == source.nodeCode && task.enabled

/-- The read of `find_enabled_data_sources_by_node`. -/
def selectEnabledDataSources (nodeCode : Bytes) : Answer (List DataSourceRecord) := do
  let nodeCode ← pg.textParam nodeCode
  pure ((db.dataSources.rows.filter fun source =>
    source.nodeCode == nodeCode && source.enabled && db.isInUse source).map toDataSourceRecord)

/-- The enabled rules of a task in their order. -/
def ruleBindings (task : TaskRow) : List TaskQcRuleBinding :=
  (db.orderedQcRules task.id).filterMap fun binding =>
    ((db.qcRules.find? binding.qcRuleId).filter QcRuleRow.enabled).map fun rule => {
      taskId := decimal task.id
      qcRuleId := decimal rule.id
      ruleType := rule.ruleType
      name := rule.name
      ruleConfigJson := rule.ruleConfigJson
      sortOrder := binding.sortOrder }

/-- Whether the data source of a task is enabled and on its node. -/
def hasEnabledSource (task : TaskRow) : Bool :=
  (db.ownSource (some task.dataSourceId) task.nodeCode).any DataSourceRow.enabled

/-- The read of `find_enabled_task_qc_rules_by_node`. -/
def selectEnabledTaskQcRules (nodeCode : Bytes) : Answer (List TaskQcRuleBinding) := do
  let nodeCode ← pg.textParam nodeCode
  pure (((db.enabledTasks nodeCode).filter db.hasEnabledSource).flatMap db.ruleBindings)

/-- The read of `find_pending_executions_by_node`. -/
def selectPendingExecutions (nodeCode : Bytes) : Answer (List PendingExecutionRow) := do
  let nodeCode ← pg.textParam nodeCode
  pure ((db.taskRuns.rows.filter fun run =>
    run.nodeCode == nodeCode && run.status == .pending && run.isManual).map fun run => {
      taskRunId := decimal run.id
      taskId := decimal run.taskId
      executionKey := run.executionKey.getD []
      triggerType := run.triggerType
      requestedAt := pg.utcColumn run.requestedAt
      retryFiles := run.retryFiles.getD [] })

end Database

/-- The statements on nodes and configuration, indexed by what they answer. -/
inductive ConfigStatement : Type → Type
  | insertDataSource (record : DataSourceRecord) : ConfigStatement (Option Bytes)
  | insertRule (record : QcRuleRecord) : ConfigStatement (Option Bytes)
  | insertTask (record : TaskRecord) : ConfigStatement (Option Bytes)
  | upsertTaskQcRule (taskId qcRuleId : Bytes) (sortOrder : ℤ) : ConfigStatement Unit
  | upsertNode (record : NodeRecord) : ConfigStatement Unit
  | selectEnabledTasks (nodeCode : Bytes) : ConfigStatement (List TaskRecord)
  | selectEnabledDataSources (nodeCode : Bytes) : ConfigStatement (List DataSourceRecord)
  | selectEnabledTaskQcRules (nodeCode : Bytes) : ConfigStatement (List TaskQcRuleBinding)
  | selectPendingExecutions (nodeCode : Bytes) : ConfigStatement (List PendingExecutionRow)

/-- The effect of a statement on the tables. -/
def ConfigStatement.exec (pg : Postgres) (db : Database) :
    {α : Type} → ConfigStatement α → Answer (α × Database)
  | _, insertDataSource record => db.insertDataSource pg record
  | _, insertRule record => db.insertRule pg record
  | _, insertTask record => db.insertTask pg record
  | _, upsertTaskQcRule taskId qcRuleId sortOrder => db.upsertTaskQcRule pg taskId qcRuleId sortOrder
  | _, upsertNode record => db.upsertNode pg record
  | _, selectEnabledTasks code => Statement.reading db (db.selectEnabledTasks pg code)
  | _, selectEnabledDataSources code => Statement.reading db (db.selectEnabledDataSources pg code)
  | _, selectEnabledTaskQcRules code => Statement.reading db (db.selectEnabledTaskQcRules pg code)
  | _, selectPendingExecutions code => Statement.reading db (db.selectPendingExecutions pg code)

/-- What the control plane issues: statements on runs, or on nodes and configuration. -/
abbrev ControlStatement (α : Type) : Type := Statement α ⊕ ConfigStatement α

/-- The effect of a statement on the tables. -/
def ControlStatement.exec (pg : Postgres) (session : Session) (db : Database) {α : Type} :
    ControlStatement α → Answer (α × Database)
  | .inl statement => statement.exec pg session db
  | .inr statement => statement.exec pg db

/-- The database as a store of statements. -/
def controlStore (pg : Postgres) (session : Session) : Store ControlStatement Stop Database where
  answer _ statement db := (ControlStatement.exec pg session db statement).mapError .failed
  rollback := Database.rollback

/-- A program over the statements of the control plane. -/
abbrev ControlTx (α : Type) := Program ControlStatement Stop α

namespace ControlTx

/-- Issue a statement on nodes or configuration. -/
def issue {α : Type} (statement : ConfigStatement α) : ControlTx α := .perform (.inr statement)

/-- Run a part that issues statements on runs. -/
def onRuns {α : Type} (tx : Tx α) : ControlTx α := tx.translate fun _ statement => .inl statement

/-- End with a client-error status. -/
def deny {α : Type} (failure : Failure) : ControlTx α := .stop (.refused failure)

/-- End with an exception of the program. -/
def abort {α : Type} (message : String) : ControlTx α := .stop (.thrown (text message))

variable {pg : Postgres} {session : Session} {db db' : Database} {α β : Type} {result : α}
  {allowed : ∀ γ : Type, ControlStatement γ → Prop}

/-- A part on runs issues what it issues alone. -/
theorem calls_onRuns {tx : Tx α} (h : tx.Calls fun _ statement => allowed _ (.inl statement)) :
    (onRuns tx).Calls allowed :=
  Program.Calls.translate h

/-- A statement on runs issues itself. -/
theorem calls_sql {statement : Statement α} (h : allowed _ (.inl statement)) :
    (onRuns (sql statement)).Calls allowed :=
  calls_onRuns (Tx.calls_sql.mpr h)

/-- A statement on configuration issues itself. -/
theorem calls_issue {statement : ConfigStatement α} (h : allowed _ (.inr statement)) :
    (issue statement).Calls allowed := by
  unfold issue Program.perform
  exact ⟨h, fun _ => trivial⟩

/-- A guarded body issues what lies behind its guard. -/
theorem calls_unless_deny {condition : Prop} [Decidable condition] {failure : Failure}
    {tx : ControlTx α} (h : tx.Calls allowed) :
    (if condition then deny failure else tx : ControlTx α).Calls allowed := by
  split
  · trivial
  · exact h

/-- A statement on runs is handled as in a transaction on runs. -/
theorem handler_inl (statement : Statement β) (state : Database) :
    (controlStore pg session).handler _ (.inl statement) state =
      handler pg session _ statement state := by
  have hanswer : (controlStore pg session).answer _ (.inl statement) state =
      (statement.exec pg session state).mapError .failed := rfl
  rw [Store.handler, hanswer, LabBridge.Server.handler]
  rcases statement.exec pg session state with fault | ⟨answer, reached⟩ <;> rfl

/-- A part on runs yields what it yields alone. -/
theorem yields_onRuns {tx : Tx α} :
    (controlStore pg session).Yields (onRuns tx) db result db' ↔
      Tx.Yields pg session tx db result db' := by
  unfold Store.Yields onRuns Tx.Yields Tx.run
  rw [Program.run_translate fun β statement state => handler_inl statement state]

/-- A statement on configuration is answered as its effect says. -/
theorem answer_inr {statement : ConfigStatement β} {answer : β} :
    (controlStore pg session).answer _ (.inr statement) db = .ok (answer, db') ↔
      statement.exec pg db = .ok (answer, db') := by
  change (statement.exec pg db).mapError _ = _ ↔ _
  rcases statement.exec pg db with fault | ⟨found, reached⟩ <;> simp [Except.mapError]

/-- A statement on runs is answered as its effect says. -/
theorem answer_inl {statement : Statement β} {answer : β} :
    (controlStore pg session).answer _ (.inl statement) db = .ok (answer, db') ↔
      statement.exec pg session db = .ok (answer, db') := by
  change (statement.exec pg session db).mapError _ = _ ↔ _
  rcases statement.exec pg session db with fault | ⟨found, reached⟩ <;> simp [Except.mapError]

/-- A statement on configuration and what follows it yield what follows its answer. -/
theorem yields_issue {statement : ConfigStatement β} {next : β → ControlTx α} :
    (controlStore pg session).Yields (issue statement >>= next) db result db' ↔
      ∃ answer middle, statement.exec pg db = .ok (answer, middle) ∧
        (controlStore pg session).Yields (next answer) middle result db' := by
  unfold issue
  rw [Program.perform_bind, Store.yields_call]
  simp only [answer_inr]

end ControlTx

end LabBridge.Server
