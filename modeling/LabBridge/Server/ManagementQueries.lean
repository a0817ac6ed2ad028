import LabBridge.Library.KeysetPages
import LabBridge.Server.EvidenceStatements
import LabBridge.Server.RunStatements
import LabBridge.Server.UtcTexts

/-!
# The statements of the management queries

Every list statement selects the rows of one table by a filter, cuts them at the cursor, and
answers in descending order of the numeric key. A listed record carries the text of its key.
-/

namespace LabBridge.Server

open ByteText LabBridge.Core Storage

/-- The cursor and the number of rows of a list statement. -/
structure ManagementPageRequest where
  fetchLimit : ℤ
  cursor : Option Bytes

/-- A record with the identifier it is listed by. -/
structure Listed (Record : Type) where
  id : Bytes
  record : Record

/-- A task with its rules in order. -/
structure ManagementTask where
  task : TaskRecord
  qcRuleIds : List Bytes

/-- What the node list filters by. -/
structure NodeListFilter where
  effectiveStatus : Option NodeStatus
  now : Bytes
  offlineAfterSeconds : ℤ

/-- The ticks of a second. -/
def microsecondsPerSecond : ℤ := 1000000

namespace Database

variable (pg : Postgres) (db : Database)

/-- The bound of a cursor. -/
def cursorParam (cursor : Option Bytes) : Answer (Option ℤ) :=
  match cursor with
  | none => pure none
  | some cursor => do pure (some (← accepted (pg.bigint (← pg.textParam cursor))))

/-- The clause of a cursor, the order and the limit of a list statement. -/
def selectPage {Row Record : Type} (rows : List Row) (key : Row → RowId) (selects : Row → Bool)
    (record : Row → Record) (page : ManagementPageRequest) : Answer (List (Listed Record)) := do
  let bound ← cursorParam pg page.cursor
  let selected := (rows.filter fun row =>
    selects row && bound.all fun bound => decide (((key row : ℕ) : ℤ) < bound)).reverse
  pure ((selected.take page.fetchLimit.toNat).map fun row => ⟨decimal (key row), record row⟩)

/-- The projection of a node. -/
def toNodeRecord (node : NodeRow) : NodeRecord where
  nodeCode := node.nodeCode
  name := node.name
  agentVersion := node.agentVersion
  status := node.status
  lastHeartbeatAt := pg.utcColumn node.lastHeartbeatAt

/-- Whether a node is online for the node list at an instant. -/
def isOnlineAt (now : Timestamp) (offlineAfterSeconds : ℤ) (node : NodeRow) : Bool :=
  match node.lastHeartbeatAt with
  | some heartbeat => node.status == .online && decide (heartbeat ≤ now) &&
      decide (now - offlineAfterSeconds * microsecondsPerSecond ≤ heartbeat)
  | none => false

/-- Whether a node passes the filter of the node list. -/
def nodeSelected (filter : NodeListFilter) : Answer (NodeRow → Bool) :=
  match filter.effectiveStatus with
  | none => pure fun _ => true
  | some status => do
    let now ← pg.timeParam filter.now
    pure fun node =>
      if status = .online then isOnlineAt now filter.offlineAfterSeconds node
      else !isOnlineAt now filter.offlineAfterSeconds node

/-- `list_nodes`. -/
def listNodes (filter : NodeListFilter) (page : ManagementPageRequest) :
    Answer (List (Listed NodeRecord)) := do
  let selects ← nodeSelected pg filter
  selectPage pg db.nodes.rows NodeRow.id selects (toNodeRecord pg) page

/-- `find_node_summary`, of which the lists use whether the node exists. -/
def findNodeSummary (nodeCode : Bytes) : Answer Bool := do
  let nodeCode ← pg.textParam nodeCode
  pure (db.nodes.rows.any fun node => node.nodeCode == nodeCode)

/-- Whether an optional column filter holds. -/
def passes {α : Type} [BEq α] (filter : Option α) (value : α) : Bool :=
  filter.all fun wanted => wanted == value

/-- The projection of a data source. -/
def toDataSourceRecord (source : DataSourceRow) : DataSourceRecord where
  id := decimal source.id
  nodeCode := source.nodeCode
  sourceType := source.sourceType
  name := source.name
  configJson := source.configJson
  enabled := source.enabled

/-- `list_data_sources_by_node`. -/
def listDataSourcesByNode (nodeCode : Bytes) (enabled : Option Bool)
    (page : ManagementPageRequest) : Answer (List (Listed DataSourceRecord)) := do
  let nodeCode ← pg.textParam nodeCode
  selectPage pg db.dataSources.rows DataSourceRow.id
    (fun source => source.nodeCode == nodeCode && passes enabled source.enabled)
    toDataSourceRecord page

/-- The projection of a rule. -/
def toQcRuleRecord (rule : QcRuleRow) : QcRuleRecord where
  id := decimal rule.id
  name := rule.name
  ruleType := rule.ruleType
  ruleConfigJson := rule.ruleConfigJson
  enabled := rule.enabled

/-- `list_qc_rules`. -/
def listQcRules (enabled : Option Bool) (page : ManagementPageRequest) :
    Answer (List (Listed QcRuleRecord)) :=
  selectPage pg db.qcRules.rows QcRuleRow.id (fun rule => passes enabled rule.enabled)
    toQcRuleRecord page

/-- The rules of a task, ordered by sort order and rule. -/
def orderedQcRules (taskId : RowId) : List TaskQcRuleRow :=
  (db.taskQcRules.filter fun binding => binding.taskId == taskId).insertionSort
    fun left right => left.sortOrder < right.sortOrder ∨
      left.sortOrder = right.sortOrder ∧ left.qcRuleId ≤ right.qcRuleId

/-- The projection of a task. -/
def toManagementTask (task : TaskRow) : ManagementTask where
  task := {
    id := decimal task.id
    nodeCode := task.nodeCode
    dataSourceId := decimal task.dataSourceId
    name := task.name
    taskType := task.taskType
    scheduleExpr := task.scheduleExpr
    parserType := task.parserType
    qcProfile := task.qcProfile
    enabled := task.enabled }
  qcRuleIds := (db.orderedQcRules task.id).map fun binding => decimal binding.qcRuleId

/-- `list_tasks_by_node`. -/
def listTasksByNode (nodeCode : Bytes) (enabled : Option Bool) (page : ManagementPageRequest) :
    Answer (List (Listed ManagementTask)) := do
  let nodeCode ← pg.textParam nodeCode
  selectPage pg db.tasks.rows TaskRow.id
    (fun task => task.nodeCode == nodeCode && passes enabled task.enabled)
    db.toManagementTask page

/-- An optional identifier of a filter, as the key it can match. -/
def optionalIdParam (value : Option Bytes) : Answer (Option (Option RowId)) :=
  match value with
  | none => pure none
  | some id => do pure (some (← pg.idParam id))

/-- `list_task_runs_by_node`. -/
def listTaskRunsByNode (nodeCode : Bytes) (taskId : Option Bytes) (status : Option TaskRunStatus)
    (page : ManagementPageRequest) : Answer (List (Listed TaskRunRecord)) := do
  let nodeCode ← pg.textParam nodeCode
  let taskId ← optionalIdParam pg taskId
  selectPage pg db.taskRuns.rows TaskRunRow.id
    (fun run => run.nodeCode == nodeCode && passes taskId (some run.taskId) &&
      passes status run.status)
    (toTaskRunRecord pg) page

/-- `find_task_run_summary`, of which the lists use the node of the run. -/
def findTaskRunSummary (taskRunId : Bytes) : Answer (Option Bytes) := do
  let id ← pg.idParam taskRunId
  pure ((id.bind db.taskRuns.find?).map fun run => run.nodeCode)

/-- The projection of a raw file. -/
def toRawFileRecord (file : RawFileRow) : RawFileRecord where
  id := decimal file.id
  taskRunId := decimal file.taskRunId
  nodeCode := file.nodeCode
  originalName := file.originalName
  fileHash := file.fileHash
  storagePath := file.storagePath
  sizeBytes := file.sizeBytes
  sourceMtime := pg.utcColumn file.sourceMtime
  ingestStatus := file.ingestStatus

/-- `list_raw_files_by_run`. -/
def listRawFilesByRun (taskRunId : Bytes) (page : ManagementPageRequest) :
    Answer (List (Listed RawFileRecord)) := do
  let id ← pg.idParam taskRunId
  selectPage pg db.rawFiles.rows RawFileRow.id (fun file => some file.taskRunId == id)
    (toRawFileRecord pg) page

/-- The projection of a parsed record. -/
def toParsedRecordRecord (parsed : ParsedRecordRow) : ParsedRecordRecord where
  taskRunId := decimal parsed.taskRunId
  rawFileId := decimal parsed.rawFileId
  record := ⟨parsed.stationCode, parsed.deviceCode, pg.utcColumn parsed.recordTime,
    parsed.payloadJson⟩
  parseStatus := parsed.parseStatus

/-- `list_parsed_records_by_run`. -/
def listParsedRecordsByRun (taskRunId : Bytes) (page : ManagementPageRequest) :
    Answer (List (Listed ParsedRecordRecord)) := do
  let id ← pg.idParam taskRunId
  selectPage pg db.parsedRecords.rows ParsedRecordRow.id
    (fun parsed => some parsed.taskRunId == id) (toParsedRecordRecord pg) page

/-- The projection of a quality result. -/
def toQcResultRecord (result : QcResultRow) : QcResultRecord where
  id := decimal result.id
  parsedRecordId := decimal result.parsedRecordId
  qcRuleId := decimal result.qcRuleId
  level := result.level
  result := result.result
  message := result.message

/-- The run of the parsed record that a quality result is joined with. -/
def resultRun (result : QcResultRow) : Option RowId :=
  (db.parsedRecords.find? result.parsedRecordId).map fun parsed => parsed.taskRunId

/-- `list_qc_results_by_run`. -/
def listQcResultsByRun (taskRunId : Bytes) (result : Option Bytes)
    (page : ManagementPageRequest) : Answer (List (Listed QcResultRecord)) := do
  let id ← pg.idParam taskRunId
  selectPage pg db.qcResults.rows QcResultRow.id
    (fun row => (db.resultRun row).any (fun run => some run == id) && passes result row.result)
    toQcResultRecord page

/-- `list_alerts_by_node`. -/
def listAlertsByNode (nodeCode : Bytes) (taskRunId status severity : Option Bytes)
    (page : ManagementPageRequest) : Answer (List (Listed AlertRecord)) := do
  let nodeCode ← pg.textParam nodeCode
  let taskRunId ← optionalIdParam pg taskRunId
  selectPage pg db.alerts.rows AlertRow.id
    (fun alert => alert.nodeCode == nodeCode &&
      taskRunId.all (fun id => alert.taskRunId.any fun run => some run == id) &&
      passes status alert.status && passes severity alert.severity)
    (toAlertRecord pg) page

end Database

end LabBridge.Server
