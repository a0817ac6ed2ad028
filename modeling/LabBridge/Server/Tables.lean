import LabBridge.Library.SerialTable
import LabBridge.Server.Records
import LabBridge.Server.Runtime

/-!
# The schema of the server database

One row type for each table, with the columns the modelled statements read or write. A
node is referred to by its unique code, which is never changed. A nullable column is an
option where a statement tells `NULL` from a value; where every statement turns `NULL` into
the empty text and back, it is a text.
-/

namespace LabBridge.Server

open ByteText LabBridge.Core Storage

/-- `nodes`. -/
structure NodeRow where
  id : RowId
  nodeCode : Bytes
  name : Bytes
  agentVersion : Bytes
  status : NodeStatus
  lastHeartbeatAt : Option Timestamp
  deriving DecidableEq

/-- `data_sources`. -/
structure DataSourceRow where
  id : RowId
  nodeCode : Bytes
  sourceType : SourceType
  name : Bytes
  configJson : Bytes
  enabled : Bool
  deriving DecidableEq

/-- `tasks`. -/
structure TaskRow where
  id : RowId
  nodeCode : Bytes
  dataSourceId : RowId
  name : Bytes
  taskType : Bytes
  scheduleExpr : Bytes
  parserType : Bytes
  qcProfile : Bytes
  enabled : Bool
  deriving DecidableEq

/-- `task_runs`. -/
structure TaskRunRow where
  id : RowId
  taskId : RowId
  nodeCode : Bytes
  status : TaskRunStatus
  startedAt : Option Timestamp := none
  finishedAt : Option Timestamp := none
  itemsTotal : ℤ := 0
  itemsSuccess : ℤ := 0
  itemsFailed : ℤ := 0
  errorSummary : Bytes := []
  triggerType : Bytes
  executionKey : Option Bytes := none
  scheduledFor : Option Timestamp := none
  requestedAt : Option Timestamp := none
  retryOfRunId : Option RowId := none
  failedFiles : Option Bytes := none
  retryFiles : Option Bytes := none
  deriving DecidableEq

/-- Runs an operator asked for. -/
def TaskRunRow.isManual (run : TaskRunRow) : Bool :=
  run.triggerType == text "manual" || run.triggerType == text "retry"

/-- The unique indexes of `task_runs`: an execution key within its node, and the pending
operator run of a task. -/
def TaskRunRow.clash (left right : TaskRunRow) : Bool :=
  left.nodeCode == right.nodeCode && left.executionKey.isSome &&
      left.executionKey == right.executionKey ||
    left.taskId == right.taskId && (left.status == .pending && left.isManual) &&
      (right.status == .pending && right.isManual)

/-- `raw_files`. -/
structure RawFileRow where
  id : RowId
  taskRunId : RowId
  nodeCode : Bytes
  originalName : Bytes
  fileHash : Bytes
  storagePath : Bytes
  sizeBytes : ℤ
  sourceMtime : Option Timestamp
  ingestStatus : Bytes
  deriving DecidableEq

/-- `parsed_records`. -/
structure ParsedRecordRow where
  id : RowId
  rawFileId : RowId
  taskRunId : RowId
  stationCode : Bytes
  deviceCode : Bytes
  recordTime : Option Timestamp
  payloadJson : Bytes
  parseStatus : Bytes
  deriving DecidableEq

/-- `qc_rules`. -/
structure QcRuleRow where
  id : RowId
  name : Bytes
  ruleType : Bytes
  ruleConfigJson : Bytes
  enabled : Bool
  deriving DecidableEq

/-- `task_qc_rules`, whose key is the pair of identifiers. -/
structure TaskQcRuleRow where
  taskId : RowId
  qcRuleId : RowId
  sortOrder : ℤ
  deriving DecidableEq

/-- `qc_results`. -/
structure QcResultRow where
  id : RowId
  parsedRecordId : RowId
  qcRuleId : RowId
  level : Bytes
  result : Bytes
  message : Bytes
  deriving DecidableEq

/-- `alerts`. -/
structure AlertRow where
  id : RowId
  nodeCode : Bytes
  taskRunId : Option RowId
  alertType : Bytes
  severity : Bytes
  message : Bytes
  status : Bytes
  acknowledgedAt : Option Timestamp := none
  closedAt : Option Timestamp := none
  deriving DecidableEq

/-- The four identifier arrays of `response_json`, stored together with `completed_at`. -/
structure StoredResponse where
  rawFileIds : List Bytes
  parsedRecordIds : List Bytes
  qcResultIds : List Bytes
  alertIds : List Bytes
  completedAt : Timestamp
  deriving DecidableEq

/-- `agent_report_receipts`. The completion check of the table makes the response and the
completion time absent together. -/
structure ReceiptRow where
  id : RowId
  nodeCode : Bytes
  taskRunId : RowId
  requestType : AgentReportRequestType
  idempotencyKey : Bytes
  requestFingerprint : Bytes
  response : Option StoredResponse
  deriving DecidableEq

/-- The unique indexes of `agent_report_receipts`: an idempotency key within its node and
request kind, and the report of a run. -/
def ReceiptRow.clash (left right : ReceiptRow) : Bool :=
  left.nodeCode == right.nodeCode && left.requestType == right.requestType &&
      left.idempotencyKey == right.idempotencyKey ||
    left.requestType == .taskRunReport && right.requestType == .taskRunReport &&
      left.taskRunId == right.taskRunId

/-- The unique constraint of `nodes`. -/
def NodeRow.clash (left right : NodeRow) : Bool := left.nodeCode == right.nodeCode

/-- All tables of the server. -/
@[ext] structure Database where
  nodes : SerialTable NodeRow NodeRow.id NodeRow.clash
  dataSources : SerialTable DataSourceRow DataSourceRow.id noClash
  tasks : SerialTable TaskRow TaskRow.id noClash
  taskRuns : SerialTable TaskRunRow TaskRunRow.id TaskRunRow.clash
  rawFiles : SerialTable RawFileRow RawFileRow.id noClash
  parsedRecords : SerialTable ParsedRecordRow ParsedRecordRow.id noClash
  qcRules : SerialTable QcRuleRow QcRuleRow.id noClash
  taskQcRules : List TaskQcRuleRow
  qcResults : SerialTable QcResultRow QcResultRow.id noClash
  alerts : SerialTable AlertRow AlertRow.id noClash
  receipts : SerialTable ReceiptRow ReceiptRow.id ReceiptRow.clash

/-- The freshly created schema. -/
def Database.empty : Database where
  nodes := .empty
  dataSources := .empty
  tasks := .empty
  taskRuns := .empty
  rawFiles := .empty
  parsedRecords := .empty
  qcRules := .empty
  taskQcRules := []
  qcResults := .empty
  alerts := .empty
  receipts := .empty

/-- The stored rows, without the serial counters. -/
@[ext] structure Contents where
  nodes : List NodeRow
  dataSources : List DataSourceRow
  tasks : List TaskRow
  taskRuns : List TaskRunRow
  rawFiles : List RawFileRow
  parsedRecords : List ParsedRecordRow
  qcRules : List QcRuleRow
  taskQcRules : List TaskQcRuleRow
  qcResults : List QcResultRow
  alerts : List AlertRow
  receipts : List ReceiptRow
  deriving DecidableEq

/-- The rows of every table. -/
def Database.contents (db : Database) : Contents where
  nodes := db.nodes.rows
  dataSources := db.dataSources.rows
  tasks := db.tasks.rows
  taskRuns := db.taskRuns.rows
  rawFiles := db.rawFiles.rows
  parsedRecords := db.parsedRecords.rows
  qcRules := db.qcRules.rows
  taskQcRules := db.taskQcRules
  qcResults := db.qcResults.rows
  alerts := db.alerts.rows
  receipts := db.receipts.rows

/-- Undo everything a transaction stored. The serial counters are not rolled back. -/
def Database.rollback (before after : Database) : Database where
  nodes := before.nodes.advance after.nodes.next
  dataSources := before.dataSources.advance after.dataSources.next
  tasks := before.tasks.advance after.tasks.next
  taskRuns := before.taskRuns.advance after.taskRuns.next
  rawFiles := before.rawFiles.advance after.rawFiles.next
  parsedRecords := before.parsedRecords.advance after.parsedRecords.next
  qcRules := before.qcRules.advance after.qcRules.next
  taskQcRules := before.taskQcRules
  qcResults := before.qcResults.advance after.qcResults.next
  alerts := before.alerts.advance after.alerts.next
  receipts := before.receipts.advance after.receipts.next

/-- A rollback restores every stored row. -/
@[simp] theorem Database.contents_rollback (before after : Database) :
    (before.rollback after).contents = before.contents := rfl

end LabBridge.Server
