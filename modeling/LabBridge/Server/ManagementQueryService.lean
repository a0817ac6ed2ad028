import LabBridge.Server.ManagementQueries
import LabBridge.Server.TaskRunService

/-!
# The list operations of the management queries

Every list operation checks its request, looks up the node, the task or the run it is about,
fetches one row more than a page holds, and answers with the page and the cursor behind it.
-/

namespace LabBridge.Server

open ByteText LabBridge.Core Storage

/-- The page a client asks for. -/
structure PageInput where
  limit : ℤ
  cursor : Option Bytes

/-- A page of records. -/
structure ManagementPage (Record : Type) where
  items : List (Listed Record)
  nextCursor : Option Bytes
  hasMore : Bool

/-- A node with the status it is shown with. The status is missing where the arithmetic of the
clock overflows, which the language leaves undefined. -/
structure ManagementNode where
  record : NodeRecord
  effectiveStatus : Option NodeStatus

/-- A run with whether it is shown as stale; this is missing as for a node. -/
structure ManagementTaskRun where
  record : TaskRunRecord
  stale : Option Bool
  staleAfterSeconds : Int32

/-- A request of the node list. -/
structure NodeListRequest where
  status : Option Bytes
  page : PageInput

/-- A request of a list of a node. -/
structure NodeScopedListRequest where
  nodeCode : Bytes
  enabled : Option Bool
  page : PageInput

/-- A request of the rule list. -/
structure QcRuleListRequest where
  enabled : Option Bool
  page : PageInput

/-- A request of the run list. -/
structure TaskRunListRequest where
  nodeCode : Bytes
  taskId : Option Bytes
  status : Option Bytes
  page : PageInput

/-- A request of a list of a run. -/
structure RunScopedListRequest where
  taskRunId : Bytes
  page : PageInput

/-- A request of the list of quality results. -/
structure QcResultListRequest where
  taskRunId : Bytes
  result : Option Bytes
  page : PageInput

/-- A request of the alert list. -/
structure AlertListRequest where
  nodeCode : Bytes
  taskRunId : Option Bytes
  status : Option Bytes
  severity : Option Bytes
  page : PageInput

/-- Refuse a request unless a condition holds. -/
def require (condition : Prop) [Decidable condition] (failure : Failure) : Except Stop Unit :=
  if condition then .ok () else .error (.refused failure)

/-- The answer of a statement to a service. -/
def answered {α : Type} (answer : Answer α) : Except Stop α := answer.mapError .failed

/-- `validate_page`. -/
def validatePage (page : PageInput) : Except Stop Unit := do
  require (1 ≤ page.limit ∧ page.limit ≤ 100)
    (.invalid (text "limit must be between 1 and 100"))
  require (page.cursor.all isPositiveId = true)
    (.invalid (text "cursor must be a positive integer"))

/-- `repository_page`. -/
def repositoryPage (page : PageInput) : ManagementPageRequest := ⟨page.limit + 1, page.cursor⟩

/-- `trim_page`. -/
def trimPage {Record : Type} (rows : List (Listed Record)) (limit : ℤ) : ManagementPage Record :=
  let hasMore := decide (limit.toNat < rows.length)
  let items := if hasMore then rows.take limit.toNat else rows
  { items, nextCursor := if hasMore then items.getLast?.map Listed.id else none, hasMore }

/-- Show the records of a list. -/
def Listed.map {α β : Type} (f : α → β) (listed : Listed α) : Listed β :=
  ⟨listed.id, f listed.record⟩

/-- A time point of some seconds, unless it overflows. -/
def clockTime? (seconds : ℤ) : Option ClockTime :=
  if h : FitsClock (seconds * 1000000000) then some ⟨_, h⟩ else none

/-- The time between two time points, unless it overflows. -/
def elapsed? (later earlier : ClockTime) : Option ℤ :=
  if FitsClock (later.nanoseconds - earlier.nanoseconds) then
    some (later.nanoseconds - earlier.nanoseconds)
  else none

/-- `effective_status`. -/
def effectiveStatus (node : NodeRecord) (now : ClockTime) (offlineAfterSeconds : Int32) :
    Option NodeStatus :=
  if node.status ≠ .online then some .offline
  else
    match parseUtcTimestamp node.lastHeartbeatAt with
    | none => some .offline
    | some seconds => do
      let heartbeat ← clockTime? seconds
      if now.nanoseconds < heartbeat.nanoseconds then some .offline
      else do
        let elapsed ← elapsed? now heartbeat
        some (if offlineAfterSeconds.toInt * 1000000000 < elapsed then .offline else .online)

/-- `is_stale`. -/
def isStale (run : TaskRunRecord) (now : ClockTime) (staleAfterSeconds : Int32) : Option Bool :=
  if run.status ≠ .running then some false
  else
    match parseUtcTimestamp run.startedAt with
    | none => some false
    | some seconds => do
      let started ← clockTime? seconds
      if now.nanoseconds < started.nanoseconds then some false
      else do
        let elapsed ← elapsed? now started
        some (decide (staleAfterSeconds.toInt * 1000000000 < elapsed))

/-- `parse_node_status`. -/
def parseNodeStatus (value : Option Bytes) : Option NodeStatus :=
  if value = some (text "online") then some .online
  else if value = some (text "offline") then some .offline
  else none

/-- `parse_run_status`. -/
def parseRunStatus (value : Option Bytes) : Option TaskRunStatus :=
  if value = some (text "pending") then some .pending
  else if value = some (text "running") then some .running
  else if value = some (text "succeeded") then some .succeeded
  else if value = some (text "failed") then some .failed
  else none

/-- `validate_node_code`. -/
def validateNodeCode (nodeCode : Bytes) : Except Stop Unit :=
  require (nodeCode ≠ [] ∧ nodeCode.length ≤ 64)
    (.invalid (text "node_code must contain 1 to 64 characters"))

/-- The service of one request. -/
structure ManagementQueryService where
  postgres : Postgres
  now : ClockTime
  nodeOfflineAfterSeconds : Int32
  taskRunStaleAfterSeconds : Int32

namespace ManagementQueryService

variable (service : ManagementQueryService) (db : Database)

/-- Refuse a node that is not stored. -/
def requireNode (nodeCode : Bytes) : Except Stop Unit := do
  let found ← answered (db.findNodeSummary service.postgres nodeCode)
  require (found = true) (.notFound (text "node is not found"))

/-- Refuse a run that is not stored. -/
def requireTaskRun (taskRunId : Bytes) : Except Stop Unit := do
  let found ← answered (db.findTaskRunSummary service.postgres taskRunId)
  require (found.isSome = true) (.notFound (text "task run is not found"))

/-- `list_nodes`. -/
def listNodes (request : NodeListRequest) : Except Stop (ManagementPage ManagementNode) := do
  validatePage request.page
  let status := parseNodeStatus request.status
  require (request.status.isSome = true → status.isSome = true)
    (.invalid (text "status must be online or offline"))
  let records ← answered (db.listNodes service.postgres
    ⟨status, formatUtcTimestamp service.now.seconds, service.nodeOfflineAfterSeconds.toInt⟩
    (repositoryPage request.page))
  pure (trimPage (records.map (Listed.map fun node =>
    ⟨node, effectiveStatus node service.now service.nodeOfflineAfterSeconds⟩)) request.page.limit)

/-- `list_data_sources`. -/
def listDataSources (request : NodeScopedListRequest) :
    Except Stop (ManagementPage DataSourceRecord) := do
  validateNodeCode request.nodeCode
  validatePage request.page
  service.requireNode db request.nodeCode
  let records ← answered (db.listDataSourcesByNode service.postgres request.nodeCode
    request.enabled (repositoryPage request.page))
  pure (trimPage records request.page.limit)

/-- `list_qc_rules`. -/
def listQcRules (request : QcRuleListRequest) : Except Stop (ManagementPage QcRuleRecord) := do
  validatePage request.page
  let records ← answered (db.listQcRules service.postgres request.enabled
    (repositoryPage request.page))
  pure (trimPage records request.page.limit)

/-- `list_tasks`. -/
def listTasks (request : NodeScopedListRequest) : Except Stop (ManagementPage ManagementTask) := do
  validateNodeCode request.nodeCode
  validatePage request.page
  service.requireNode db request.nodeCode
  let records ← answered (db.listTasksByNode service.postgres request.nodeCode request.enabled
    (repositoryPage request.page))
  pure (trimPage records request.page.limit)

/-- The task of a run list must be one of the node. -/
def requireTask (nodeCode : Bytes) (taskId : Option Bytes) : Except Stop Unit :=
  match taskId with
  | none => pure ()
  | some id => do
    let task ← answered (db.selectTask service.postgres id)
    require (task.map TaskRecord.nodeCode = some nodeCode)
      (.notFound (text "task is not found"))

/-- `list_task_runs`. -/
def listTaskRuns (request : TaskRunListRequest) :
    Except Stop (ManagementPage ManagementTaskRun) := do
  validateNodeCode request.nodeCode
  validatePage request.page
  let status := parseRunStatus request.status
  require (request.status.isSome = true → status.isSome = true)
    (.invalid (text "status must be pending, running, succeeded or failed"))
  require (request.taskId.all isPositiveId = true)
    (.invalid (text "task_id must be a positive integer"))
  service.requireNode db request.nodeCode
  service.requireTask db request.nodeCode request.taskId
  let records ← answered (db.listTaskRunsByNode service.postgres request.nodeCode request.taskId
    status (repositoryPage request.page))
  pure (trimPage (records.map (Listed.map fun run =>
    ⟨run, isStale run service.now service.taskRunStaleAfterSeconds,
      service.taskRunStaleAfterSeconds⟩)) request.page.limit)

/-- `list_raw_files`. -/
def listRawFiles (request : RunScopedListRequest) :
    Except Stop (ManagementPage RawFileRecord) := do
  validatePage request.page
  require (isPositiveId request.taskRunId = true)
    (.invalid (text "task_run_id must be a positive integer"))
  service.requireTaskRun db request.taskRunId
  let records ← answered (db.listRawFilesByRun service.postgres request.taskRunId
    (repositoryPage request.page))
  pure (trimPage records request.page.limit)

/-- `list_parsed_records`. -/
def listParsedRecords (request : RunScopedListRequest) :
    Except Stop (ManagementPage ParsedRecordRecord) := do
  validatePage request.page
  require (isPositiveId request.taskRunId = true)
    (.invalid (text "task_run_id must be a positive integer"))
  service.requireTaskRun db request.taskRunId
  let records ← answered (db.listParsedRecordsByRun service.postgres request.taskRunId
    (repositoryPage request.page))
  pure (trimPage records request.page.limit)

/-- `list_qc_results`. -/
def listQcResults (request : QcResultListRequest) :
    Except Stop (ManagementPage QcResultRecord) := do
  validatePage request.page
  require (isPositiveId request.taskRunId = true)
    (.invalid (text "task_run_id must be a positive integer"))
  require (request.result.all (fun result => result == text "passed" || result == text "failed") =
    true) (.invalid (text "result must be passed or failed"))
  service.requireTaskRun db request.taskRunId
  let records ← answered (db.listQcResultsByRun service.postgres request.taskRunId request.result
    (repositoryPage request.page))
  pure (trimPage records request.page.limit)

/-- The run of an alert list must be one of the node. -/
def requireRunOfNode (nodeCode : Bytes) (taskRunId : Option Bytes) : Except Stop Unit :=
  match taskRunId with
  | none => pure ()
  | some id => do
    let run ← answered (db.findTaskRunSummary service.postgres id)
    require (run = some nodeCode) (.notFound (text "task run is not found"))

/-- `list_alerts`. -/
def listAlerts (request : AlertListRequest) : Except Stop (ManagementPage AlertRecord) := do
  validateNodeCode request.nodeCode
  validatePage request.page
  require (request.taskRunId.all isPositiveId = true)
    (.invalid (text "task_run_id must be a positive integer"))
  require (request.status.all (fun status =>
    status == text "open" || status == text "acknowledged" || status == text "closed") = true)
    (.invalid (text "status must be open, acknowledged or closed"))
  require (request.severity.all (fun severity =>
    severity == text "warning" || severity == text "failed") = true)
    (.invalid (text "severity must be warning or failed"))
  service.requireNode db request.nodeCode
  service.requireRunOfNode db request.nodeCode request.taskRunId
  let records ← answered (db.listAlertsByNode service.postgres request.nodeCode request.taskRunId
    request.status request.severity (repositoryPage request.page))
  pure (trimPage records request.page.limit)

end ManagementQueryService

end LabBridge.Server
