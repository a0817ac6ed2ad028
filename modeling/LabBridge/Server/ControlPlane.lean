import LabBridge.Core.CronSchedule
import LabBridge.Server.ConfigStatements
import LabBridge.Server.ManagementCommandService

/-!
# Nodes and configuration

`ManagementCommandService` creates data sources, rules and tasks, each in a transaction.
`NodeService` registers nodes and accepts heartbeats, and `AgentControlService` reads what a node
has to run; their statements are not in a transaction.
-/

namespace LabBridge.Server

open ByteText LabBridge.Core JsonText ControlTx

variable (R : Runtime)

/-- A request for a data source. -/
structure ManagementDataSourceCreateRequest where
  nodeCode : Bytes
  sourceType : SourceType := .localDirectory
  name : Bytes
  configJson : Bytes
  enabled : Bool := true

/-- A request for a rule. -/
structure ManagementQcRuleCreateRequest where
  name : Bytes
  ruleType : Bytes
  ruleConfigJson : Bytes
  enabled : Bool := true

/-- A request for a task. -/
structure ManagementTaskCreateRequest where
  nodeCode : Bytes
  dataSourceId : Bytes
  name : Bytes
  taskType : Bytes
  scheduleExpr : Bytes
  parserType : Bytes
  qcProfile : Bytes
  qcRuleIds : List Bytes
  enabled : Bool := true

namespace ManagementCommandService

/-- `validate_name`. -/
def validateName (name : Bytes) (field : String) : Option Failure :=
  if isBlank name then some (.invalid (text field ++ text " is required"))
  else if 128 < name.length then
    some (.invalid (text field ++ text " must not exceed 128 characters"))
  else none

/-- `successful_result`. -/
def successfulResult {α : Type} : Option α → ControlTx α
  | some record => pure record
  | none => abort "created management object is not readable"

/-- The identifier of a new object. -/
def createdId (failure : String) : Option Bytes → ControlTx Bytes
  | some id => pure id
  | none => abort failure

/-- The extension of a source config that has a root path. -/
def sourceExtension (configJson : Bytes) : Option Bytes :=
  match parseJsonObject R configJson with
  | none => none
  | some config =>
    match config.field? "root_path", config.field? "extension" with
    | some (.str root), some (.str extension) => if isBlank root then none else some extension
    | _, _ => none

/-- `create_data_source`. -/
def createDataSource (request : ManagementDataSourceCreateRequest) :
    ControlTx DataSourceRecord := do
  if isBlank request.nodeCode || 64 < request.nodeCode.length then
    deny (.invalid (text "node_code must contain 1 to 64 characters"))
  else if request.sourceType ≠ .localDirectory then
    deny (.invalid (text "source_type must be local_directory"))
  else
    match validateName request.name "data source name" with
    | some failure => deny failure
    | none =>
      match sourceExtension R request.configJson with
      | none => deny (.invalid
          (text "data source config requires non-empty string root_path and extension"))
      | some extension =>
        if extension.head? ≠ some (byte '.') then
          deny (.invalid (text "data source extension must start with '.'"))
        else
          match ← onRuns (sql (.selectNodeByCode request.nodeCode)) with
          | none => deny (.notFound (text "node is not found"))
          | some _ => do
            let id ← createdId "failed to create data source" (← issue (.insertDataSource {
              id := []
              nodeCode := request.nodeCode
              sourceType := request.sourceType
              name := request.name
              configJson := request.configJson
              enabled := request.enabled }))
            successfulResult (← onRuns (sql (.selectDataSource id)))

/-- `create_qc_rule`. -/
def createQcRule (request : ManagementQcRuleCreateRequest) : ControlTx QcRuleRecord := do
  match validateName request.name "QC rule name" with
  | some failure => deny failure
  | none =>
    if !isSupportedRuleType request.ruleType then
      deny (.invalid (text "unsupported QC rule type"))
    else if !isEmptyObject R request.ruleConfigJson then
      deny (.invalid (text "QC rule config must be an empty object"))
    else do
      let id ← createdId "failed to create qc rule" (← issue (.insertRule {
        id := []
        name := request.name
        ruleType := request.ruleType
        ruleConfigJson := request.ruleConfigJson
        enabled := request.enabled }))
      successfulResult (← onRuns (sql (.selectRule id)))

/-- The checks on the rules of a new task. -/
def checkRuleIds : List Bytes → List Bytes → Option Failure
  | _, [] => none
  | seen, qcRuleId :: rest =>
    if !isPositiveId qcRuleId then
      some (.invalid (text "qc_rule_ids must contain positive integers"))
    else if seen.contains qcRuleId then
      some (.invalid (text "qc_rule_ids must not contain duplicates"))
    else checkRuleIds (qcRuleId :: seen) rest

/-- The checks on a new task that look at the request only. -/
def checkTask (request : ManagementTaskCreateRequest) : Option Failure :=
  if isBlank request.nodeCode || 64 < request.nodeCode.length then
    some (.invalid (text "node_code must contain 1 to 64 characters"))
  else if !isPositiveId request.dataSourceId then
    some (.invalid (text "data_source_id must be a positive integer"))
  else
    match validateName request.name "task name" with
    | some failure => some failure
    | none =>
      if request.taskType ≠ text "local_file_import" then
        some (.invalid (text "task_type must be local_file_import"))
      else if request.parserType ≠ text "csv_observation" then
        some (.invalid (text "parser_type must be csv_observation"))
      else if request.scheduleExpr = [] ∨ 128 < request.scheduleExpr.length then
        some (.invalid (text "schedule_expr must contain 1 to 128 characters"))
      else
        match CronSchedule.parse request.scheduleExpr with
        | .error message => some (.invalid message)
        | .ok _ =>
          if 64 < request.qcProfile.length then
            some (.invalid (text "qc_profile must not exceed 64 characters"))
          else if request.qcRuleIds = [] ∨ 5 < request.qcRuleIds.length then
            some (.invalid (text "qc_rule_ids must contain 1 to 5 IDs"))
          else checkRuleIds [] request.qcRuleIds

/-- The record of a new task. -/
def newTask (request : ManagementTaskCreateRequest) : TaskRecord where
  id := []
  nodeCode := request.nodeCode
  dataSourceId := request.dataSourceId
  name := request.name
  taskType := request.taskType
  scheduleExpr := request.scheduleExpr
  parserType := request.parserType
  qcProfile := request.qcProfile
  enabled := request.enabled

/-- Bind rules to a task, the first at 10 and each ten behind the one before. -/
def bindRules (taskId : Bytes) : ℕ → List Bytes → ControlTx Unit
  | _, [] => pure ()
  | index, qcRuleId :: rest => do
    issue (.upsertTaskQcRule taskId qcRuleId ((index + 1) * 10))
    bindRules taskId (index + 1) rest

/-- `create_task`. -/
def createTask (request : ManagementTaskCreateRequest) : ControlTx ManagementTaskResult := do
  match checkTask request with
  | some failure => deny failure
  | none => do
    onRuns (validateTaskExecutable R (newTask request) request.qcRuleIds)
    let taskId ← createdId "failed to create task" (← issue (.insertTask (newTask request)))
    bindRules taskId 0 request.qcRuleIds
    match ← onRuns (sql (.selectTask taskId)) with
    | none => abort "created management object is not readable"
    | some task =>
      let qcRuleIds ← onRuns (sql (.selectTaskQcRuleIds taskId))
      pure ⟨task, qcRuleIds⟩

end ManagementCommandService

namespace NodeService

/-- `register_node`. -/
def registerNode (node : NodeInfo) : ControlTx Unit := do
  if node.nodeCode = [] then deny (.invalid (text "node_code is required"))
  else if node.name = [] then deny (.invalid (text "node name is required"))
  else issue (.upsertNode {
    nodeCode := node.nodeCode
    name := node.name
    agentVersion := node.agentVersion
    status := .offline
    lastHeartbeatAt := [] })

/-- `accept_heartbeat`. -/
def acceptHeartbeat (heartbeat : NodeHeartbeat) : ControlTx Unit := do
  if heartbeat.nodeCode = [] then deny (.invalid (text "node_code is required"))
  else if heartbeat.reportedAt = [] then deny (.invalid (text "reported_at is required"))
  else
    match ← onRuns (sql (.selectNodeByCode heartbeat.nodeCode)) with
    | none => deny (.notFound (text "node is not registered"))
    | some node => issue (.upsertNode { node with
        status := .online
        agentVersion := heartbeat.agentVersion
        lastHeartbeatAt := heartbeat.reportedAt })

end NodeService

/-- A run that waits for its node, with its fixed inputs. -/
structure PendingExecutionRecord where
  taskRunId : Bytes
  taskId : Bytes
  executionKey : Bytes
  triggerType : Bytes
  requestedAt : Bytes
  retryFiles : List TaskRunRetryFile
  deriving DecidableEq

/-- What a node has to run. -/
structure AgentConfigResult where
  node : NodeRecord
  enabledTasks : List ManagementTaskResult
  dataSources : List DataSourceRecord
  taskQcRules : List TaskQcRuleBinding
  pendingExecutions : List PendingExecutionRecord
  deriving DecidableEq

namespace AgentControlService

/-- A waiting run as the repository reads it; inputs that cannot be read are left out. -/
def toPendingExecution (row : PendingExecutionRow) : PendingExecutionRecord where
  taskRunId := row.taskRunId
  taskId := row.taskId
  executionKey := row.executionKey
  triggerType := row.triggerType
  requestedAt := row.requestedAt
  retryFiles := (parseRetryFilesJson R.json row.retryFiles).getD []

/-- The rules of a task among those that were read. -/
def rulesOf (bindings : List TaskQcRuleBinding) (task : TaskRecord) : List TaskQcRuleBinding :=
  bindings.filter fun binding => binding.taskId == task.id

/-- The tasks whose data source was read. -/
def executable (sources : List DataSourceRecord) (tasks : List TaskRecord) : List TaskRecord :=
  tasks.filter fun task => sources.any fun source => source.id == task.dataSourceId

/-- `find_config` with `find_executable_config`. -/
def findConfig (nodeCode : Bytes) : ControlTx AgentConfigResult := do
  if nodeCode = [] then deny (.invalid (text "node_code is required"))
  else
    match ← onRuns (sql (.selectNodeByCode nodeCode)) with
    | none => deny (.notFound (text "node is not registered"))
    | some node => do
      let tasks ← issue (.selectEnabledTasks nodeCode)
      let sources ← issue (.selectEnabledDataSources nodeCode)
      let bindings ← issue (.selectEnabledTaskQcRules nodeCode)
      let pending ← issue (.selectPendingExecutions nodeCode)
      pure {
        node := node
        enabledTasks := (executable sources tasks).map fun task =>
          ⟨task, (rulesOf bindings task).map TaskQcRuleBinding.qcRuleId⟩
        dataSources := sources
        taskQcRules := (executable sources tasks).flatMap (rulesOf bindings)
        pendingExecutions := pending.map (toPendingExecution R) }

end AgentControlService

end LabBridge.Server
