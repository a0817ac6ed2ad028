import LabBridge.Agent.Errors
import LabBridge.Agent.Requests

/-!
# Reading the configuration of a node

`fetchConfig` reads the body of a configuration response. A data source, a rule, a task or a
pending execution that does not have the expected shape is left out with a log entry; the
rest of the configuration is used.
-/

namespace LabBridge.Agent

open ByteText JsonText LabBridge.Core

/-- What went wrong with a call of the control plane. -/
inductive ControlPlaneErrorKind
  | network
  | httpStatus
  | invalidJson
  | invalidResponse
  | serverError
  deriving DecidableEq, Repr

/-- A failed call of the control plane. -/
structure ControlPlaneClientError where
  kind : ControlPlaneErrorKind
  message : Bytes
  httpStatus : ℕ := 0
  serverCode : Bytes := []
  deriving DecidableEq

/-- A response as it arrives. -/
structure HttpResponse where
  status : ℕ
  body : Bytes

/-- The configuration of a node. -/
structure PulledAgentConfig where
  node : NodeInfo
  status : NodeStatus
  lastHeartbeatAt : Bytes
  tasks : List TaskConfig
  pendingExecutions : List PendingExecution

variable (J : Nlohmann)

/-- The code and text of an error envelope. -/
def serviceError (response : Json) : Option (Bytes × Bytes) :=
  match response.field? "ok", response.field? "error" with
  | some (.bool false), some (.obj error) =>
    match (Json.obj error).field? "code", (Json.obj error).field? "message" with
    | some (.str code), some (.str message) => some (code, message)
    | _, _ => none
  | _, _ => none

/-- A status that reports success. -/
def isSuccess (status : ℕ) : Bool := decide (200 ≤ status ∧ status < 300)

/-- The error of an unsuccessful status. -/
def statusError (status : ℕ) : ControlPlaneClientError :=
  ⟨.httpStatus, text "control plane returned HTTP status " ++ decimal status, status, []⟩

/-- A response of another shape than expected. -/
def invalidResponse (message : Bytes) (status : ℕ) : ControlPlaneClientError :=
  ⟨.invalidResponse, message, status, []⟩

/-- The data of a successful response. -/
def successData (response : HttpResponse) : Except ControlPlaneClientError Json :=
  match J.parse response.body with
  | none =>
    if isSuccess response.status then
      .error ⟨.invalidJson, text "control plane returned invalid JSON", response.status, []⟩
    else .error (statusError response.status)
  | some document =>
    match serviceError document with
    | some (code, message) =>
      .error ⟨.serverError, text "control plane error " ++ code ++ text ": " ++ message,
        response.status, code⟩
    | none =>
      if isSuccess response.status then
        match document.field? "ok", document.field? "data" with
        | some (.bool true), some (.obj data) => .ok (.obj data)
        | _, _ =>
          .error (invalidResponse (text "control plane returned an invalid response envelope")
            response.status)
      else .error (statusError response.status)

/-- A text field of a response; it may be empty. -/
def responseString (status : ℕ) (object : Json) (field : String) :
    Except ControlPlaneClientError Bytes :=
  match object.field? field with
  | some (.str value) => .ok value
  | _ => .error (invalidResponse
      (text "control plane response field '" ++ text field ++ text "' must be a string") status)

/-- A truth value of a response. -/
def responseBoolean (status : ℕ) (object : Json) (field : String) :
    Except ControlPlaneClientError Bool :=
  match object.field? field with
  | some (.bool value) => .ok value
  | _ => .error (invalidResponse
      (text "control plane response field '" ++ text field ++ text "' must be a boolean") status)

/-- A data source of a response. -/
structure SourceProjection where
  id : Bytes
  nodeCode : Bytes
  sourceType : Bytes
  name : Bytes
  configJson : Bytes

/-- A quality rule of a response. -/
structure QcProjection where
  id : Bytes
  taskId : Bytes
  ruleType : Bytes
  name : Bytes
  configJson : Bytes

/-- The printed configuration of an entry, when it is an object. -/
def entryConfig (value : Json) : Option Bytes :=
  match value.field? "config" with
  | some (.obj config) => J.dump (.obj config)
  | _ => none

/-- Read one data source; nothing when it has to be left out. -/
def readSource (status : ℕ) (value : Json) : Option SourceProjection := do
  let configJson ← entryConfig J value
  let id ← (responseString status value "id").toOption
  let nodeCode ← (responseString status value "node_code").toOption
  let sourceType ← (responseString status value "source_type").toOption
  let name ← (responseString status value "name").toOption
  pure { id, nodeCode, sourceType, name, configJson }

/-- Read one rule; nothing when it has to be left out. -/
def readRule (status : ℕ) (value : Json) : Option QcProjection := do
  let configJson ← entryConfig J value
  let id ← (responseString status value "id").toOption
  let taskId ← (responseString status value "task_id").toOption
  let ruleType ← (responseString status value "rule_type").toOption
  let name ← (responseString status value "name").toOption
  pure { id, taskId, ruleType, name, configJson }

/-- The last entry of a list with a given key, as an assigned map keeps it. -/
def lastWith {α : Type} (key : α → Bytes) (entries : List α) (wanted : Bytes) : Option α :=
  entries.reverse.find? fun entry => key entry == wanted

/-- The key of a rule in the map of all rules. -/
def QcProjection.key (rule : QcProjection) : Bytes := rule.taskId ++ text "\n" ++ rule.id

/-- The rule types the agent can run. -/
def supportsRule (ruleType : Bytes) : Bool :=
  ruleType == text "required_fields" || ruleType == text "basic_timestamp_format"

/-- Resolve one rule reference of a task. -/
def readRuleReference (status : ℕ) (rules : List QcProjection) (taskId : Bytes) (value : Json) :
    Except ControlPlaneClientError QcRuleConfig :=
  match value with
  | .str ruleId =>
    match lastWith QcProjection.key rules (taskId ++ text "\n" ++ ruleId) with
    | some rule =>
      if supportsRule rule.ruleType then
        .ok ⟨rule.id, rule.ruleType, rule.name, rule.configJson⟩
      else .error (invalidResponse
        (text "task references an unavailable or unsupported QC rule") status)
    | none => .error (invalidResponse
        (text "task references an unavailable or unsupported QC rule") status)
  | _ => .error (invalidResponse (text "task qc_rule_ids entries must be strings") status)

/-- The rule references of a task. -/
def ruleReferences (status : ℕ) (value : Json) : Except ControlPlaneClientError (List Json) :=
  match value.field? "qc_rule_ids" with
  | some (.arr items) => .ok items
  | _ => .error (invalidResponse (text "control plane task qc_rule_ids must be an array") status)

/-- The data source a task names, when the agent can read it. -/
def readTaskSource (status : ℕ) (nodeCode : Bytes) (sources : List SourceProjection)
    (sourceId : Bytes) : Except ControlPlaneClientError DataSourceConfig :=
  let unavailable := invalidResponse
    (text "task references an unavailable or unsupported data source") status
  match lastWith SourceProjection.id sources sourceId with
  | some source =>
    if source.nodeCode = nodeCode ∧ source.sourceType = text "local_directory" then
      .ok ⟨source.id, source.nodeCode, .localDirectory, source.name, source.configJson⟩
    else .error unavailable
  | none => .error unavailable

/-- Read one task. -/
def readTask (status : ℕ) (node : Bytes) (sources : List SourceProjection)
    (rules : List QcProjection) (value : Json) : Except ControlPlaneClientError TaskConfig := do
  let id ← responseString status value "id"
  let nodeCode ← responseString status value "node_code"
  let dataSourceId ← responseString status value "data_source_id"
  let name ← responseString status value "name"
  let taskType ← responseString status value "task_type"
  let scheduleExpr ← responseString status value "schedule_expr"
  let parserType ← responseString status value "parser_type"
  let qcProfile ← responseString status value "qc_profile"
  let enabled ← responseBoolean status value "enabled"
  let references ← ruleReferences status value
  if nodeCode ≠ node ∨ enabled = false then
    throw (invalidResponse (text "task is outside the requested enabled set") status)
  if taskType ≠ text "local_file_import" ∨ parserType ≠ text "csv_observation" then
    throw (invalidResponse (text "task uses an unsupported task or parser type") status)
  let dataSource ← readTaskSource status node sources dataSourceId
  let qcRules ← references.mapM (readRuleReference status rules id)
  pure {
    id, nodeCode, dataSourceId, name, taskType, scheduleExpr, parserType, qcProfile, enabled,
    dataSource, qcRules }

/-- A text field that may be absent or of another kind. -/
def stringOrEmpty (object : Json) (field : String) : Bytes :=
  match object.field? field with
  | some (.str value) => value
  | _ => []

/-- The size of a retry file; a number that is not an unsigned integer counts as zero, and a
large one wraps. -/
def sizeOrZero (object : Json) : ℤ :=
  match object.field? "size_bytes" with
  | some (.int value) => if 0 ≤ value then value.bmod (2 ^ 64) else 0
  | _ => 0

/-- Read one input of a retry. -/
def readRetryFile (status : ℕ) (file : Json) : Except ControlPlaneClientError RetryFileInput := do
  let inputType ←
    match file.field? "input_type" with
    | some (.str value) => pure value
    | _ => throw (invalidResponse
        (text "retry file must be an object with string input_type") status)
  if inputType ≠ text "archive" ∧ inputType ≠ text "source" then
    throw (invalidResponse (text "retry file input_type must be archive or source") status)
  let sourcePath ← responseString status file "source_path"
  let originalName ← responseString status file "original_name"
  let input : RetryFileInput := {
    inputType, sourcePath, originalName,
    archiveRawFileId := stringOrEmpty file "archive_raw_file_id",
    storagePath := stringOrEmpty file "storage_path",
    sizeBytes := sizeOrZero file,
    fileHash := stringOrEmpty file "file_hash",
    sourceMtime := stringOrEmpty file "source_mtime" }
  if inputType = text "archive" ∧ (input.storagePath = [] ∨ input.fileHash = []) then
    throw (invalidResponse (text "archive retry file requires storage_path and file_hash") status)
  pure input

/-- The inputs of a pending execution; an absent list is empty. -/
def readRetryFiles (status : ℕ) (value : Json) :
    Except ControlPlaneClientError (List RetryFileInput) :=
  match value.field? "retry_files" with
  | none => .ok []
  | some (.arr items) => items.mapM (readRetryFile status)
  | some _ => .error (invalidResponse (text "pending execution retry_files must be an array") status)

/-- Read one pending execution. -/
def readPendingExecution (status : ℕ) (value : Json) :
    Except ControlPlaneClientError PendingExecution := do
  let taskRunId ← responseString status value "task_run_id"
  let taskId ← responseString status value "task_id"
  let executionKey ← responseString status value "execution_key"
  let triggerType ← responseString status value "trigger_type"
  let requestedAt ← responseString status value "requested_at"
  if triggerType ≠ text "manual" ∧ triggerType ≠ text "retry" then
    throw (invalidResponse (text "pending execution trigger_type must be manual or retry") status)
  let retryFiles ← readRetryFiles status value
  pure { taskRunId, taskId, executionKey, triggerType, requestedAt, retryFiles }

/-- A list of a response. -/
def responseArray (data : Json) (field : String) : Option (List Json) :=
  match data.field? field with
  | some (.arr items) => some items
  | _ => none

/-- What a configuration response must contain. -/
def missingParts : Bytes :=
  text "control plane config must contain node, data_sources, qc_rules and tasks"

/-- The status of a node. -/
def readNodeStatus (status : ℕ) (value : Bytes) : Except ControlPlaneClientError NodeStatus :=
  if value = text "online" then .ok .online
  else if value = text "offline" then .ok .offline
  else .error (invalidResponse (text "control plane returned an unknown node status") status)

/-- Read the configuration of a node from a response. -/
def fetchConfig (nodeCode : Bytes) (response : HttpResponse) :
    Except ControlPlaneClientError PulledAgentConfig := do
  let status := response.status
  let data ← successData J response
  match data.field? "node", responseArray data "data_sources", responseArray data "qc_rules",
      responseArray data "tasks" with
  | some (.obj fields), some dataSources, some qcRules, some tasks => do
    let node := Json.obj fields
    let declared ← responseString status node "node_code"
    let name ← responseString status node "name"
    let agentVersion ← responseString status node "agent_version"
    let lastHeartbeatAt ← responseString status node "last_heartbeat_at"
    let nodeStatus ← readNodeStatus status (← responseString status node "status")
    if declared ≠ nodeCode then
      throw (invalidResponse (text "config response node_code does not match the request") status)
    let sources := dataSources.filterMap (readSource J status)
    let rules := qcRules.filterMap (readRule J status)
    pure {
      node := ⟨declared, name, agentVersion⟩
      status := nodeStatus
      lastHeartbeatAt
      tasks := tasks.filterMap fun task => (readTask status nodeCode sources rules task).toOption
      pendingExecutions := ((responseArray data "pending_executions").getD []).filterMap
        fun execution => (readPendingExecution status execution).toOption }
  | _, _, _, _ => throw (invalidResponse missingParts status)

end LabBridge.Agent
