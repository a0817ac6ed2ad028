import LabBridge.Server.AgentEndpoints
import LabBridge.Server.ControlSystem
import LabBridge.Server.NodeStatusFilter

/-!
# What the controllers print

A response is an envelope around the data of a success or around a code and a message. The
configuration of a node is printed with the stored documents of its data sources and rules in it;
one that is no object makes the request fail.
-/

namespace LabBridge.Server

open ByteText LabBridge.Core JsonText AgentReportHttp

/-- `success_response`. -/
def successBody (data : Json) : Json := .record [("data", data), ("ok", .bool true)]

/-- `error_response`. -/
def errorBody (code message : Bytes) : Json :=
  .record [
    ("error", .record [("code", .str code), ("message", .str message)]),
    ("ok", .bool false)]

/-- `string_array`. -/
def stringArray (values : List Bytes) : Json := .arr (values.map .str)

/-- The data of a reply, as the controllers of an agent print it. -/
def Reply.data? : Reply → Option Json
  | start result => some (.record [
      ("replayed", .bool result.replayed),
      ("run_status", .str result.runStatus),
      ("task_run_id", .str result.id)])
  | manifest result => some (.record [
      ("raw_file_ids", stringArray result.rawFileIds),
      ("replayed", .bool result.replayed)])
  | report result => some (.record [
      ("alert_ids", stringArray result.alertIds),
      ("parsed_record_ids", stringArray result.parsedRecordIds),
      ("qc_result_ids", stringArray result.qcResultIds),
      ("replayed", .bool result.replayed)])
  | _ => none

/-! ## Responses -/

/-- A status code with the document of a response. -/
structure PrintedResponse where
  code : ℕ
  body : Json

/-- A response that reports a failure. -/
def PrintedResponse.failure (code : ℕ) (error message : Bytes) : PrintedResponse :=
  ⟨code, errorBody error message⟩

/-- `handle_unexpected_exception`. -/
def PrintedResponse.unexpected : PrintedResponse :=
  .failure 500 (text "internal_error") (text "internal server error")

/-- A response as it is printed. A reply of another controller has no data here. -/
def HttpResponse.printed : HttpResponse → PrintedResponse
  | success code reply =>
    match reply.data? with
    | some data => ⟨code, successBody data⟩
    | none => .unexpected
  | failure code error message => .failure code error message

/-- A refusal as it is printed. -/
def PrintedResponse.refused (refusal : Failure) : PrintedResponse :=
  (statusErrorResponse refusal).printed

/-! ## Configurations -/

namespace AgentControlHttp

variable (read : Bytes → Option Json)

/-- `stored_json_object`. -/
def storedJsonObject (stored : Bytes) : Option Json :=
  match read stored with
  | some (.obj fields) => some (.obj fields)
  | _ => none

/-- `data_source_json`. -/
def dataSourceJson (source : DataSourceRecord) : Option Json := do
  let config ← storedJsonObject read source.configJson
  pure (.record [
    ("config", config),
    ("id", .str source.id),
    ("name", .str source.name),
    ("node_code", .str source.nodeCode),
    ("source_type", .str (sourceTypeToStorage source.sourceType))])

/-- `task_json`. -/
def taskJson (projected : ManagementTaskResult) : Json :=
  .record [
    ("data_source_id", .str projected.task.dataSourceId),
    ("enabled", .bool projected.task.enabled),
    ("id", .str projected.task.id),
    ("name", .str projected.task.name),
    ("node_code", .str projected.task.nodeCode),
    ("parser_type", .str projected.task.parserType),
    ("qc_profile", .str projected.task.qcProfile),
    ("qc_rule_ids", stringArray projected.qcRuleIds),
    ("schedule_expr", .str projected.task.scheduleExpr),
    ("task_type", .str projected.task.taskType)]

/-- `qc_rule_json`. -/
def qcRuleJson (binding : TaskQcRuleBinding) : Option Json := do
  let config ← storedJsonObject read binding.ruleConfigJson
  pure (.record [
    ("config", config),
    ("id", .str binding.qcRuleId),
    ("name", .str binding.name),
    ("rule_type", .str binding.ruleType),
    ("task_id", .str binding.taskId)])

/-- One input of a waiting run. -/
def retryFileJson (file : TaskRunRetryFile) : Json :=
  .record [
    ("archive_raw_file_id", .str file.archiveRawFileId),
    ("file_hash", .str file.fileHash),
    ("input_type", .str file.inputType),
    ("original_name", .str file.originalName),
    ("size_bytes", .int file.sizeBytes),
    ("source_mtime", .str file.sourceMtime),
    ("source_path", .str file.sourcePath),
    ("storage_path", .str file.storagePath)]

/-- `pending_execution_json`. -/
def pendingExecutionJson (execution : PendingExecutionRecord) : Json :=
  .record [
    ("execution_key", .str execution.executionKey),
    ("requested_at", .str execution.requestedAt),
    ("retry_files", .arr (execution.retryFiles.map retryFileJson)),
    ("task_id", .str execution.taskId),
    ("task_run_id", .str execution.taskRunId),
    ("trigger_type", .str execution.triggerType)]

/-- The node of a configuration. -/
def nodeJson (node : NodeRecord) : Json :=
  .record [
    ("agent_version", .str node.agentVersion),
    ("last_heartbeat_at", .str node.lastHeartbeatAt),
    ("name", .str node.name),
    ("node_code", .str node.nodeCode),
    ("status", .str (statusText node.status))]

/-- `config_json`. -/
def configJson (result : AgentConfigResult) : Option Json := do
  let dataSources ← result.dataSources.mapM (dataSourceJson read)
  let qcRules ← result.taskQcRules.mapM (qcRuleJson read)
  pure (.record [
    ("data_sources", .arr dataSources),
    ("node", nodeJson result.node),
    ("pending_executions", .arr (result.pendingExecutions.map pendingExecutionJson)),
    ("qc_rules", .arr qcRules),
    ("tasks", .arr (result.enabledTasks.map taskJson))])

/-! ## The endpoints -/

/-- `parse_json_body`. -/
def parseJsonBody (body : Option Json) : Parsed Json := do
  let document ← Server.parseJsonBody body
  requireObject document (text "request body")
  pure document

/-- `parse_registration`. -/
def parseRegistration (body : Json) : Parsed NodeInfo := do
  let nodeCode ← AgentReportHttp.requiredString body "node_code" []
  let name ← AgentReportHttp.requiredString body "name" []
  let agentVersion ← AgentReportHttp.requiredString body "agent_version" []
  pure { nodeCode, name, agentVersion }

/-- `parse_heartbeat`. -/
def parseHeartbeat (body : Json) : Parsed NodeHeartbeat := do
  let nodeCode ← AgentReportHttp.requiredString body "node_code" []
  let agentVersion ← AgentReportHttp.requiredString body "agent_version" []
  let reportedAt ← AgentReportHttp.requiredString body "reported_at" []
  pure { nodeCode, agentVersion, reportedAt }

end AgentControlHttp

/-- `/api/v1/agents/register`, `/api/v1/agents/heartbeat` and `/api/v1/agents/{nodeCode}/config`. -/
inductive ControlEndpoint
  | register
  | heartbeat
  | config (nodeCode : Bytes)

/-- The request that a body makes; a configuration is asked for in the path. -/
def ControlEndpoint.parse (body : Option Json) : ControlEndpoint → Parsed NodeRequest
  | register => do
    pure (.register (← AgentControlHttp.parseRegistration (← AgentControlHttp.parseJsonBody body)))
  | heartbeat => do
    pure (.heartbeat (← AgentControlHttp.parseHeartbeat (← AgentControlHttp.parseJsonBody body)))
  | config nodeCode => pure (.config nodeCode)

/-- Whether the content type of a request counts. -/
def ControlEndpoint.hasBody : ControlEndpoint → Bool
  | config _ => false
  | _ => true

namespace NodeRequest

/-- The node that a request declares. -/
def nodeCode : NodeRequest → Bytes
  | register node => node.nodeCode
  | heartbeat beat => beat.nodeCode
  | config nodeCode => nodeCode

/-- The data of a request that is done. -/
def doneJson : NodeRequest → Option Json
  | register node => some (.record [
      ("node_code", .str node.nodeCode),
      ("status", .str (text "offline"))])
  | heartbeat beat => some (.record [
      ("node_code", .str beat.nodeCode),
      ("reported_at", .str beat.reportedAt),
      ("status", .str (text "online"))])
  | config _ => none

/-- The status code of a success. -/
def successCode : NodeRequest → ℕ
  | register _ => 201
  | _ => 200

/-- The data of a reply, unless a stored document is no object. -/
def data? (read : Bytes → Option Json) (request : NodeRequest) : NodeReply → Option Json
  | .done => request.doneJson
  | .config result => AgentControlHttp.configJson read result

/-- The response to a served request. -/
def respond (read : Bytes → Option Json) (request : NodeRequest) :
    Except Stop NodeReply → PrintedResponse
  | .ok reply =>
    match request.data? read reply with
    | some data => ⟨request.successCode, successBody data⟩
    | none => .unexpected
  | .error (.refused refusal) => .refused refusal
  | .error _ => .unexpected

end NodeRequest

/-- Check a request for the control plane: the credential, the content type, the body and the
declared node, in this order. -/
def HttpAuthenticator.requireRequest (authenticator : HttpAuthenticator) (endpoint : ControlEndpoint)
    (request : HttpRequest) : Except PrintedResponse NodeRequest :=
  match authenticator.requireAgentNode request with
  | none => .error (.failure 401 (text "unauthenticated") (text "agent node credential required"))
  | some node =>
    if endpoint.hasBody && !request.isJson then
      .error (.failure 415 (text "unsupported_media_type")
        (text "content type must be application/json"))
    else
      match endpoint.parse request.body with
      | .error message => .error (.failure 400 (text "invalid_argument") message)
      | .ok parsed =>
        if node ≠ parsed.nodeCode then
          .error (.failure 403 (text "forbidden") (text "credential authenticates node '" ++ node ++
            text "' but the request declares node '" ++ parsed.nodeCode ++ text "'"))
        else .ok parsed

end LabBridge.Server
