import LabBridge.Agent.ControlPlaneClient
import LabBridge.Agent.ExecutionRequestCodec
import LabBridge.Agent.ReliableDelivery

/-!
# Requests to the control plane

Every request of `ControlPlaneClient` prints a body, sends it with the credential of the node,
and reads the response. A response longer than a mebibyte does not arrive.
-/

namespace LabBridge.Agent

open ByteText JsonText LabBridge.Core

/-- The stored identifiers of a manifest. -/
structure RawFileManifestResult where
  rawFileIds : List Bytes
  replayed : Bool := false
  deriving DecidableEq

/-- The stored identifiers of a report. -/
structure TaskRunReportResult where
  parsedRecordIds : List Bytes
  qcResultIds : List Bytes
  alertIds : List Bytes
  replayed : Bool := false
  deriving DecidableEq

/-- The kind of an exception as the delivery client tells them apart. -/
def ControlPlaneErrorKind.toTaskExecution : ControlPlaneErrorKind → TaskExecutionErrorKind
  | .network => .network
  | .serverError => .serverError
  | .invalidJson => .invalidResponse
  | .invalidResponse => .invalidResponse
  | .httpStatus => .httpStatus

/-- A failed call as an exception of the execution client. -/
def ControlPlaneClientError.toTaskExecution (error : ControlPlaneClientError) :
    TaskExecutionClientError :=
  ⟨error.kind.toTaskExecution, error.message, error.httpStatus⟩

/-- `kMaximumResponseBytes`. -/
def maximumResponseBytes : ℕ := 1024 * 1024

/-- `take_response`: what is left of a response, with the text of the failure that a longer one
raises. -/
def takeResponse (overflow : Bytes) (response : HttpResponse) :
    Except ControlPlaneClientError HttpResponse :=
  if maximumResponseBytes < response.body.length then
    .error ⟨.network, text "control plane network failure: " ++ overflow, 0, []⟩
  else .ok response

variable (J : Nlohmann)

/-- `required_string_array`. -/
def responseStrings (status : ℕ) (object : Json) (field : String) :
    Except ControlPlaneClientError (List Bytes) :=
  match object.field? field with
  | some (.arr items) => items.mapM fun item =>
    match item with
    | .str value => .ok value
    | _ => .error (invalidResponse (text "control plane response field '" ++ text field ++
        text "' entries must be strings") status)
  | _ => .error (invalidResponse (text "control plane response field '" ++ text field ++
      text "' must be an array") status)

/-- A field of a response that repeats what was asked for. -/
def responseEchoes (status : ℕ) (object : Json) (field : String) (expected complaint : Bytes) :
    Except ControlPlaneClientError Unit := do
  if (← responseString status object field) ≠ expected then
    throw (invalidResponse complaint status)

/-! ## Registrations and heartbeats -/

/-- The body of a registration. -/
def encodeRegistrationHttpBody (node : NodeInfo) : Except AgentError Bytes :=
  J.dumped (.record [
    ("agent_version", .str node.agentVersion),
    ("name", .str node.name),
    ("node_code", .str node.nodeCode)])

/-- `register_node`: what is answered to a registration. -/
def readRegistration (node : NodeInfo) (response : HttpResponse) :
    Except ControlPlaneClientError Unit := do
  let status := response.status
  let data ← successData J response
  responseEchoes status data "node_code" node.nodeCode
    (text "registration response node_code does not match the request")
  responseEchoes status data "status" (text "offline")
    (text "registration response status must be offline")

/-- The body of a heartbeat. -/
def encodeHeartbeatHttpBody (heartbeat : NodeHeartbeat) : Except AgentError Bytes :=
  J.dumped (.record [
    ("agent_version", .str heartbeat.agentVersion),
    ("node_code", .str heartbeat.nodeCode),
    ("reported_at", .str heartbeat.reportedAt)])

/-- `send_heartbeat`: what is answered to a heartbeat. -/
def readHeartbeat (heartbeat : NodeHeartbeat) (response : HttpResponse) :
    Except ControlPlaneClientError Unit := do
  let status := response.status
  let data ← successData J response
  responseEchoes status data "node_code" heartbeat.nodeCode
    (text "heartbeat response node_code does not match the request")
  responseEchoes status data "status" (text "online")
    (text "heartbeat response status must be online")
  responseEchoes status data "reported_at" heartbeat.reportedAt
    (text "heartbeat response reported_at does not match the request")

/-! ## The startup handshake -/

/-- `perform_startup_handshake`: what the answers to the three requests come to. -/
def performStartupHandshake (node : NodeInfo) (reportedAt : Bytes)
    (registration heartbeat config : Except ControlPlaneClientError HttpResponse) :
    Except ControlPlaneClientError PulledAgentConfig := do
  readRegistration J node (← registration)
  readHeartbeat J ⟨node.nodeCode, node.agentVersion, reportedAt⟩ (← heartbeat)
  fetchConfig J node.nodeCode (← config)

/-! ## Runs -/

/-- `start_task_run`: what is answered to a start. -/
def readStarted (response : HttpResponse) :
    Except ControlPlaneClientError StartTaskRunResult := do
  let status := response.status
  let data ← successData J response
  let taskRunId ← responseString status data "task_run_id"
  let replayed ← responseBoolean status data "replayed"
  let runStatus ← responseString status data "run_status"
  pure { taskRunId, replayed, runStatus }

/-- `report_raw_file_manifest`: what is answered to a manifest. -/
def readManifestAccepted (response : HttpResponse) :
    Except ControlPlaneClientError RawFileManifestResult := do
  let status := response.status
  let data ← successData J response
  let rawFileIds ← responseStrings status data "raw_file_ids"
  let replayed ← responseBoolean status data "replayed"
  pure { rawFileIds, replayed }

/-- `report_task_run`: what is answered to a report. -/
def readReportAccepted (response : HttpResponse) :
    Except ControlPlaneClientError TaskRunReportResult := do
  let status := response.status
  let data ← successData J response
  let parsedRecordIds ← responseStrings status data "parsed_record_ids"
  let qcResultIds ← responseStrings status data "qc_result_ids"
  let alertIds ← responseStrings status data "alert_ids"
  let replayed ← responseBoolean status data "replayed"
  pure { parsedRecordIds, qcResultIds, alertIds, replayed }

end LabBridge.Agent
