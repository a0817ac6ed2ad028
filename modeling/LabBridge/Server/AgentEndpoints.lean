import LabBridge.Server.AgentReportHttp
import LabBridge.Server.System

/-!
# The endpoints of an agent

An agent starts runs, registers files and reports over HTTP. A request names its node in a header
and carries the token of the node. The body declares the node once more, and a body that declares
another node is refused before anything is served.
-/

namespace LabBridge.Server

open ByteText LabBridge.Core JsonText AgentReportHttp

/-- `is_valid_hex_token`. -/
def isValidHexToken (value : Bytes) : Bool :=
  value.length == 64 && value.all fun b => 48 ≤ b && b ≤ 57 || 97 ≤ b && b ≤ 102

/-- The token of the operators and the tokens of the nodes. -/
structure CredentialSet where
  managementToken : Bytes
  agentTokens : List (Bytes × Bytes)
  distinct : (agentTokens.map Prod.fst).Nodup

/-- The checks that the authenticator makes on its credentials. -/
def CredentialSet.isAccepted (credentials : CredentialSet) : Bool :=
  isValidHexToken credentials.managementToken && credentials.agentTokens.all fun entry =>
    isValidHexToken entry.2 && entry.2 != credentials.managementToken

/-- `HttpAuthenticator`, on credentials it accepts. -/
structure HttpAuthenticator where
  credentials : CredentialSet
  accepted : credentials.isAccepted = true

/-- What the endpoints read of a request; a missing header is empty, and a body that is no JSON
document is missing. -/
structure HttpRequest where
  nodeCode : Bytes
  authorization : Bytes
  isJson : Bool
  body : Option Json

/-- `bearer_token_equals`. -/
def bearerTokenEquals (request : HttpRequest) (expectedToken : Bytes) : Bool :=
  let scheme := text "Bearer "
  request.authorization.take scheme.length == scheme &&
    request.authorization.drop scheme.length == expectedToken

/-- `require_agent_node`. -/
def HttpAuthenticator.requireAgentNode (authenticator : HttpAuthenticator)
    (request : HttpRequest) : Option Bytes :=
  match authenticator.credentials.agentTokens.lookup request.nodeCode with
  | none => none
  | some expectedToken =>
    if bearerTokenEquals request expectedToken then some request.nodeCode else none

/-- A response with its status code. -/
inductive HttpResponse
  | success (code : ℕ) (data : Reply)
  | failure (code : ℕ) (error message : Bytes)
  deriving DecidableEq

/-- `status_error_response`. -/
def statusErrorResponse (failure : Failure) : HttpResponse :=
  match failure.code with
  | .invalidArgument => .failure 400 (text "invalid_argument") failure.message
  | .notFound => .failure 404 (text "not_found") failure.message
  | .conflict => .failure 409 (text "conflict") failure.message
  | .ok => .failure 500 (text "internal_error") (text "internal server error")

namespace TaskRunHttp

/-- `string_field`. -/
def stringField (body : Json) (field : String) : Parsed Bytes :=
  match body.field? field with
  | none => .error (text field ++ text " is required")
  | some (.str value) => .ok value
  | some _ => .error (text field ++ text " must be a string")

/-- `required_string`. -/
def requiredString (body : Json) (field : String) : Parsed Bytes := do
  let value ← stringField body field
  if value = [] then throw (text field ++ text " must not be empty") else pure value

/-- `parse_start_request`. -/
def parseStartRequest (body : Option Json) : Parsed StartTaskRunRequest :=
  match body with
  | some (.obj fields) => do
    let nodeCode ← requiredString (.obj fields) "node_code"
    let taskId ← requiredString (.obj fields) "task_id"
    let executionKey ← requiredString (.obj fields) "execution_key"
    let startedAt ← requiredString (.obj fields) "started_at"
    let triggerType ← requiredString (.obj fields) "trigger_type"
    let scheduledFor ← stringField (.obj fields) "scheduled_for"
    pure { nodeCode, taskId, startedAt, triggerType, executionKey, scheduledFor }
  | _ => .error (text "request body must contain a JSON object")

end TaskRunHttp

/-- `parse_json_body` of the reports. -/
def parseJsonBody (body : Option Json) : Parsed Json :=
  match body with
  | none => .error (text "request body must contain valid JSON")
  | some document => .ok document

/-- `/api/v1/task-runs/start`, `/api/v1/raw-files/manifest` and `/api/v1/task-runs/report`. -/
inductive AgentEndpoint
  | start
  | manifest
  | report
  deriving DecidableEq

namespace AgentEndpoint

/-- The node that a body declares and the call it asks for. -/
def parse (J : JsonCpp) (body : Option Json) : AgentEndpoint → Parsed (Bytes × Call)
  | start => do
    let request ← TaskRunHttp.parseStartRequest body
    pure (request.nodeCode, .start request)
  | manifest => do
    let request ← parseRawFileManifest J (← parseJsonBody body)
    pure (request.nodeCode, .manifest request)
  | report => do
    let request ← parseTaskRunReport J (← parseJsonBody body)
    pure (request.nodeCode, .report request)

/-- The status code of a success. -/
def successCode : AgentEndpoint → ℕ
  | start => 201
  | manifest => 201
  | report => 200

/-- The response to a served call. -/
def respond (endpoint : AgentEndpoint) : Except Stop Reply → HttpResponse
  | .ok reply => .success endpoint.successCode reply
  | .error (.refused failure) => statusErrorResponse failure
  | .error _ => .failure 500 (text "internal_error") (text "internal server error")

end AgentEndpoint

/-- Serve a request of an agent: the credential, the content type, the body and the declared node
are checked in this order before the call is served. -/
def HttpAuthenticator.serve (authenticator : HttpAuthenticator) (R : Runtime) (J : JsonCpp)
    (endpoint : AgentEndpoint) (request : HttpRequest) (session : Session) (db : Database) :
    HttpResponse × Database :=
  match authenticator.requireAgentNode request with
  | none => (.failure 401 (text "unauthenticated") (text "agent node credential required"), db)
  | some node =>
    if !request.isJson then
      (.failure 415 (text "unsupported_media_type")
        (text "content type must be application/json"), db)
    else
      match endpoint.parse J request.body with
      | .error message => (.failure 400 (text "invalid_argument") message, db)
      | .ok (declared, call) =>
        if node ≠ declared then
          (.failure 403 (text "forbidden") (text "credential authenticates node '" ++ node ++
            text "' but the request declares node '" ++ declared ++ text "'"), db)
        else
          let served := call.serve R session db
          (endpoint.respond served.1, served.2)

/-- An authenticated request fails whatever is stored, or it is a call for its node. -/
theorem HttpAuthenticator.serve_cases (authenticator : HttpAuthenticator) (R : Runtime)
    (J : JsonCpp) (endpoint : AgentEndpoint) {request : HttpRequest} {node : Bytes}
    (hnode : authenticator.requireAgentNode request = some node) :
    (∃ code error message, ∀ session db, authenticator.serve R J endpoint request session db =
        (.failure code error message, db)) ∨
      ∃ call, endpoint.parse J request.body = .ok (node, call) ∧
        ∀ session db, authenticator.serve R J endpoint request session db =
          (endpoint.respond (call.serve R session db).1, (call.serve R session db).2) := by
  unfold serve
  rw [hnode]
  by_cases hjson : request.isJson = true
  · simp only [hjson, Bool.not_true, Bool.false_eq_true, if_false]
    cases hparse : endpoint.parse J request.body with
    | error message => exact .inl ⟨_, _, _, fun _ _ => rfl⟩
    | ok parsed =>
      obtain ⟨declared, call⟩ := parsed
      by_cases hsame : node = declared
      · subst hsame
        exact .inr ⟨call, rfl, by simp⟩
      · exact .inl ⟨403, _, _, fun _ _ => if_pos hsame⟩
  · exact .inl ⟨415, _, _, fun _ _ => if_pos (by simpa using hjson)⟩

/-- The calls that an agent makes for its node. -/
inductive AgentCall (node : Bytes) : Call → Prop
  | start {request : StartTaskRunRequest} (declared : request.nodeCode = node)
      (keyed : request.executionKey ≠ []) : AgentCall node (.start request)
  | manifest {request : RawFileManifestRequest} (declared : request.nodeCode = node) :
      AgentCall node (.manifest request)
  | report {request : TaskRunReportRequest} (declared : request.nodeCode = node) :
      AgentCall node (.report request)

/-- A required field of a start is not empty. -/
theorem TaskRunHttp.requiredString_ok {body : Json} {field : String} {value : Bytes}
    (h : requiredString body field = .ok value) : value ≠ [] := by
  rw [requiredString, Parsed.bind_eq_ok] at h
  obtain ⟨found, -, h⟩ := h
  split at h
  · cases h
  · rename_i hne
    exact Except.ok.inj h ▸ hne

/-- A start that is read carries a key. -/
theorem TaskRunHttp.parseStartRequest_ok {body : Option Json} {request : StartTaskRunRequest}
    (h : parseStartRequest body = .ok request) : request.executionKey ≠ [] := by
  unfold parseStartRequest at h
  split at h
  · simp only [Parsed.bind_eq_ok] at h
    obtain ⟨nodeCode, -, taskId, -, executionKey, hkey, startedAt, -, triggerType, -,
      scheduledFor, -, h⟩ := h
    cases h
    exact requiredString_ok hkey
  · cases h

/-- A body that is read is a call for the node it declares. -/
theorem AgentEndpoint.agentCall_of_parse {J : JsonCpp} {endpoint : AgentEndpoint}
    {body : Option Json} {node : Bytes} {call : Call}
    (h : endpoint.parse J body = .ok (node, call)) : AgentCall node call := by
  cases endpoint with
  | start =>
    simp only [parse, Parsed.bind_eq_ok] at h
    obtain ⟨request, hrequest, h⟩ := h
    cases h
    exact .start rfl (TaskRunHttp.parseStartRequest_ok hrequest)
  | manifest =>
    simp only [parse, Parsed.bind_eq_ok] at h
    obtain ⟨document, -, request, -, h⟩ := h
    cases h
    exact .manifest rfl
  | report =>
    simp only [parse, Parsed.bind_eq_ok] at h
    obtain ⟨document, -, request, -, h⟩ := h
    cases h
    exact .report rfl

end LabBridge.Server
