import LabBridge.Wire.AgentCalls
import LabBridge.Wire.Configurations

/-!
# The startup handshake over the wire

An agent that starts registers its node, reports that it is alive and fetches its configuration.
The server accepts all three requests, and what it answers decides what the handshake comes to: the
first request that is not done is raised as it is reported, and when all of them are done the agent
holds what its node is told.
-/

namespace LabBridge

open ByteText JsonText LabBridge.Core Server

variable {R : Runtime} {wire : Wire R}

/-! ## Admission -/

variable (wire) in
/-- A flat record of texts is read by the server as it is printed. -/
theorem Wire.body_texts (fields : List (String × Bytes)) {sent : Bytes}
    (ordered : Json.keysOrdered (fields.map Prod.fst) = true)
    (printed : wire.agent.dumped (.record (fields.map fun field => (field.1, .str field.2))) =
      .ok sent) :
    wire.body sent = some (.record (fields.map fun field => (field.1, .str field.2))) := by
  have hkeys : (fields.map fun field => (field.1, Json.str field.2)).map Prod.fst =
      fields.map Prod.fst := by
    rw [List.map_map]
    rfl
  have hcanonical : (Json.record (fields.map fun field => (field.1, .str field.2))).Canonical := by
    apply Json.Canonical.record
    · rw [hkeys]
      exact ordered
    · exact List.forall_mem_map.mpr fun field _ => .str field.2
  have hdepth : (Json.record (fields.map fun field => (field.1, .str field.2))).depth ≤ 1 :=
    Json.depth_record_le (List.forall_mem_map.mpr fun field _ => by simp [Json.depth])
  exact wire.body_dump hcanonical (hdepth.trans (le_trans (by decide) wire.report_shallow))
    ((Agent.Nlohmann.dumped_eq_ok _).mp printed)

section Admission

variable {authenticator : HttpAuthenticator} {token sent : Bytes}

/-- A registration is accepted with the credential of its node. -/
theorem requireRequest_registration {node : NodeInfo}
    (credential : authenticator.credentials.agentTokens.lookup node.nodeCode = some token)
    (printed : Agent.encodeRegistrationHttpBody wire.agent node = .ok sent) :
    authenticator.requireRequest .register ⟨node.nodeCode, text "Bearer " ++ token, true, wire.body sent⟩ =
      .ok (.register node) := by
  have hbody := wire.body_texts [("agent_version", node.agentVersion), ("name", node.name),
    ("node_code", node.nodeCode)]
    (by simp only [List.map_cons, List.map_nil]; decide) printed
  have hparse : ControlEndpoint.register.parse (wire.body sent) = .ok (.register node) := by
    rw [hbody]
    rfl
  unfold HttpAuthenticator.requireRequest
  rw [requireAgentNode_bearer credential]
  simp [ControlEndpoint.hasBody, hparse, NodeRequest.nodeCode]

/-- A heartbeat is accepted with the credential of its node. -/
theorem requireRequest_heartbeat {beat : NodeHeartbeat}
    (credential : authenticator.credentials.agentTokens.lookup beat.nodeCode = some token)
    (printed : Agent.encodeHeartbeatHttpBody wire.agent beat = .ok sent) :
    authenticator.requireRequest .heartbeat ⟨beat.nodeCode, text "Bearer " ++ token, true, wire.body sent⟩ =
      .ok (.heartbeat beat) := by
  have hbody := wire.body_texts [("agent_version", beat.agentVersion),
    ("node_code", beat.nodeCode), ("reported_at", beat.reportedAt)]
    (by simp only [List.map_cons, List.map_nil]; decide) printed
  have hparse : ControlEndpoint.heartbeat.parse (wire.body sent) = .ok (.heartbeat beat) := by
    rw [hbody]
    rfl
  unfold HttpAuthenticator.requireRequest
  rw [requireAgentNode_bearer credential]
  simp [ControlEndpoint.hasBody, hparse, NodeRequest.nodeCode]

/-- A request for a configuration is accepted with the credential of its node. -/
theorem requireRequest_config {code : Bytes}
    (credential : authenticator.credentials.agentTokens.lookup code = some token) :
    authenticator.requireRequest (.config code) ⟨code, text "Bearer " ++ token, false, none⟩ =
      .ok (.config code) := by
  have hparse : (ControlEndpoint.config code).parse none = .ok (.config code) := rfl
  unfold HttpAuthenticator.requireRequest
  rw [requireAgentNode_bearer credential]
  simp [ControlEndpoint.hasBody, hparse, NodeRequest.nodeCode]

end Admission

/-! ## Answers -/

/-- The end of a request without a reply is reported. -/
theorem respond_stop (read : Bytes → Option Json) (request : NodeRequest) (stop : Stop) :
    ∃ code error message, request.respond read (.error stop) = .failure code error message ∧
      stopError stop = Wire.reportedError code error message := by
  cases stop with
  | refused refusal =>
    refine ⟨_, _, _, ?_, rfl⟩
    change (statusErrorResponse refusal).printed = _
    rw [statusErrorResponse_eq]
    rfl
  | failed fault => exact ⟨_, _, _, rfl, rfl⟩
  | thrown message => exact ⟨_, _, _, rfl, rfl⟩

/-- A reported failure is what a response comes to. -/
theorem successData_stop {request : NodeRequest} {stop : Stop}
    (h : wire.Delivers (request.respond wire.read (.error stop))) :
    ∃ response, wire.response (request.respond wire.read (.error stop)) = .ok response ∧
      Agent.successData wire.agent response = .error (stopError stop) := by
  obtain ⟨code, error, message, hresponse, hstop⟩ := respond_stop wire.read request stop
  rw [hresponse] at h ⊢
  rw [hstop]
  exact ⟨_, Wire.response_eq h, Wire.successData_failure h⟩

/-- A text that is repeated is accepted. -/
theorem responseEchoes_of_field {status : ℕ} {object : Json} {field : String}
    {expected complaint : Bytes} (h : object.field? field = some (.str expected)) :
    Agent.responseEchoes status object field expected complaint = .ok () := by
  simp only [Agent.responseEchoes, responseString_of_field h, Fallible.ok_bind, ne_eq, not_true_eq_false,
    if_false]
  rfl

/-- What is answered to a registration is read. -/
theorem readRegistration_answered {node : NodeInfo} {outcome : Except Stop Unit}
    (h : wire.Delivers ((NodeRequest.register node).respond wire.read
      (outcome.map fun _ => .done))) :
    (do Agent.readRegistration wire.agent node (← wire.response
          ((NodeRequest.register node).respond wire.read (outcome.map fun _ => .done)))) =
      outcome.mapError stopError := by
  cases outcome with
  | error stop =>
    obtain ⟨response, hresponse, hdata⟩ := successData_stop h
    change (do Agent.readRegistration wire.agent node (← wire.response
      ((NodeRequest.register node).respond wire.read (.error stop)))) = _
    rw [hresponse, Fallible.ok_bind]
    simp only [Agent.readRegistration, hdata]
    rfl
  | ok done =>
    have hordered : (Json.record [("node_code", .str node.nodeCode),
        ("status", .str (text "offline"))]).Ordered := by
      apply Json.Ordered.record
      · simp only [List.map_cons, List.map_nil]
        decide
      · simp
    have hprinted : (NodeRequest.register node).respond wire.read
        ((Except.ok done : Except Stop Unit).map fun _ => .done) =
        ⟨201, successBody (.record [("node_code", .str node.nodeCode),
          ("status", .str (text "offline"))])⟩ := rfl
    rw [hprinted] at h ⊢
    obtain ⟨received, hdata, harrives, -⟩ := Wire.successData_success rfl hordered h
    have hcode := harrives.str_of_lookup "node_code" rfl
    have hstatus := harrives.str_of_lookup "status" rfl
    rw [Wire.response_eq h, Fallible.ok_bind]
    simp only [Agent.readRegistration, hdata, Fallible.ok_bind, responseEchoes_of_field hcode,
      responseEchoes_of_field hstatus]
    rfl

/-- What is answered to a heartbeat is read. -/
theorem readHeartbeat_answered {beat : NodeHeartbeat} {outcome : Except Stop Unit}
    (h : wire.Delivers ((NodeRequest.heartbeat beat).respond wire.read
      (outcome.map fun _ => .done))) :
    (do Agent.readHeartbeat wire.agent beat (← wire.response
          ((NodeRequest.heartbeat beat).respond wire.read (outcome.map fun _ => .done)))) =
      outcome.mapError stopError := by
  cases outcome with
  | error stop =>
    obtain ⟨response, hresponse, hdata⟩ := successData_stop h
    change (do Agent.readHeartbeat wire.agent beat (← wire.response
      ((NodeRequest.heartbeat beat).respond wire.read (.error stop)))) = _
    rw [hresponse, Fallible.ok_bind]
    simp only [Agent.readHeartbeat, hdata]
    rfl
  | ok done =>
    have hordered : (Json.record [("node_code", .str beat.nodeCode),
        ("reported_at", .str beat.reportedAt), ("status", .str (text "online"))]).Ordered := by
      apply Json.Ordered.record
      · simp only [List.map_cons, List.map_nil]
        decide
      · simp
    have hprinted : (NodeRequest.heartbeat beat).respond wire.read
        ((Except.ok done : Except Stop Unit).map fun _ => .done) =
        ⟨200, successBody (.record [("node_code", .str beat.nodeCode),
          ("reported_at", .str beat.reportedAt), ("status", .str (text "online"))])⟩ := rfl
    rw [hprinted] at h ⊢
    obtain ⟨received, hdata, harrives, -⟩ := Wire.successData_success rfl hordered h
    have hcode := harrives.str_of_lookup "node_code" rfl
    have hstatus := harrives.str_of_lookup "status" rfl
    have hreported := harrives.str_of_lookup "reported_at" rfl
    rw [Wire.response_eq h, Fallible.ok_bind]
    simp only [Agent.readHeartbeat, hdata, Fallible.ok_bind, responseEchoes_of_field hcode,
      responseEchoes_of_field hstatus, responseEchoes_of_field hreported]
    rfl

/-! ## The handshake -/

variable (wire) in
/-- What the handshake comes to when the server ended its three requests like this. -/
def Wire.handshake (node : NodeInfo) (reportedAt : Bytes) (registered beaten : Except Stop Unit)
    (fetched : Except Stop AgentConfigResult) :
    Except Agent.ControlPlaneClientError Agent.PulledAgentConfig :=
  Agent.performStartupHandshake wire.agent node reportedAt
    (wire.response ((NodeRequest.register node).respond wire.read (registered.map fun _ => .done)))
    (wire.response ((NodeRequest.heartbeat ⟨node.nodeCode, node.agentVersion, reportedAt⟩).respond
      wire.read (beaten.map fun _ => .done)))
    (wire.response ((NodeRequest.config node.nodeCode).respond wire.read (fetched.map .config)))

section Handshake

variable {authenticator : HttpAuthenticator} {token registration heartbeat reportedAt : Bytes}
  {node : NodeInfo} {registered beaten : Except Stop Unit} {fetched : Except Stop AgentConfigResult}
  {kept : Storage.RowId → Prop}

/-- What the handshake comes to once the registration is answered. -/
theorem Wire.handshake_eq (registers : wire.Delivers ((NodeRequest.register node).respond wire.read
      (registered.map fun _ => .done))) :
    wire.handshake node reportedAt registered beaten fetched = (do
      registered.mapError stopError
      let reply ← wire.response ((NodeRequest.heartbeat ⟨node.nodeCode, node.agentVersion,
        reportedAt⟩).respond wire.read (beaten.map fun _ => .done))
      Agent.readHeartbeat wire.agent ⟨node.nodeCode, node.agentVersion, reportedAt⟩ reply
      Agent.fetchConfig wire.agent node.nodeCode (← wire.response
        ((NodeRequest.config node.nodeCode).respond wire.read (fetched.map .config)))) := by
  rw [← readRegistration_answered registers]
  simp only [Wire.handshake, Agent.performStartupHandshake, bind_assoc]

/-- What the handshake comes to once the heartbeat is answered too. -/
theorem Wire.handshake_registered
    (registers : wire.Delivers ((NodeRequest.register node).respond wire.read
      ((Except.ok () : Except Stop Unit).map fun _ => .done)))
    (beats : wire.Delivers ((NodeRequest.heartbeat ⟨node.nodeCode, node.agentVersion,
      reportedAt⟩).respond wire.read (beaten.map fun _ => .done))) :
    wire.handshake node reportedAt (.ok ()) beaten fetched = (do
      beaten.mapError stopError
      Agent.fetchConfig wire.agent node.nodeCode (← wire.response
        ((NodeRequest.config node.nodeCode).respond wire.read (fetched.map .config)))) := by
  rw [Wire.handshake_eq registers, ← readHeartbeat_answered beats]
  simp only [bind_assoc]
  rfl

/-- What is answered to a request for a configuration that was not served is raised. -/
theorem fetchConfig_stop {code : Bytes} {stop : Stop}
    (h : wire.Delivers ((NodeRequest.config code).respond wire.read (.error stop))) :
    (do Agent.fetchConfig wire.agent code
          (← wire.response ((NodeRequest.config code).respond wire.read (.error stop)))) =
      .error (stopError stop) := by
  obtain ⟨response, hresponse, hdata⟩ := successData_stop h
  rw [hresponse, Fallible.ok_bind]
  simp only [Agent.fetchConfig, hdata]
  rfl

end Handshake

namespace Reference

/-- The node that starts. -/
def labNode : NodeInfo := ⟨text "lab-node", text "Lab node", text "0.1.0"⟩

/-- The database is gone. -/
def outage : Stop := .failed .outage

/-- The registration as the agent sends it. -/
def registrationBody : Bytes :=
  Agent.printedText (.record [("agent_version", .str labNode.agentVersion),
    ("name", .str labNode.name), ("node_code", .str labNode.nodeCode)])

/-- The heartbeat as the agent sends it. -/
def heartbeatBody : Bytes :=
  Agent.printedText (.record [("agent_version", .str labNode.agentVersion),
    ("node_code", .str labNode.nodeCode), ("reported_at", .str (text "2024-05-01T08:00:00Z"))])

end Reference

end LabBridge
