import LabBridge.Agent.ControlPlaneRequests
import LabBridge.Agent.CompactJson
import LabBridge.Library.Fallible
import LabBridge.Library.JsonTransfer
import LabBridge.Server.ResponseBodies

/-!
# Between the agent and the server

The agent and the server use different JSON libraries. What one of them prints the other one reads
back, up to how numbers are written. A response that arrives is read by the client as the data of
its success, or raised as the error that it reports.
-/

namespace LabBridge

open ByteText JsonText LabBridge.Core

/-- The JSON libraries on both sides of a connection. -/
structure Wire (R : Server.Runtime) where
  agent : Agent.Nlohmann
  server : Server.AgentReportHttp.JsonCpp
  /-- `getJsonObject` on the bytes of a body. -/
  body : Bytes → Option Json
  /-- The reader of `stored_json_object`. -/
  read : Bytes → Option Json
  /-- `newHttpJsonResponse`. -/
  print : Json → Bytes
  /-- How deep a document that the server reads may be nested. -/
  readDepth : ℕ
  /-- The text of the failure that a response beyond the limit raises. -/
  overflow : Bytes
  /-- A report is nested five deep. -/
  report_shallow : 5 ≤ readDepth
  body_dump {document : Json} {printed : Bytes} (canonical : document.Canonical)
    (shallow : document.depth ≤ readDepth) (h : agent.dump document = some printed) :
    body printed = some document
  read_parse {stored : Bytes} {document : Json} (h : R.json.parse stored = some document)
    (shallow : document.depth ≤ readDepth) :
    ∃ found, read stored = some found ∧ document.Arrives found ∧ found.Ordered
  parse_print {document : Json} (ordered : document.Ordered) (utf8 : document.utf8 = true) :
    ∃ received, agent.parse (print document) = some received ∧ document.Arrives received ∧
      received.utf8 = true

namespace Wire

variable {R : Server.Runtime} (wire : Wire R)

/-- A response as it arrives. -/
def response (printed : Server.PrintedResponse) :
    Except Agent.ControlPlaneClientError Agent.HttpResponse :=
  Agent.takeResponse wire.overflow ⟨printed.code, wire.print printed.body⟩

/-- A response that arrives: its texts are UTF-8, and it is not too long. -/
structure Delivers (printed : Server.PrintedResponse) : Prop where
  utf8 : printed.body.utf8 = true
  length : (wire.print printed.body).length ≤ Agent.maximumResponseBytes

variable {wire}

/-- A response that arrives is handed to the client. -/
theorem response_eq {printed : Server.PrintedResponse} (h : wire.Delivers printed) :
    wire.response printed = .ok ⟨printed.code, wire.print printed.body⟩ :=
  if_neg (Nat.not_lt.mpr h.length)

/-- A body that is five deep is read when a field is left out. -/
theorem shallow {document : Json} {key : String} (h : document.depth ≤ 5) :
    (document.erase key).depth ≤ wire.readDepth :=
  (Json.depth_erase_le document key).trans (h.trans wire.report_shallow)

/-- The error that a reported failure is raised as. -/
def reportedError (code : ℕ) (error message : Bytes) : Agent.ControlPlaneClientError :=
  ⟨.serverError, text "control plane error " ++ error ++ text ": " ++ message, code, error⟩

/-- A reported failure is ordered. -/
theorem ordered_errorBody (error message : Bytes) : (Server.errorBody error message).Ordered := by
  apply Json.Ordered.record
  · simp only [List.map_cons, List.map_nil]
    decide
  · have hinner : (Json.record [("code", .str error), ("message", .str message)]).Ordered := by
      apply Json.Ordered.record
      · simp only [List.map_cons, List.map_nil]
        decide
      · simp
    simpa using hinner

/-- The envelope of a success is ordered when its data is. -/
theorem ordered_successBody {data : Json} (h : data.Ordered) :
    (Server.successBody data).Ordered := by
  apply Json.Ordered.record
  · simp only [List.map_cons, List.map_nil]
    decide
  · simpa using h

/-- The client raises a reported failure as the error that it reports. -/
theorem successData_failure {code : ℕ} {error message : Bytes}
    (h : wire.Delivers (.failure code error message)) :
    Agent.successData wire.agent ⟨code, wire.print (Server.errorBody error message)⟩ =
      .error (reportedError code error message) := by
  obtain ⟨received, hparse, harrives, -⟩ :=
    wire.parse_print (ordered_errorBody error message) h.utf8
  have hok := harrives.bool_of_lookup "ok" rfl
  obtain ⟨inner, hinner, hreported⟩ := harrives.field_of_lookup "error" rfl
  obtain ⟨fields, rfl⟩ := hreported.obj_eq
  have hcode := hreported.str_of_lookup "code" rfl
  have hmessage := hreported.str_of_lookup "message" rfl
  have hservice : Agent.serviceError received = some (error, message) := by
    simp only [Agent.serviceError, hok, hinner, hcode, hmessage]
  simp only [Agent.successData, hparse, hservice]
  rfl

/-- The client reads the data of a success as it was printed, up to how numbers are written. -/
theorem successData_success {code : ℕ} {fields : List (String × Json)}
    (hcode : Agent.isSuccess code = true) (hordered : (Json.record fields).Ordered)
    (h : wire.Delivers ⟨code, Server.successBody (.record fields)⟩) :
    ∃ received, Agent.successData wire.agent
        ⟨code, wire.print (Server.successBody (.record fields))⟩ = .ok received ∧
      (Json.record fields).Arrives received ∧ received.utf8 = true := by
  obtain ⟨received, hparse, harrives, hutf8⟩ :=
    wire.parse_print (ordered_successBody hordered) h.utf8
  have hok := harrives.bool_of_lookup "ok" rfl
  obtain ⟨arrived, hfound, hdata⟩ := harrives.field_of_lookup "data" rfl
  obtain ⟨values, rfl⟩ := hdata.obj_eq
  have hservice : Agent.serviceError received = none := by
    simp [Agent.serviceError, hok]
  refine ⟨.obj values, ?_, hdata, ?_⟩
  · simp only [Agent.successData, hparse, hservice, hcode, if_true, hok, hfound]
  · exact Json.utf8_of_field? hutf8 hfound

end Wire

/-! ## Reading responses -/

section Responses

variable {status : ℕ} {object : Json} {field : String}

theorem responseString_of_field {value : Bytes} (h : object.field? field = some (.str value)) :
    Agent.responseString status object field = .ok value := by
  simp only [Agent.responseString, h]

theorem responseBoolean_of_field {value : Bool} (h : object.field? field = some (.bool value)) :
    Agent.responseBoolean status object field = .ok value := by
  simp only [Agent.responseBoolean, h]

/-- Texts arrive as they were. -/
theorem arrives_texts {values : List Bytes} {arrived : List Json}
    (h : List.Forall₂ Json.Arrives (values.map Json.str) arrived) : arrived = values.map .str := by
  induction values generalizing arrived with
  | nil => exact List.forall₂_nil_left_iff.mp h
  | cons value rest ih =>
    obtain ⟨first, others, hfirst, hothers, rfl⟩ := List.forall₂_cons_left_iff.mp h
    rw [ih hothers, Json.arrives_str.mp hfirst, List.map_cons]

/-- An array of texts is read text by text. -/
theorem responseStrings_of_field {values : List Bytes}
    (h : object.field? field = some (.arr (values.map .str))) :
    Agent.responseStrings status object field = .ok values := by
  simp only [Agent.responseStrings, h]
  apply Fallible.mapM_eq_ok.mpr
  exact List.forall₂_map_left_iff.mpr (List.forall₂_same.mpr fun _ _ => rfl)

/-- An array of texts of a record arrives as it was. -/
theorem texts_of_lookup {fields : List (String × Json)} {received : Json} {values : List Bytes}
    (h : (Json.record fields).Arrives received) (key : String)
    (hvalue : fields.lookup key = some (Server.stringArray values)) :
    received.field? key = some (.arr (values.map .str)) := by
  obtain ⟨arrived, hfound, hitems⟩ := h.arr_of_lookup key hvalue
  rw [hfound, arrives_texts hitems]

/-- An array of texts is ordered. -/
theorem ordered_stringArray (values : List Bytes) : (Server.stringArray values).Ordered := by
  simp [Server.stringArray]

end Responses

end LabBridge
