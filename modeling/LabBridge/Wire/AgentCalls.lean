import LabBridge.Agent.CodecRoundTrip
import LabBridge.Wire.Reference

/-!
# Calls of an agent over the wire

The agent prints a start, a manifest or a report, the server reads, checks and serves it, and the
agent reads the response. For every request that the agent can send, a call over the wire is the
transaction of the server: its result and its refusal arrive as they are, and no other outcome
looks like a decision of the server.
-/

namespace LabBridge

open ByteText JsonText LabBridge.Core Server.AgentReportHttp

/-! ## Requests -/

/-- A request of the execution client, with what it is answered. -/
inductive AgentRequest : Type → Type
  | start (request : Agent.StartTaskRunRequest) : AgentRequest Agent.StartTaskRunResult
  | manifest (request : Agent.RawFileManifestRequest) : AgentRequest Agent.RawFileManifestResult
  | report (request : Agent.TaskRunReportRequest) : AgentRequest Agent.TaskRunReportResult

/-- A start as the server reads it. -/
def startRequest (request : Agent.StartTaskRunRequest) : Server.StartTaskRunRequest where
  nodeCode := request.nodeCode
  taskId := request.taskId
  startedAt := request.startedAt
  triggerType := request.triggerType
  executionKey := request.executionKey
  scheduledFor := request.scheduledFor

/-- A file of a manifest as the server reads it. -/
def manifestEntry (file : Agent.RawFileManifestEntry) : Server.RawFileManifestEntry where
  originalName := file.originalName
  fileHash := file.fileHash
  storagePath := file.storagePath
  sizeBytes := file.sizeBytes
  sourceMtime := file.sourceMtime
  ingestStatus := file.ingestStatus

/-- A manifest as the server reads it. -/
def manifestRequest (request : Agent.RawFileManifestRequest) : Server.RawFileManifestRequest where
  taskRunId := request.taskRunId
  nodeCode := request.nodeCode
  idempotencyKey := request.idempotencyKey
  files := request.files.map manifestEntry

/-- A rule result as the server reads it. -/
def qcResult (result : Agent.TaskRunReportQcResult) : Server.TaskRunReportQcResult where
  qcRuleId := result.qcRuleId
  level := result.level
  result := result.result
  message := result.message

/-- A parsed row as the server reads it. -/
def parsedRecord (parsed : Agent.TaskRunReportParsedRecord) :
    Server.TaskRunReportParsedRecord where
  rawFileId := parsed.rawFileId
  record := parsed.record
  parseStatus := parsed.parseStatus
  qcResults := parsed.qcResults.map qcResult

/-- A failed file as the server reads it. -/
def failedFile (failed : Agent.TaskRunReportFailedFile) : Server.TaskRunFailedFile where
  sourcePath := failed.sourcePath
  originalName := failed.originalName
  stage := failed.stage
  message := failed.message
  archiveRawFileId := failed.archiveRawFileId

/-- A report as the server reads it. -/
def reportRequest (request : Agent.TaskRunReportRequest) : Server.TaskRunReportRequest where
  taskRunId := request.taskRunId
  nodeCode := request.nodeCode
  idempotencyKey := request.idempotencyKey
  status := request.status
  finishedAt := request.finishedAt
  itemsTotal := request.itemsTotal
  itemsSuccess := request.itemsSuccess
  itemsFailed := request.itemsFailed
  errorSummary := request.errorSummary
  hasFailedFiles := request.hasFailedFiles
  failedFiles := if request.hasFailedFiles then request.failedFiles.map failedFile else []
  parsedRecords := request.parsedRecords.map parsedRecord

namespace AgentRequest

variable {α : Type}

/-- The node that a request declares. -/
def nodeCode : AgentRequest α → Bytes
  | start request => request.nodeCode
  | manifest request => request.nodeCode
  | report request => request.nodeCode

/-- Where a request is sent. -/
def endpoint : AgentRequest α → Server.AgentEndpoint
  | start _ => .start
  | manifest _ => .manifest
  | report _ => .report

/-- The body that is sent. -/
def body (J : Agent.Nlohmann) : AgentRequest α → Except Agent.AgentError Bytes
  | start request => Agent.encodeStartTaskRunHttpBody J request
  | manifest request => Agent.encodeRawFileManifestHttpBody J request
  | report request => Agent.encodeTaskRunReportHttpBody J request

/-- How the response is read. -/
def read (J : Agent.Nlohmann) :
    AgentRequest α → Agent.HttpResponse → Except Agent.ControlPlaneClientError α
  | start _ => Agent.readStarted J
  | manifest _ => Agent.readManifestAccepted J
  | report _ => Agent.readReportAccepted J

/-- The call that the server serves. -/
def call : AgentRequest α → Server.Call
  | start request => .start (startRequest request)
  | manifest request => .manifest (manifestRequest request)
  | report request => .report (reportRequest request)

/-- What the transaction of the server answers. -/
def serve (R : Server.Runtime) (session : Server.Session) (db : Server.Database) :
    AgentRequest α → Except Server.Stop α × Server.Database
  | start request =>
    let served := (Server.TaskRunService.start (startRequest request)).execute R.postgres session db
    (served.1.map fun result => ⟨result.id, result.replayed, result.runStatus⟩, served.2)
  | manifest request =>
    let served := (Server.AgentReportService.acceptRawFileManifest R
      (manifestRequest request)).execute R.postgres session db
    (served.1.map fun result => ⟨result.rawFileIds, result.replayed⟩, served.2)
  | report request =>
    let served := (Server.AgentReportService.acceptTaskRunReport R
      (reportRequest request)).execute R.postgres session db
    (served.1.map fun result =>
      ⟨result.parsedRecordIds, result.qcResultIds, result.alertIds, result.replayed⟩, served.2)

/-- A request that the server can read: the fields of a start are there, the numbers fit, and the
observations are JSON documents. -/
def Sendable (server : JsonCpp) : AgentRequest α → Prop
  | start request => Agent.PersistableStart request
  | manifest request => ∀ file ∈ request.files, Json.Fits file.sizeBytes
  | report request => Agent.Counted request ∧
      ∀ parsed ∈ request.parsedRecords, server.isValidText parsed.record.payloadJson = true

end AgentRequest

/-- Send a request with the credential of its node. -/
def Wire.send {R : Server.Runtime} (wire : Wire R) (authenticator : Server.HttpAuthenticator)
    (token : Bytes) {α : Type} (request : AgentRequest α) (body : Bytes)
    (session : Server.Session) (db : Server.Database) :
    Except Agent.ControlPlaneClientError α × Server.Database :=
  let served := authenticator.serve R wire.server request.endpoint
    ⟨request.nodeCode, text "Bearer " ++ token, true, wire.body body⟩ session db
  (do request.read wire.agent (← wire.response served.1.printed), served.2)

/-! ## Reading bodies -/

section Reading

variable {J : JsonCpp} {object : Json} {field : String} {path value : Bytes}

theorem requiredString_of_field (h : object.field? field = some (.str value)) :
    requiredString object field path = .ok value := by
  simp only [requiredString, h]

theorem optionalString_of_field {fallback : Bytes} (h : object.field? field = some (.str value)) :
    optionalString object field fallback path = .ok value := by
  simp only [optionalString, h]

theorem optionalArray_of_field {items : List Json} (h : object.field? field = some (.arr items)) :
    optionalArray object field path = .ok items := by
  simp only [optionalArray, h]

/-- An integer that fits is read. -/
theorem optionalInteger_of_field {width : ℕ} {number : ℤ}
    (h : object.field? field = some (.int number))
    (fits : -(2 ^ (width - 1)) ≤ number ∧ number < 2 ^ (width - 1)) :
    optionalInteger J width object field path = .ok number := by
  simp only [optionalInteger, h, integerValue, Option.filter_some, decide_eq_true fits, if_true]

/-- The items of an array are read one by one. -/
theorem parseItems_map {α β : Type} {encode : α → Json} {translate : α → β}
    {parse : Json → Bytes → Parsed β} {items : List α}
    (hobject : ∀ item, ∃ fields, encode item = .obj fields)
    (h : ∀ item ∈ items, ∀ path, parse (encode item) path = .ok (translate item)) (index : ℕ) :
    parseItems path parse index (items.map encode) = .ok (items.map translate) := by
  induction items generalizing index with
  | nil => rfl
  | cons item rest ih =>
    obtain ⟨fields, hfields⟩ := hobject item
    have hrest := ih (fun other hother => h other (List.mem_cons_of_mem _ hother)) (index + 1)
    have hitem := h item List.mem_cons_self
    rw [hfields] at hitem
    simp only [List.map_cons, parseItems, hfields, requireObject, hitem, hrest]
    rfl

end Reading

/-- A text of a start is read when it is there. -/
theorem startString_of_field {object : Json} {field : String} {value : Bytes}
    (h : object.field? field = some (.str value)) (hne : value ≠ []) :
    Server.TaskRunHttp.requiredString object field = .ok value := by
  simp only [Server.TaskRunHttp.requiredString, Server.TaskRunHttp.stringField, h]
  exact if_neg hne

/-- A body has the fields of the persisted object but its version. -/
theorem exists_body (fields : List (String × Json)) : ∃ sent,
    (Json.record fields).erase "codec_version" = .obj sent ∧
      ∀ key, key ≠ "codec_version" → (Json.obj sent).field? key = fields.lookup key := by
  refine ⟨_, rfl, fun key hne => ?_⟩
  have herased : ((Json.record fields).erase "codec_version").field? key =
      (Json.record fields).field? key := Json.field?_erase hne
  exact herased.trans (Json.field?_record fields key)

/-- A start that can be persisted is read as it is. -/
theorem parseStartRequest_encode {request : Agent.StartTaskRunRequest}
    (h : Agent.PersistableStart request) :
    Server.TaskRunHttp.parseStartRequest
      (some ((Agent.encodeStartTaskRunRequestJson request).erase "codec_version")) =
      .ok (startRequest request) := by
  have htrigger : request.triggerType ≠ [] := by
    rcases h.triggerType with ⟨htype, -⟩ | htype | htype <;> rw [htype] <;> decide
  rw [Agent.encodeStartTaskRunRequestJson]
  obtain ⟨sent, hsent, hfield⟩ := exists_body _
  rw [hsent]
  have hslot : Server.TaskRunHttp.stringField (.obj sent) "scheduled_for" =
      .ok request.scheduledFor := by
    simp [Server.TaskRunHttp.stringField, hfield, List.lookup_cons]
  have hnode := startString_of_field (hfield "node_code" (by decide)) h.nodeCode
  have htask := startString_of_field (hfield "task_id" (by decide)) h.taskId
  have hkey := startString_of_field (hfield "execution_key" (by decide)) h.executionKey
  have hstarted := startString_of_field (hfield "started_at" (by decide)) h.startedAt
  have htype := startString_of_field (hfield "trigger_type" (by decide)) htrigger
  simp only [Server.TaskRunHttp.parseStartRequest, hnode, htask, hkey, hstarted, htype, hslot]
  rfl

variable {J : JsonCpp}

/-- A file of a manifest is read as it is when its size fits. -/
theorem parseManifestEntry_encode {file : Agent.RawFileManifestEntry}
    (fits : Json.Fits file.sizeBytes) (path : Bytes) :
    parseManifestEntry J (Agent.encodeManifestEntry file) path = .ok (manifestEntry file) := by
  have hsize : optionalInt64 J (Agent.encodeManifestEntry file) "size_bytes" path =
      .ok file.sizeBytes :=
    optionalInteger_of_field (by simp [Agent.encodeManifestEntry, List.lookup_cons]) fits
  simp only [parseManifestEntry, hsize]
  simp [Agent.encodeManifestEntry, requiredString, optionalString, List.lookup_cons]
  rfl

/-- A manifest is read as it is when the sizes fit. -/
theorem parseRawFileManifest_encode {request : Agent.RawFileManifestRequest}
    (h : ∀ file ∈ request.files, Json.Fits file.sizeBytes) :
    parseRawFileManifest J
      ((Agent.encodeRawFileManifestRequestJson request).erase "codec_version") =
      .ok (manifestRequest request) := by
  rw [Agent.encodeRawFileManifestRequestJson]
  obtain ⟨sent, hsent, hfield⟩ := exists_body _
  rw [hsent]
  have hfiles : parseItems (text "files") (parseManifestEntry J) 0
      (request.files.map Agent.encodeManifestEntry) = .ok (request.files.map manifestEntry) :=
    parseItems_map (fun file => ⟨_, rfl⟩) (fun file hfile => parseManifestEntry_encode (h file hfile)) 0
  have hrun : requiredString (.obj sent) "task_run_id" [] = .ok request.taskRunId :=
    requiredString_of_field (hfield "task_run_id" (by decide))
  have hnode : requiredString (.obj sent) "node_code" [] = .ok request.nodeCode :=
    requiredString_of_field (hfield "node_code" (by decide))
  have hkey : requiredString (.obj sent) "idempotency_key" [] = .ok request.idempotencyKey :=
    requiredString_of_field (hfield "idempotency_key" (by decide))
  have hitems : optionalArray (.obj sent) "files" [] =
      .ok (request.files.map Agent.encodeManifestEntry) :=
    optionalArray_of_field (hfield "files" (by decide))
  simp only [parseRawFileManifest, requireObject, hrun, hnode, hkey, hitems, Fallible.ok_bind, hfiles]
  rfl

/-- A rule result of a report is read as it is. -/
theorem parseQcResult_encode (result : Agent.TaskRunReportQcResult) (path : Bytes) :
    parseQcResult (Agent.encodeQcResult result) path = .ok (qcResult result) := by
  simp [parseQcResult, Agent.encodeQcResult, requiredString, optionalString, List.lookup_cons]
  rfl

/-- A row of a report is read as it is when its observation is a document. -/
theorem parseParsedRecord_encode {parsed : Agent.TaskRunReportParsedRecord}
    (h : J.isValidText parsed.record.payloadJson = true) (path : Bytes) :
    parseParsedRecord J (Agent.encodeParsedRecord parsed) path = .ok (parsedRecord parsed) := by
  have hitems : optionalArray (Agent.encodeParsedRecord parsed) "qc_results" path =
      .ok (parsed.qcResults.map Agent.encodeQcResult) :=
    optionalArray_of_field (by simp [Agent.encodeParsedRecord, List.lookup_cons])
  have hresults : parseItems (fieldPath path "qc_results") parseQcResult 0
      (parsed.qcResults.map Agent.encodeQcResult) = .ok (parsed.qcResults.map qcResult) :=
    parseItems_map (fun result => ⟨_, rfl⟩) (fun result _ => parseQcResult_encode result) 0
  have hpayload : requiredString (Agent.encodeParsedRecord parsed) "payload_json" path =
      .ok parsed.record.payloadJson :=
    requiredString_of_field (by simp [Agent.encodeParsedRecord, List.lookup_cons])
  have hfile : requiredString (Agent.encodeParsedRecord parsed) "raw_file_id" path =
      .ok parsed.rawFileId :=
    requiredString_of_field (by simp [Agent.encodeParsedRecord, List.lookup_cons])
  have hstation : optionalString (Agent.encodeParsedRecord parsed) "station_code" [] path =
      .ok parsed.record.stationCode :=
    optionalString_of_field (by simp [Agent.encodeParsedRecord, List.lookup_cons])
  have hdevice : optionalString (Agent.encodeParsedRecord parsed) "device_code" [] path =
      .ok parsed.record.deviceCode :=
    optionalString_of_field (by simp [Agent.encodeParsedRecord])
  have htime : optionalString (Agent.encodeParsedRecord parsed) "record_time" [] path =
      .ok parsed.record.recordTime :=
    optionalString_of_field (by simp [Agent.encodeParsedRecord, List.lookup_cons])
  have hstatus : optionalString (Agent.encodeParsedRecord parsed) "parse_status" (text "parsed")
      path = .ok parsed.parseStatus :=
    optionalString_of_field (by simp [Agent.encodeParsedRecord, List.lookup_cons])
  simp only [parseParsedRecord, hfile, hstation, hdevice, htime, hpayload, hstatus, hitems,
    Fallible.ok_bind, h, Bool.not_true, Bool.false_eq_true, if_false, hresults]
  rfl

/-- A failed file of a report is read as it is. -/
theorem parseFailedFile_encode (failed : Agent.TaskRunReportFailedFile) (path : Bytes) :
    parseFailedFile (Agent.encodeFailedFile failed) path = .ok (failedFile failed) := by
  simp [parseFailedFile, Agent.encodeFailedFile, requiredString, optionalString, List.lookup_cons]
  rfl

/-- A status that can be sent is read as it is. -/
theorem parseTaskRunStatus_encode {status : TaskRunStatus} {encoded : Bytes}
    (h : Agent.encodeTerminalStatus status = .ok encoded) :
    parseTaskRunStatus encoded = .ok status := by
  cases status with
  | succeeded =>
    cases h
    rfl
  | failed =>
    cases h
    exact if_neg (by decide)
  | pending | running => cases h

/-- A report is read as it is when its counters fit and its observations are documents. -/
theorem parseTaskRunReport_encode {request : Agent.TaskRunReportRequest} {status : Bytes}
    (counted : Agent.Counted request) (hstatus : Agent.encodeTerminalStatus request.status = .ok status)
    (h : ∀ parsed ∈ request.parsedRecords, J.isValidText parsed.record.payloadJson = true) :
    parseTaskRunReport J ((Agent.reportJson request status).erase "codec_version") =
      .ok (reportRequest request) := by
  rw [Agent.reportJson]
  obtain ⟨sent, hsent, hfield⟩ := exists_body _
  rw [hsent]
  have hrun : requiredString (.obj sent) "task_run_id" [] = .ok request.taskRunId :=
    requiredString_of_field ((hfield "task_run_id" (by decide)).trans (by split <;> rfl))
  have hnode : requiredString (.obj sent) "node_code" [] = .ok request.nodeCode :=
    requiredString_of_field ((hfield "node_code" (by decide)).trans (by split <;> rfl))
  have hkey : requiredString (.obj sent) "idempotency_key" [] = .ok request.idempotencyKey :=
    requiredString_of_field ((hfield "idempotency_key" (by decide)).trans (by split <;> rfl))
  have hended : requiredString (.obj sent) "status" [] = .ok status :=
    requiredString_of_field ((hfield "status" (by decide)).trans (by split <;> rfl))
  have hfinished : optionalString (.obj sent) "finished_at" [] [] = .ok request.finishedAt :=
    optionalString_of_field ((hfield "finished_at" (by decide)).trans (by split <;> rfl))
  have htotal : optionalInt J (.obj sent) "items_total" [] = .ok request.itemsTotal :=
    optionalInteger_of_field ((hfield "items_total" (by decide)).trans (by split <;> rfl))
      counted.itemsTotal
  have hsuccess : optionalInt J (.obj sent) "items_success" [] = .ok request.itemsSuccess :=
    optionalInteger_of_field ((hfield "items_success" (by decide)).trans (by split <;> rfl))
      counted.itemsSuccess
  have hfailures : optionalInt J (.obj sent) "items_failed" [] = .ok request.itemsFailed :=
    optionalInteger_of_field ((hfield "items_failed" (by decide)).trans (by split <;> rfl))
      counted.itemsFailed
  have hsummary : optionalString (.obj sent) "error_summary" [] [] = .ok request.errorSummary :=
    optionalString_of_field ((hfield "error_summary" (by decide)).trans (by split <;> rfl))
  have hitems : optionalArray (.obj sent) "parsed_records" [] =
      .ok (request.parsedRecords.map Agent.encodeParsedRecord) :=
    optionalArray_of_field ((hfield "parsed_records" (by decide)).trans (by split <;> rfl))
  have hrecords : parseItems (text "parsed_records") (parseParsedRecord J) 0
      (request.parsedRecords.map Agent.encodeParsedRecord) =
      .ok (request.parsedRecords.map parsedRecord) :=
    parseItems_map (fun parsed => ⟨_, rfl⟩)
      (fun parsed hparsed => parseParsedRecord_encode (h parsed hparsed)) 0
  have hfailed : parseFailedFiles (.obj sent) =
      .ok (if request.hasFailedFiles then some (request.failedFiles.map failedFile) else none) := by
    have hlist := hfield "failed_files" (by decide)
    have hfiles : parseItems (text "failed_files") parseFailedFile 0
        (request.failedFiles.map Agent.encodeFailedFile) =
        .ok (request.failedFiles.map failedFile) :=
      parseItems_map (fun failed => ⟨_, rfl⟩) (fun failed _ => parseFailedFile_encode failed) 0
    split at hlist
    · rename_i hlisted
      have hfound : (Json.obj sent).field? "failed_files" =
          some (.arr (request.failedFiles.map Agent.encodeFailedFile)) := hlist
      have harray : optionalArray (.obj sent) "failed_files" [] =
          .ok (request.failedFiles.map Agent.encodeFailedFile) := optionalArray_of_field hfound
      simp only [parseFailedFiles, hfound, harray, Fallible.ok_bind, hfiles, hlisted, if_true]
      rfl
    · rename_i hlisted
      have hnone : (Json.obj sent).field? "failed_files" = none := hlist
      simp only [parseFailedFiles, hnone, hlisted]
      rfl
  simp only [parseTaskRunReport, requireObject, hrun, hnode, hkey, hended, hfinished, htotal,
    hsuccess, hfailures, hsummary, hitems, hfailed, Fallible.ok_bind, parseTaskRunStatus_encode hstatus,
    hrecords]
  rw [reportRequest]
  cases request.hasFailedFiles <;> rfl

/-! ## How deep bodies are -/

/-- A start is one deep. -/
theorem depth_encodeStartTaskRunRequestJson (request : Agent.StartTaskRunRequest) :
    (Agent.encodeStartTaskRunRequestJson request).depth ≤ 1 := by
  apply Json.depth_record_le
  simp [Json.depth]

/-- A manifest is three deep. -/
theorem depth_encodeRawFileManifestRequestJson (request : Agent.RawFileManifestRequest) :
    (Agent.encodeRawFileManifestRequestJson request).depth ≤ 3 := by
  have hfile (file : Agent.RawFileManifestEntry) : (Agent.encodeManifestEntry file).depth ≤ 1 := by
    apply Json.depth_record_le
    simp [Json.depth]
  have hfiles : (Json.arr (request.files.map Agent.encodeManifestEntry)).depth ≤ 2 :=
    Json.depth_arr_le (List.forall_mem_map.mpr fun file _ => hfile file)
  apply Json.depth_record_le
  simpa [Json.depth] using hfiles

/-- A report is five deep. -/
theorem depth_reportJson (request : Agent.TaskRunReportRequest) (status : Bytes) :
    (Agent.reportJson request status).depth ≤ 5 := by
  have hresult (result : Agent.TaskRunReportQcResult) : (Agent.encodeQcResult result).depth ≤ 1 := by
    apply Json.depth_record_le
    simp [Json.depth]
  have hparsed (parsed : Agent.TaskRunReportParsedRecord) :
      (Agent.encodeParsedRecord parsed).depth ≤ 3 := by
    have hresults : (Json.arr (parsed.qcResults.map Agent.encodeQcResult)).depth ≤ 2 :=
      Json.depth_arr_le (List.forall_mem_map.mpr fun result _ => hresult result)
    apply Json.depth_record_le
    simpa [Json.depth] using hresults
  have hfailed (failed : Agent.TaskRunReportFailedFile) :
      (Agent.encodeFailedFile failed).depth ≤ 1 := by
    apply Json.depth_record_le
    simp [Json.depth]
  have hrecords : (Json.arr (request.parsedRecords.map Agent.encodeParsedRecord)).depth ≤ 4 :=
    Json.depth_arr_le (List.forall_mem_map.mpr fun parsed _ => hparsed parsed)
  have hfiles : (Json.arr (request.failedFiles.map Agent.encodeFailedFile)).depth ≤ 4 :=
    (Json.depth_arr_le (List.forall_mem_map.mpr fun failed _ => hfailed failed)).trans (by decide)
  unfold Agent.reportJson
  apply Json.depth_record_le
  rw [Json.depth] at hrecords hfiles
  cases request.hasFailedFiles with
  | false => simpa [Json.depth] using hrecords
  | true =>
    simp [Json.depth]
    omega

/-! ## Calls -/

/-- The code that the envelope of a refusal carries. -/
def refusalName (refusal : Failure) : Bytes :=
  match refusal.code with
  | .invalidArgument => text "invalid_argument"
  | .notFound => text "not_found"
  | .conflict => text "conflict"
  | .ok => text "internal_error"

/-- What a client takes the end of a transaction without a result for. -/
def stopError : Server.Stop → Agent.ControlPlaneClientError
  | .refused refusal =>
    Wire.reportedError (errorCode refusal) (refusalName refusal) refusal.message
  | .failed _ | .thrown _ =>
    Wire.reportedError 500 (text "internal_error") (text "internal server error")

/-- The envelope of a refusal. -/
theorem statusErrorResponse_eq (refusal : Failure) : Server.statusErrorResponse refusal =
    .failure (errorCode refusal) (refusalName refusal) refusal.message := by
  obtain ⟨code, message, fails⟩ := refusal
  cases code with
  | ok => exact absurd rfl fails
  | invalidArgument | notFound | conflict => rfl

/-- A transaction whose result is wrapped ends as it does without. -/
theorem execute_map {α β : Type} {tx : Server.Tx α} {f : α → β} {pg : Server.Postgres}
    {session : Server.Session} {db : Server.Database} :
    Server.Tx.execute (do pure (f (← tx))) pg session db =
      ((tx.execute pg session db).1.map f, (tx.execute pg session db).2) := by
  unfold Server.Tx.execute
  rw [Interaction.Program.run_bind]
  rcases Interaction.Program.run _ tx (db, session.fault) with ⟨error | value, reached, fault⟩ <;> rfl

variable {R : Server.Runtime} {wire : Wire R}

/-- A reported failure is raised. -/
theorem read_failure {α : Type} {request : AgentRequest α} {code : ℕ} {error message : Bytes}
    (h : wire.Delivers (.failure code error message)) :
    (do request.read wire.agent (← wire.response (.failure code error message))) =
      .error (Wire.reportedError code error message) := by
  have hdata := Wire.successData_failure h
  rw [Wire.response_eq h, Fallible.ok_bind]
  cases request with
  | start request =>
    simp only [AgentRequest.read, Agent.readStarted, Server.PrintedResponse.failure, hdata]
    rfl
  | manifest request =>
    simp only [AgentRequest.read, Agent.readManifestAccepted, Server.PrintedResponse.failure, hdata]
    rfl
  | report request =>
    simp only [AgentRequest.read, Agent.readReportAccepted, Server.PrintedResponse.failure, hdata]
    rfl

/-- The end of a transaction without a result is raised. -/
theorem read_stop {α : Type} {request : AgentRequest α} {stop : Server.Stop}
    (h : wire.Delivers (request.endpoint.respond (.error stop)).printed) :
    (do request.read wire.agent
          (← wire.response (request.endpoint.respond (.error stop)).printed)) =
      .error (stopError stop) := by
  cases stop with
  | refused refusal =>
    have hresponse : request.endpoint.respond (.error (.refused refusal)) =
        .failure (errorCode refusal) (refusalName refusal) refusal.message :=
      statusErrorResponse_eq refusal
    rw [hresponse] at h ⊢
    exact read_failure h
  | failed fault => exact read_failure h
  | thrown message => exact read_failure h

/-- The result of a start is read as it is. -/
theorem read_started {result : Server.TaskRunCreateResult}
    (h : wire.Delivers (Server.HttpResponse.success 201 (.start result)).printed) :
    (do Agent.readStarted wire.agent
          (← wire.response (Server.HttpResponse.success 201 (.start result)).printed)) =
      .ok ⟨result.id, result.replayed, result.runStatus⟩ := by
  have hordered : (Json.record [("replayed", .bool result.replayed),
      ("run_status", .str result.runStatus), ("task_run_id", .str result.id)]).Ordered := by
    apply Json.Ordered.record
    · simp only [List.map_cons, List.map_nil]
      decide
    · simp
  obtain ⟨received, hdata, harrives, -⟩ := Wire.successData_success rfl hordered h
  have hid := harrives.str_of_lookup "task_run_id" rfl
  have hreplayed := harrives.bool_of_lookup "replayed" rfl
  have hstatus := harrives.str_of_lookup "run_status" rfl
  rw [Wire.response_eq h, Fallible.ok_bind]
  simp only [Agent.readStarted, Server.HttpResponse.printed, Server.Reply.data?, hdata, Fallible.ok_bind,
    responseString_of_field hid, responseBoolean_of_field hreplayed,
    responseString_of_field hstatus]
  rfl

/-- The result of a manifest is read as it is. -/
theorem read_manifestAccepted {result : Server.RawFileManifestResult}
    (h : wire.Delivers (Server.HttpResponse.success 201 (.manifest result)).printed) :
    (do Agent.readManifestAccepted wire.agent
          (← wire.response (Server.HttpResponse.success 201 (.manifest result)).printed)) =
      .ok ⟨result.rawFileIds, result.replayed⟩ := by
  have hordered : (Json.record [("raw_file_ids", Server.stringArray result.rawFileIds),
      ("replayed", .bool result.replayed)]).Ordered := by
    apply Json.Ordered.record
    · simp only [List.map_cons, List.map_nil]
      decide
    · simp [ordered_stringArray]
  obtain ⟨received, hdata, harrives, -⟩ := Wire.successData_success rfl hordered h
  have hids := texts_of_lookup harrives "raw_file_ids" rfl
  have hreplayed := harrives.bool_of_lookup "replayed" rfl
  rw [Wire.response_eq h, Fallible.ok_bind]
  simp only [Agent.readManifestAccepted, Server.HttpResponse.printed, Server.Reply.data?, hdata,
    Fallible.ok_bind, responseStrings_of_field hids, responseBoolean_of_field hreplayed]
  rfl

/-- The result of a report is read as it is. -/
theorem read_reportAccepted {result : Server.TaskRunReportResult}
    (h : wire.Delivers (Server.HttpResponse.success 200 (.report result)).printed) :
    (do Agent.readReportAccepted wire.agent
          (← wire.response (Server.HttpResponse.success 200 (.report result)).printed)) =
      .ok ⟨result.parsedRecordIds, result.qcResultIds, result.alertIds, result.replayed⟩ := by
  have hordered : (Json.record [("alert_ids", Server.stringArray result.alertIds),
      ("parsed_record_ids", Server.stringArray result.parsedRecordIds),
      ("qc_result_ids", Server.stringArray result.qcResultIds),
      ("replayed", .bool result.replayed)]).Ordered := by
    apply Json.Ordered.record
    · simp only [List.map_cons, List.map_nil]
      decide
    · simp [ordered_stringArray]
  obtain ⟨received, hdata, harrives, -⟩ := Wire.successData_success rfl hordered h
  have hparsed := texts_of_lookup harrives "parsed_record_ids" rfl
  have hresults := texts_of_lookup harrives "qc_result_ids" rfl
  have halerts := texts_of_lookup harrives "alert_ids" rfl
  have hreplayed := harrives.bool_of_lookup "replayed" rfl
  rw [Wire.response_eq h, Fallible.ok_bind]
  simp only [Agent.readReportAccepted, Server.HttpResponse.printed, Server.Reply.data?, hdata,
    Fallible.ok_bind, responseStrings_of_field hparsed, responseStrings_of_field hresults,
    responseStrings_of_field halerts, responseBoolean_of_field hreplayed]
  rfl

/-- What a transaction ends with is read, when its results are. -/
theorem read_outcome {α γ : Type} {request : AgentRequest α} {wrap : γ → Server.Reply}
    {unwrap : γ → α} {outcome : Except Server.Stop γ}
    (hread : ∀ result, wire.Delivers (request.endpoint.respond (.ok (wrap result))).printed →
      (do request.read wire.agent
            (← wire.response (request.endpoint.respond (.ok (wrap result))).printed)) =
        .ok (unwrap result))
    (h : wire.Delivers (request.endpoint.respond (outcome.map wrap)).printed) :
    (do request.read wire.agent
          (← wire.response (request.endpoint.respond (outcome.map wrap)).printed)) =
      (outcome.map unwrap).mapError stopError := by
  cases outcome with
  | ok result => exact hread result h
  | error stop => exact read_stop h

/-- A served call leaves the tables as its transaction does. -/
theorem served_tables {α : Type} (request : AgentRequest α) (session : Server.Session)
    (db : Server.Database) :
    (request.call.serve R session db).2 = (request.serve R session db).2 := by
  cases request with
  | start request =>
    have hserve : (AgentRequest.start request).call.serve R session db = _ := execute_map
    rw [hserve]
    rfl
  | manifest request =>
    have hserve : (AgentRequest.manifest request).call.serve R session db = _ := execute_map
    rw [hserve]
    rfl
  | report request =>
    have hserve : (AgentRequest.report request).call.serve R session db = _ := execute_map
    rw [hserve]
    rfl

/-- What a served call is answered is read as what its transaction answers. -/
theorem read_served {α : Type} {request : AgentRequest α} {session : Server.Session}
    {db : Server.Database}
    (h : wire.Delivers (request.endpoint.respond (request.call.serve R session db).1).printed) :
    (do request.read wire.agent (← wire.response
          (request.endpoint.respond (request.call.serve R session db).1).printed)) =
      (request.serve R session db).1.mapError stopError := by
  cases request with
  | start request =>
    have hserve : (AgentRequest.start request).call.serve R session db = _ := execute_map
    rw [hserve] at h ⊢
    exact read_outcome (fun _ => read_started) h
  | manifest request =>
    have hserve : (AgentRequest.manifest request).call.serve R session db = _ := execute_map
    rw [hserve] at h ⊢
    exact read_outcome (fun _ => read_manifestAccepted) h
  | report request =>
    have hserve : (AgentRequest.report request).call.serve R session db = _ := execute_map
    rw [hserve] at h ⊢
    exact read_outcome (fun _ => read_reportAccepted) h

/-- What can be sent is read by the server as the call it stands for. -/
theorem AgentRequest.parse_body {α : Type} {request : AgentRequest α} {sent : Bytes}
    (sendable : request.Sendable wire.server) (printed : request.body wire.agent = .ok sent) :
    request.endpoint.parse wire.server (wire.body sent) = .ok (request.nodeCode, request.call) := by
  cases request with
  | start request =>
    have hshallow : (Agent.encodeStartTaskRunRequestJson request).depth ≤ 5 :=
      (depth_encodeStartTaskRunRequestJson request).trans (by decide)
    have hbody := wire.body_dump
      ((Agent.canonical_encodeStartTaskRunRequestJson request).erase "codec_version")
      (Wire.shallow hshallow) ((Agent.Nlohmann.dumped_eq_ok _).mp printed)
    rw [hbody]
    simp only [AgentRequest.endpoint, Server.AgentEndpoint.parse,
      parseStartRequest_encode sendable, Fallible.ok_bind]
    rfl
  | manifest request =>
    have hcanonical := Agent.canonical_encodeRawFileManifestRequestJson sendable
    have hshallow : (Agent.encodeRawFileManifestRequestJson request).depth ≤ 5 :=
      (depth_encodeRawFileManifestRequestJson request).trans (by decide)
    have hbody := wire.body_dump (hcanonical.erase "codec_version") (Wire.shallow hshallow)
      ((Agent.Nlohmann.dumped_eq_ok _).mp printed)
    rw [hbody]
    simp only [AgentRequest.endpoint, Server.AgentEndpoint.parse, Server.parseJsonBody,
      parseRawFileManifest_encode sendable, Fallible.ok_bind]
    rfl
  | report request =>
    obtain ⟨document, hdocument, hprinted⟩ := Fallible.bind_eq_ok.mp printed
    obtain ⟨status, hstatus, hencoded⟩ := Fallible.bind_eq_ok.mp hdocument
    cases Fallible.pure_eq_ok.mp hencoded
    have hbody := wire.body_dump
      ((Agent.canonical_reportJson sendable.1 status).erase "codec_version")
      (Wire.shallow (depth_reportJson request status)) ((Agent.Nlohmann.dumped_eq_ok _).mp hprinted)
    rw [hbody]
    simp only [AgentRequest.endpoint, Server.AgentEndpoint.parse, Server.parseJsonBody,
      parseTaskRunReport_encode sendable.1 hstatus sendable.2, Fallible.ok_bind]
    rfl

/-- The credential of a node is accepted. -/
theorem requireAgentNode_bearer {authenticator : Server.HttpAuthenticator} {node token : Bytes}
    (h : authenticator.credentials.agentTokens.lookup node = some token) (isJson : Bool)
    (body : Option Json) :
    authenticator.requireAgentNode ⟨node, text "Bearer " ++ token, isJson, body⟩ = some node := by
  simp [Server.HttpAuthenticator.requireAgentNode, h, Server.bearerTokenEquals]

/-- An end without a result never looks like a rejected credential, and it looks like a passing
fault unless the server refused. -/
theorem stopError_toTaskExecution (stop : Server.Stop) :
    (stopError stop).toTaskExecution.isAuthRejection = false ∧
      ((stopError stop).toTaskExecution.isTransient = true ↔
        ∀ refusal, stop ≠ .refused refusal) := by
  cases stop with
  | failed fault => exact ⟨rfl, iff_of_true rfl fun _ h => by cases h⟩
  | thrown message => exact ⟨rfl, iff_of_true rfl fun _ h => by cases h⟩
  | refused refusal =>
    obtain ⟨code, message, fails⟩ := refusal
    have hfalse : ¬∀ refusal, Server.Stop.refused ⟨code, message, fails⟩ ≠ .refused refusal :=
      fun h => h _ rfl
    cases code with
    | ok => exact absurd rfl fails
    | invalidArgument | notFound | conflict =>
      exact ⟨rfl, iff_of_false (show ¬false = true by decide) hfalse⟩

/-- Whatever an agent can send, a call over the wire leaves the tables as the transaction of the
server does, its result or refusal is what the agent gets when the response arrives, and what ends
without a result is tried again unless the server refused. -/
theorem calls_served {authenticator : Server.HttpAuthenticator} {α : Type}
    {request : AgentRequest α} {token sent : Bytes} {session : Server.Session}
    {db : Server.Database}
    (credential : authenticator.credentials.agentTokens.lookup request.nodeCode = some token)
    (sendable : request.Sendable wire.server) (printed : request.body wire.agent = .ok sent) :
    (wire.send authenticator token request sent session db).2 =
        (request.serve R session db).2 ∧
      (wire.Delivers (request.endpoint.respond (request.call.serve R session db).1).printed →
        (wire.send authenticator token request sent session db).1 =
          (request.serve R session db).1.mapError stopError) ∧
      ∀ stop, (request.serve R session db).1 = .error stop →
        (stopError stop).toTaskExecution.isAuthRejection = false ∧
          ((stopError stop).toTaskExecution.isTransient = true ↔
            ∀ refusal, stop ≠ .refused refusal) := by
  have hserve : authenticator.serve R wire.server request.endpoint
      ⟨request.nodeCode, text "Bearer " ++ token, true, wire.body sent⟩ session db =
      (request.endpoint.respond (request.call.serve R session db).1,
        (request.call.serve R session db).2) := by
    unfold Server.HttpAuthenticator.serve
    rw [requireAgentNode_bearer credential]
    simp [AgentRequest.parse_body sendable printed]
  rw [Wire.send, hserve]
  exact ⟨served_tables request session db, read_served, fun stop _ => stopError_toTaskExecution stop⟩

/-- A report with a warning over the wire ends the first run and raises an alert. -/
theorem calls_served_report :
    let sent := Reference.wire.send Server.Reference.twoTokens (Server.Reference.token 'a')
      (.report Reference.warnedReport) Reference.reportBody (.first Server.Reference.now)
      (Server.Reference.ruledAfter Server.Reference.startedCalls)
    sent.1 = .ok ⟨[text "1"], [text "1"], [text "1"], false⟩ ∧
      sent.2 = ((AgentRequest.report Reference.warnedReport).serve Server.Reference.runtime
        (.first Server.Reference.now)
        (Server.Reference.ruledAfter Server.Reference.startedCalls)).2 := by
  have hserved : ((AgentRequest.report Reference.warnedReport).call.serve Server.Reference.runtime
      (.first Server.Reference.now)
      (Server.Reference.ruledAfter Server.Reference.startedCalls)).1 =
        .ok (.report ⟨[text "1"], [text "1"], [text "1"], false⟩) := by
    decide +kernel
  have hanswer : ((AgentRequest.report Reference.warnedReport).serve Server.Reference.runtime
      (.first Server.Reference.now)
      (Server.Reference.ruledAfter Server.Reference.startedCalls)).1 =
        .ok ⟨[text "1"], [text "1"], [text "1"], false⟩ := by
    decide +kernel
  have hdelivers : Reference.wire.Delivers ((AgentRequest.report
      Reference.warnedReport).endpoint.respond ((AgentRequest.report
        Reference.warnedReport).call.serve Server.Reference.runtime (.first Server.Reference.now)
          (Server.Reference.ruledAfter Server.Reference.startedCalls)).1).printed := by
    rw [hserved]
    exact ⟨by decide +kernel, by decide +kernel⟩
  have hsendable : (AgentRequest.report Reference.warnedReport).Sendable Reference.wire.server :=
    ⟨by constructor <;> unfold Agent.FitsInt <;> decide, by decide +kernel⟩
  have hcredential : Server.Reference.twoTokens.credentials.agentTokens.lookup
      (AgentRequest.report Reference.warnedReport).nodeCode = some (Server.Reference.token 'a') := by
    decide +kernel
  have hprinted : (AgentRequest.report Reference.warnedReport).body Reference.wire.agent =
      .ok Reference.reportBody := by
    have hutf8 : (Reference.warnedReportJson.erase "codec_version").utf8 = true := by
      decide +kernel
    exact Reference.dumped_of_utf8 hutf8
  refine ⟨?_, (calls_served hcredential hsendable hprinted).1⟩
  have hresult := (calls_served hcredential hsendable hprinted).2.1 hdelivers
  rw [hanswer] at hresult
  exact hresult

end LabBridge
