import LabBridge.Library.Json
import LabBridge.Server.Statement

/-!
# The HTTP layer of manifests and reports

The parsers of `AgentReportHttpController` read a request body field by field and reject
the first field that does not fit, naming its path. The response codes are what an agent
decides by whether it sends a request again.
-/

namespace LabBridge.Server.AgentReportHttp

open ByteText LabBridge.Core JsonText

/-- What the parsers use of the JSON library besides the document itself. -/
structure JsonCpp where
  /-- Whether a text is a JSON document. -/
  isValidText : Bytes → Bool
  /-- The value of a number literal that is not written as an integer but equals one. -/
  integral : Bytes → Option ℤ

variable (J : JsonCpp)

/-- What a parser reads, or the text of the `RequestValidationError` it throws. -/
abbrev Parsed (α : Type) := Except Bytes α

/-- `field_path`. -/
def fieldPath (objectPath : Bytes) (field : String) : Bytes :=
  if objectPath = [] then text field else objectPath ++ text "." ++ text field

/-- `required_string`. -/
def requiredString (object : Json) (field : String) (objectPath : Bytes) : Parsed Bytes :=
  match object.field? field with
  | none => .error (fieldPath objectPath field ++ text " is required")
  | some (.str value) => .ok value
  | some _ => .error (fieldPath objectPath field ++ text " must be a string")

/-- `optional_string`. -/
def optionalString (object : Json) (field : String) (defaultValue objectPath : Bytes) :
    Parsed Bytes :=
  match object.field? field with
  | none => .ok defaultValue
  | some (.str value) => .ok value
  | some _ => .error (fieldPath objectPath field ++ text " must be a string")

/-- The integer a number stands for, when it has one. -/
def integerValue : Json → Option ℤ
  | .int value => some value
  | .real literal => J.integral literal
  | _ => none

/-- `optional_int` and `optional_int64`, for integers of a width. -/
def optionalInteger (width : ℕ) (object : Json) (field : String) (objectPath : Bytes) :
    Parsed ℤ :=
  match object.field? field with
  | none => .ok 0
  | some found =>
    match (integerValue J found).filter fun value =>
        -(2 ^ (width - 1)) ≤ value ∧ value < 2 ^ (width - 1) with
    | some value => .ok value
    | none => .error (fieldPath objectPath field ++ text " must be an integer")

/-- `optional_int`. -/
def optionalInt := optionalInteger J 32

/-- `optional_int64`. -/
def optionalInt64 := optionalInteger J 64

/-- `optional_array`. -/
def optionalArray (object : Json) (field : String) (objectPath : Bytes) : Parsed (List Json) :=
  match object.field? field with
  | none => .ok []
  | some (.arr items) => .ok items
  | some _ => .error (fieldPath objectPath field ++ text " must be an array")

/-- `require_object`. -/
def requireObject (value : Json) (path : Bytes) : Parsed Unit :=
  match value with
  | .obj _ => .ok ()
  | _ => .error (path ++ text " must be an object")

/-- Read the items of an array in order, each under its index. -/
def parseItems {α : Type} (path : Bytes) (parse : Json → Bytes → Parsed α) :
    ℕ → List Json → Parsed (List α)
  | _, [] => pure []
  | index, item :: rest => do
    let itemPath := path ++ text "[" ++ decimal index ++ text "]"
    requireObject item itemPath
    let first ← parse item itemPath
    let others ← parseItems path parse (index + 1) rest
    pure (first :: others)

/-- `parse_task_run_status`. -/
def parseTaskRunStatus (status : Bytes) : Parsed TaskRunStatus :=
  if status = text "succeeded" then .ok .succeeded
  else if status = text "failed" then .ok .failed
  else .error (text "status must be succeeded or failed")

/-- One file of a manifest. -/
def parseManifestEntry (value : Json) (path : Bytes) : Parsed RawFileManifestEntry := do
  let originalName ← requiredString value "original_name" path
  let fileHash ← optionalString value "file_hash" [] path
  let storagePath ← requiredString value "storage_path" path
  let sizeBytes ← optionalInt64 J value "size_bytes" path
  let sourceMtime ← optionalString value "source_mtime" [] path
  let ingestStatus ← optionalString value "ingest_status" (text "collected") path
  pure { originalName, fileHash, storagePath, sizeBytes, sourceMtime, ingestStatus }

/-- `parse_raw_file_manifest`. -/
def parseRawFileManifest (body : Json) : Parsed RawFileManifestRequest := do
  requireObject body (text "request body")
  let taskRunId ← requiredString body "task_run_id" []
  let nodeCode ← requiredString body "node_code" []
  let idempotencyKey ← requiredString body "idempotency_key" []
  let items ← optionalArray body "files" []
  let files ← parseItems (text "files") (parseManifestEntry J) 0 items
  pure { taskRunId, nodeCode, idempotencyKey, files }

/-- One failed file of a report. -/
def parseFailedFile (value : Json) (path : Bytes) : Parsed TaskRunFailedFile := do
  let sourcePath ← requiredString value "source_path" path
  let originalName ← requiredString value "original_name" path
  let stage ← requiredString value "stage" path
  let message ← requiredString value "message" path
  let archiveRawFileId ← optionalString value "archive_raw_file_id" [] path
  pure { sourcePath, originalName, stage, message, archiveRawFileId }

/-- One rule result of a report. -/
def parseQcResult (value : Json) (path : Bytes) : Parsed TaskRunReportQcResult := do
  let qcRuleId ← requiredString value "qc_rule_id" path
  let level ← requiredString value "level" path
  let result ← requiredString value "result" path
  let message ← optionalString value "message" [] path
  pure { qcRuleId, level, result, message }

/-- One parsed row of a report. -/
def parseParsedRecord (value : Json) (path : Bytes) : Parsed TaskRunReportParsedRecord := do
  let rawFileId ← requiredString value "raw_file_id" path
  let stationCode ← optionalString value "station_code" [] path
  let deviceCode ← optionalString value "device_code" [] path
  let recordTime ← optionalString value "record_time" [] path
  let payloadJson ← requiredString value "payload_json" path
  if !J.isValidText payloadJson then
    throw (fieldPath path "payload_json" ++ text " must contain valid JSON")
  let parseStatus ← optionalString value "parse_status" (text "parsed") path
  let items ← optionalArray value "qc_results" path
  let qcResults ← parseItems (fieldPath path "qc_results") parseQcResult 0 items
  pure {
    rawFileId
    record := { stationCode, deviceCode, recordTime, payloadJson }
    parseStatus
    qcResults }

/-- The failed files of a report; a report may leave the field out. -/
def parseFailedFiles (body : Json) : Parsed (Option (List TaskRunFailedFile)) :=
  match body.field? "failed_files" with
  | none => .ok none
  | some _ => do
    let items ← optionalArray body "failed_files" []
    let files ← parseItems (text "failed_files") parseFailedFile 0 items
    pure (some files)

/-- `parse_task_run_report`. -/
def parseTaskRunReport (body : Json) : Parsed TaskRunReportRequest := do
  requireObject body (text "request body")
  let taskRunId ← requiredString body "task_run_id" []
  let nodeCode ← requiredString body "node_code" []
  let idempotencyKey ← requiredString body "idempotency_key" []
  let status ← parseTaskRunStatus (← requiredString body "status" [])
  let finishedAt ← optionalString body "finished_at" [] []
  let itemsTotal ← optionalInt J body "items_total" []
  let itemsSuccess ← optionalInt J body "items_success" []
  let itemsFailed ← optionalInt J body "items_failed" []
  let errorSummary ← optionalString body "error_summary" [] []
  let failedFiles ← parseFailedFiles body
  let items ← optionalArray body "parsed_records" []
  let parsedRecords ← parseItems (text "parsed_records") (parseParsedRecord J) 0 items
  pure {
    taskRunId, nodeCode, idempotencyKey, status, finishedAt, itemsTotal, itemsSuccess,
    itemsFailed, errorSummary, parsedRecords
    hasFailedFiles := failedFiles.isSome
    failedFiles := failedFiles.getD [] }

variable {J}

/-- A status that is read ends a run. -/
theorem parseTaskRunStatus_ok {value : Bytes} {status : TaskRunStatus}
    (h : parseTaskRunStatus value = .ok status) : status.isTerminal = true := by
  unfold parseTaskRunStatus at h
  split at h
  · cases h
    rfl
  · split at h
    · cases h
      rfl
    · cases h

/-- Two parsers read a result when each reads one. -/
theorem Parsed.bind_eq_ok {α β : Type} {first : Parsed α} {next : α → Parsed β} {result : β} :
    (first >>= next) = .ok result ↔ ∃ value, first = .ok value ∧ next value = .ok result := by
  cases first <;> simp [bind, Except.bind]

/-- A report that is accepted ends its run. -/
theorem parseTaskRunReport_ok {body : Json} {request : TaskRunReportRequest}
    (h : parseTaskRunReport J body = .ok request) : request.status.isTerminal = true := by
  simp only [parseTaskRunReport, Parsed.bind_eq_ok] at h
  obtain ⟨_, _, _, _, _, _, _, _, _, _, status, hstatus, _, _, _, _, _, _, _, _, _, _, _, _, _,
    _, _, _, h⟩ := h
  cases h
  exact parseTaskRunStatus_ok hstatus

/-- `status_error_response`. -/
def errorCode (failure : Failure) : ℕ :=
  match failure.code with
  | .invalidArgument => 400
  | .notFound => 404
  | .conflict => 409
  | .ok => 500

/-- The response code of a call that `handle_request` runs. -/
def responseCode {α : Type} (success : ℕ) : Except Stop α → ℕ
  | .ok _ => success
  | .error (.refused failure) => errorCode failure
  | .error _ => 500

/-- `TaskExecutionClientError::is_transient`, for an answered request. -/
def isTransient (code : ℕ) : Bool := code == 408 || code == 429 || 500 ≤ code && code ≤ 599

/-- A failing status is a client error, and no transient one. -/
theorem isTransient_errorCode (failure : Failure) : isTransient (errorCode failure) = false := by
  obtain ⟨code, message, fails⟩ := failure
  cases code <;> first | exact absurd rfl fails | rfl

end LabBridge.Server.AgentReportHttp
