import LabBridge.Agent.Errors
import LabBridge.Agent.Requests

/-!
# The persisted form of requests

Every request of a run is kept as a JSON text of a versioned object, from which redelivery
rebuilds it; the body that goes over the wire is the same object without the version. Reading
checks each field again, so a text that was written is not always one that can be read.
-/

namespace LabBridge.Agent

open ByteText JsonText LabBridge.Core

variable (J : Nlohmann)

/-- The version of the persisted form. -/
def codecVersion : ℤ := 1

/-- The version a payload states; absent counts as zero, and a value of another kind than a
number raises. -/
def statedVersion (payload : Json) : Option ℤ :=
  match payload.field? "codec_version" with
  | none => some 0
  | some (.int version) => some (version.bmod (2 ^ 32))
  | some (.bool version) => some version.toNat
  | some _ => none

/-- Parse a persisted object and check its version. -/
def parsePayload (stored : Bytes) : Except AgentError Json :=
  match J.parse stored with
  | none => .error (.codec (text "invalid persisted JSON: " ++ J.parseFailure stored))
  | some (.obj fields) =>
    if statedVersion (.obj fields) = some codecVersion then .ok (.obj fields)
    else .error (.codec (text "unsupported or missing codec_version"))
  | some _ => .error (.codec (text "unsupported or missing codec_version"))

/-- The exception about one field. -/
def fieldError (field : String) (complaint : String) : AgentError :=
  .codec (text "field '" ++ text field ++ text complaint)

/-- A text field; unless the caller allows it, it may not be empty. -/
def requiredString (object : Json) (field : String) (allowEmpty : Bool := false) :
    Except AgentError Bytes :=
  match object.field? field with
  | some (.str value) =>
    if allowEmpty || !value.isEmpty then .ok value
    else .error (fieldError field "' must be a non-empty string")
  | _ => .error (fieldError field "' must be a non-empty string")

/-- A field that is an object. -/
def requiredObject (object : Json) (field : String) : Except AgentError Json :=
  match object.field? field with
  | some (.obj fields) => .ok (.obj fields)
  | _ => .error (fieldError field "' must be an object")

/-- A field that is an array. -/
def requiredArray (object : Json) (field : String) : Except AgentError (List Json) :=
  match object.field? field with
  | some (.arr items) => .ok items
  | _ => .error (fieldError field "' must be an array")

/-- An integer field between zero and the largest `int`. -/
def requiredNonNegativeInt (object : Json) (field : String) : Except AgentError ℤ :=
  match object.field? field with
  | some (.int value) =>
    if 0 ≤ value ∧ value < 2 ^ 31 then .ok value
    else .error (fieldError field "' is out of range")
  | _ => .error (fieldError field "' must be an integer")

/-- An integer field between zero and the largest `long long`. -/
def requiredNonNegativeLong (object : Json) (field : String) : Except AgentError ℤ :=
  match object.field? field with
  | some (.int value) =>
    if 0 ≤ value ∧ value < 2 ^ 63 then .ok value
    else .error (fieldError field "' must be a non-negative integer")
  | _ => .error (fieldError field "' must be a non-negative integer")

/-- A truth value field. -/
def requiredBoolean (object : Json) (field : String) : Except AgentError Bool :=
  match object.field? field with
  | some (.bool value) => .ok value
  | _ => .error (fieldError field "' must be a boolean")

/-- The text of a source type. -/
def encodeSourceType : SourceType → Bytes
  | .localDirectory => text "local_directory"
  | .ftp => text "ftp"
  | .oracle => text "oracle"

/-- The source type of a text. -/
def decodeSourceType (value : Bytes) : Except AgentError SourceType :=
  if value = text "local_directory" then .ok .localDirectory
  else if value = text "ftp" then .ok .ftp
  else if value = text "oracle" then .ok .oracle
  else .error (.codec (text "unsupported source type"))

/-- The text of a final status. -/
def encodeTerminalStatus : TaskRunStatus → Except AgentError Bytes
  | .succeeded => .ok (text "succeeded")
  | .failed => .ok (text "failed")
  | _ => .error (.codec (text "report status must be terminal"))

/-- The final status of a text. -/
def decodeTerminalStatus (value : Bytes) : Except AgentError TaskRunStatus :=
  if value = text "succeeded" then .ok .succeeded
  else if value = text "failed" then .ok .failed
  else .error (.codec (text "report status must be terminal"))

/-! ## Task configurations -/

/-- A persisted quality rule. -/
def encodeQcRule (rule : QcRuleConfig) : Json :=
  .record [
    ("config_json", .str rule.configJson),
    ("id", .str rule.id),
    ("name", .str rule.name),
    ("rule_type", .str rule.ruleType)]

/-- Read a persisted quality rule. -/
def decodeQcRule (payload : Json) : Except AgentError QcRuleConfig := do
  let id ← requiredString payload "id"
  let ruleType ← requiredString payload "rule_type"
  let name ← requiredString payload "name"
  let configJson ← requiredString payload "config_json" true
  pure { id, ruleType, name, configJson }

/-- A persisted data source. -/
def encodeDataSource (source : DataSourceConfig) : Json :=
  .record [
    ("config_json", .str source.configJson),
    ("id", .str source.id),
    ("name", .str source.name),
    ("node_code", .str source.nodeCode),
    ("type", .str (encodeSourceType source.type))]

/-- Read a persisted data source. -/
def decodeDataSource (payload : Json) : Except AgentError DataSourceConfig := do
  let id ← requiredString payload "id"
  let nodeCode ← requiredString payload "node_code"
  let type ← decodeSourceType (← requiredString payload "type")
  let name ← requiredString payload "name"
  let configJson ← requiredString payload "config_json" true
  pure { id, nodeCode, type, name, configJson }

/-- The persisted object of a task. -/
def taskConfigJson (task : TaskConfig) : Json :=
  .record [
    ("codec_version", .int codecVersion),
    ("data_source", encodeDataSource task.dataSource),
    ("data_source_id", .str task.dataSourceId),
    ("enabled", .bool task.enabled),
    ("id", .str task.id),
    ("name", .str task.name),
    ("node_code", .str task.nodeCode),
    ("parser_type", .str task.parserType),
    ("qc_profile", .str task.qcProfile),
    ("qc_rules", .arr (task.qcRules.map encodeQcRule)),
    ("schedule_expr", .str task.scheduleExpr),
    ("task_type", .str task.taskType)]

/-- The persisted text of a task. -/
def encodeTaskConfig (task : TaskConfig) : Except AgentError Bytes := J.dumped (taskConfigJson task)

/-- Read a persisted task. -/
def decodeTaskConfig (stored : Bytes) : Except AgentError TaskConfig := do
  let payload ← parsePayload J stored
  let source ← requiredObject payload "data_source"
  let id ← requiredString payload "id"
  let nodeCode ← requiredString payload "node_code"
  let dataSourceId ← requiredString payload "data_source_id"
  let name ← requiredString payload "name"
  let taskType ← requiredString payload "task_type"
  let scheduleExpr ← requiredString payload "schedule_expr"
  let parserType ← requiredString payload "parser_type"
  let qcProfile ← requiredString payload "qc_profile" true
  let enabled ← requiredBoolean payload "enabled"
  let dataSource ← decodeDataSource source
  let qcRules ← (← requiredArray payload "qc_rules").mapM decodeQcRule
  pure {
    id, nodeCode, dataSourceId, name, taskType, scheduleExpr, parserType, qcProfile, enabled,
    dataSource, qcRules }

/-! ## Starts -/

/-- The persisted object of a start. -/
def encodeStartTaskRunRequestJson (request : StartTaskRunRequest) : Json :=
  .record [
    ("codec_version", .int codecVersion),
    ("execution_key", .str request.executionKey),
    ("node_code", .str request.nodeCode),
    ("scheduled_for", .str request.scheduledFor),
    ("started_at", .str request.startedAt),
    ("task_id", .str request.taskId),
    ("trigger_type", .str request.triggerType)]

/-- The persisted text of a start. -/
def encodeStartTaskRunRequest (request : StartTaskRunRequest) : Except AgentError Bytes :=
  J.dumped (encodeStartTaskRunRequestJson request)

/-- The trigger of a persisted start. -/
def decodeTriggerType (payload : Json) : Except AgentError Bytes := do
  let triggerType ← requiredString payload "trigger_type"
  if triggerType ≠ text "scheduled" ∧ triggerType ≠ text "manual" ∧ triggerType ≠ text "retry" then
    throw (.codec (text "field 'trigger_type' must be scheduled, manual or retry"))
  pure triggerType

/-- Read a persisted start. Only a scheduled one needs a slot. -/
def decodeStartTaskRunRequest (stored : Bytes) : Except AgentError StartTaskRunRequest := do
  let payload ← parsePayload J stored
  let triggerType ← decodeTriggerType payload
  let nodeCode ← requiredString payload "node_code"
  let taskId ← requiredString payload "task_id"
  let executionKey ← requiredString payload "execution_key"
  let scheduledFor ← requiredString payload "scheduled_for" (triggerType != text "scheduled")
  let startedAt ← requiredString payload "started_at"
  pure { nodeCode, taskId, executionKey, scheduledFor, startedAt, triggerType }

/-! ## Manifests -/

/-- A persisted manifest entry. -/
def encodeManifestEntry (file : RawFileManifestEntry) : Json :=
  .record [
    ("file_hash", .str file.fileHash),
    ("ingest_status", .str file.ingestStatus),
    ("original_name", .str file.originalName),
    ("size_bytes", .int file.sizeBytes),
    ("source_mtime", .str file.sourceMtime),
    ("storage_path", .str file.storagePath)]

/-- Read a persisted manifest entry. -/
def decodeManifestEntry (payload : Json) : Except AgentError RawFileManifestEntry := do
  let originalName ← requiredString payload "original_name"
  let fileHash ← requiredString payload "file_hash"
  let storagePath ← requiredString payload "storage_path"
  let sizeBytes ← requiredNonNegativeLong payload "size_bytes"
  let sourceMtime ← requiredString payload "source_mtime"
  let ingestStatus ← requiredString payload "ingest_status"
  pure { originalName, fileHash, storagePath, sizeBytes, sourceMtime, ingestStatus }

/-- The persisted object of a manifest. -/
def encodeRawFileManifestRequestJson (request : RawFileManifestRequest) : Json :=
  .record [
    ("codec_version", .int codecVersion),
    ("files", .arr (request.files.map encodeManifestEntry)),
    ("idempotency_key", .str request.idempotencyKey),
    ("node_code", .str request.nodeCode),
    ("task_run_id", .str request.taskRunId)]

/-- The persisted text of a manifest. -/
def encodeRawFileManifestRequest (request : RawFileManifestRequest) : Except AgentError Bytes :=
  J.dumped (encodeRawFileManifestRequestJson request)

/-- Read a persisted manifest. -/
def decodeRawFileManifestRequest (stored : Bytes) : Except AgentError RawFileManifestRequest := do
  let payload ← parsePayload J stored
  let taskRunId ← requiredString payload "task_run_id"
  let nodeCode ← requiredString payload "node_code"
  let idempotencyKey ← requiredString payload "idempotency_key"
  let files ← (← requiredArray payload "files").mapM decodeManifestEntry
  pure { taskRunId, nodeCode, idempotencyKey, files }

/-! ## Reports -/

/-- A persisted rule result. -/
def encodeQcResult (result : TaskRunReportQcResult) : Json :=
  .record [
    ("level", .str result.level),
    ("message", .str result.message),
    ("qc_rule_id", .str result.qcRuleId),
    ("result", .str result.result)]

/-- Read a persisted rule result. -/
def decodeQcResult (payload : Json) : Except AgentError TaskRunReportQcResult := do
  let qcRuleId ← requiredString payload "qc_rule_id"
  let level ← requiredString payload "level"
  let result ← requiredString payload "result"
  let message ← requiredString payload "message" true
  pure { qcRuleId, level, result, message }

/-- A persisted record. -/
def encodeParsedRecord (parsed : TaskRunReportParsedRecord) : Json :=
  .record [
    ("device_code", .str parsed.record.deviceCode),
    ("parse_status", .str parsed.parseStatus),
    ("payload_json", .str parsed.record.payloadJson),
    ("qc_results", .arr (parsed.qcResults.map encodeQcResult)),
    ("raw_file_id", .str parsed.rawFileId),
    ("record_time", .str parsed.record.recordTime),
    ("station_code", .str parsed.record.stationCode)]

/-- Read a persisted record. -/
def decodeParsedRecord (payload : Json) : Except AgentError TaskRunReportParsedRecord := do
  let rawFileId ← requiredString payload "raw_file_id"
  let stationCode ← requiredString payload "station_code" true
  let deviceCode ← requiredString payload "device_code" true
  let recordTime ← requiredString payload "record_time"
  let payloadJson ← requiredString payload "payload_json" true
  let parseStatus ← requiredString payload "parse_status"
  let qcResults ← (← requiredArray payload "qc_results").mapM decodeQcResult
  pure {
    rawFileId, record := { stationCode, deviceCode, recordTime, payloadJson }, parseStatus,
    qcResults }

/-- A persisted file failure. -/
def encodeFailedFile (failed : TaskRunReportFailedFile) : Json :=
  .record [
    ("archive_raw_file_id", .str failed.archiveRawFileId),
    ("message", .str failed.message),
    ("original_name", .str failed.originalName),
    ("source_path", .str failed.sourcePath),
    ("stage", .str failed.stage)]

/-- Read a file failure of a persisted report. -/
def decodeFailedFile (payload : Json) : Except AgentError TaskRunReportFailedFile := do
  let sourcePath ← requiredString payload "source_path"
  let originalName ← requiredString payload "original_name"
  let stage ← requiredString payload "stage"
  let message ← requiredString payload "message" true
  let archiveRawFileId ← requiredString payload "archive_raw_file_id" true
  pure { sourcePath, originalName, stage, message, archiveRawFileId }

/-- The persisted object of a report whose status has the given text. The list of failures is
a field only when the report has one. -/
def reportJson (request : TaskRunReportRequest) (status : Bytes) : Json :=
  .record ([
    ("codec_version", .int codecVersion),
    ("error_summary", .str request.errorSummary)] ++
    (if request.hasFailedFiles then
      [("failed_files", .arr (request.failedFiles.map encodeFailedFile))] else []) ++ [
    ("finished_at", .str request.finishedAt),
    ("idempotency_key", .str request.idempotencyKey),
    ("items_failed", .int request.itemsFailed),
    ("items_success", .int request.itemsSuccess),
    ("items_total", .int request.itemsTotal),
    ("node_code", .str request.nodeCode),
    ("parsed_records", .arr (request.parsedRecords.map encodeParsedRecord)),
    ("status", .str status),
    ("task_run_id", .str request.taskRunId)])

/-- The persisted object of a report. -/
def encodeTaskRunReportRequestJson (request : TaskRunReportRequest) : Except AgentError Json := do
  pure (reportJson request (← encodeTerminalStatus request.status))

/-- The persisted text of a report. -/
def encodeTaskRunReportRequest (request : TaskRunReportRequest) : Except AgentError Bytes := do
  J.dumped (← encodeTaskRunReportRequestJson request)

/-- The failures of a persisted report, and whether it has the field at all. -/
def decodeReportFailures (payload : Json) :
    Except AgentError (Bool × List TaskRunReportFailedFile) := do
  if (payload.field? "failed_files").isSome then
    let failed ← (← requiredArray payload "failed_files").mapM decodeFailedFile
    pure (true, failed)
  else pure (false, [])

/-- Read a persisted report. -/
def decodeTaskRunReportRequest (stored : Bytes) : Except AgentError TaskRunReportRequest := do
  let payload ← parsePayload J stored
  let taskRunId ← requiredString payload "task_run_id"
  let nodeCode ← requiredString payload "node_code"
  let idempotencyKey ← requiredString payload "idempotency_key"
  let status ← decodeTerminalStatus (← requiredString payload "status")
  let finishedAt ← requiredString payload "finished_at"
  let itemsTotal ← requiredNonNegativeInt payload "items_total"
  let itemsSuccess ← requiredNonNegativeInt payload "items_success"
  let itemsFailed ← requiredNonNegativeInt payload "items_failed"
  let errorSummary ← requiredString payload "error_summary" true
  let failures ← decodeReportFailures payload
  let parsedRecords ← (← requiredArray payload "parsed_records").mapM decodeParsedRecord
  pure {
    taskRunId, nodeCode, idempotencyKey, status, finishedAt, itemsTotal, itemsSuccess,
    itemsFailed, errorSummary, parsedRecords, hasFailedFiles := failures.1,
    failedFiles := failures.2 }

/-! ## Retry inputs -/

/-- A persisted retry input. -/
def encodeRetryFile (file : RetryFileInput) : Json :=
  .record [
    ("archive_raw_file_id", .str file.archiveRawFileId),
    ("codec_version", .int codecVersion),
    ("file_hash", .str file.fileHash),
    ("input_type", .str file.inputType),
    ("original_name", .str file.originalName),
    ("size_bytes", .int file.sizeBytes),
    ("source_mtime", .str file.sourceMtime),
    ("source_path", .str file.sourcePath),
    ("storage_path", .str file.storagePath)]

/-- The persisted text of the retry inputs. -/
def encodeRetryFiles (retryFiles : List RetryFileInput) : Except AgentError Bytes :=
  J.dumped (.arr (retryFiles.map encodeRetryFile))

/-- Read a persisted retry input. -/
def decodeRetryFile (item : Json) : Except AgentError RetryFileInput := do
  if statedVersion item ≠ some codecVersion then
    throw (.codec (text "unsupported or missing codec_version in retry files"))
  let inputType ← requiredString item "input_type"
  if inputType ≠ text "archive" ∧ inputType ≠ text "source" then
    throw (.codec (text "retry file input_type must be archive or source"))
  let sourcePath ← requiredString item "source_path"
  let originalName ← requiredString item "original_name"
  let archiveRawFileId ← requiredString item "archive_raw_file_id" true
  let storagePath ← requiredString item "storage_path" true
  let sizeBytes ← requiredNonNegativeLong item "size_bytes"
  let fileHash ← requiredString item "file_hash" true
  let sourceMtime ← requiredString item "source_mtime" true
  pure {
    inputType, sourcePath, originalName, archiveRawFileId, storagePath, sizeBytes, fileHash,
    sourceMtime }

/-- Read the persisted retry inputs; the empty text stands for none. -/
def decodeRetryFiles (stored : Bytes) : Except AgentError (List RetryFileInput) :=
  if stored = [] then .ok []
  else
    match J.parse stored with
    | none => .error (.codec (text "invalid persisted JSON: " ++ J.parseFailure stored))
    | some (.arr items) => items.mapM decodeRetryFile
    | some _ => .error (.codec (text "retry files must be an array"))

/-! ## Bodies -/

/-- The body of a start. -/
def encodeStartTaskRunHttpBody (request : StartTaskRunRequest) : Except AgentError Bytes :=
  J.dumped ((encodeStartTaskRunRequestJson request).erase "codec_version")

/-- The body of a manifest. -/
def encodeRawFileManifestHttpBody (request : RawFileManifestRequest) : Except AgentError Bytes :=
  J.dumped ((encodeRawFileManifestRequestJson request).erase "codec_version")

/-- The body of a report. -/
def encodeTaskRunReportHttpBody (request : TaskRunReportRequest) : Except AgentError Bytes := do
  J.dumped ((← encodeTaskRunReportRequestJson request).erase "codec_version")

end LabBridge.Agent
