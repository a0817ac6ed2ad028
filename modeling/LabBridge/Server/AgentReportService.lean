import LabBridge.Server.TaskRunService

/-!
# Accepting manifests and reports

`AgentReportService` with the result, rule-result and alert services and the receipt
repository it calls. A request first claims a receipt; a repeated request is answered from
the completed receipt, and every refusal after the claim relies on the rollback of the
executor.
-/

namespace LabBridge.Server

open ByteText LabBridge.Core JsonText

variable (R : Runtime)

namespace ResultService

/-- `record_raw_file`. -/
def recordRawFile (record : RawFileRecord) : Tx Bytes := do
  if record.taskRunId = [] then refuse (.invalid (text "task_run_id is required"))
  else if record.nodeCode = [] then refuse (.invalid (text "node_code is required"))
  else if record.originalName = [] then refuse (.invalid (text "original_name is required"))
  else if record.storagePath = [] then refuse (.invalid (text "storage_path is required"))
  else
    match ← sql (.selectRunById record.taskRunId) with
    | none => refuse (.notFound (text "task run is not found"))
    | some run =>
      if run.nodeCode ≠ record.nodeCode then
        refuse (.conflict (text "task run does not belong to node"))
      else
        match ← sql (.insertRawFile { record with
            ingestStatus :=
              if record.ingestStatus = [] then text "collected" else record.ingestStatus }) with
        | none => raise "failed to create raw file"
        | some id => pure id

/-- `record_parsed_record`, for a raw file that was read in this call. -/
def recordParsedRecord (request : ParsedRecordRecord) (verifiedRawFile : RawFileRecord) :
    Tx Bytes := do
  if request.taskRunId = [] then refuse (.invalid (text "task_run_id is required"))
  else if request.rawFileId = [] then refuse (.invalid (text "raw_file_id is required"))
  else if request.record.payloadJson = [] then
    refuse (.invalid (text "payload_json is required"))
  else if verifiedRawFile.taskRunId ≠ request.taskRunId then
    refuse (.conflict (text "raw file does not belong to task run"))
  else
    match ← sql (.insertParsedRecord { request with
        parseStatus := if request.parseStatus = [] then text "parsed" else request.parseStatus })
      with
    | none => raise "failed to create parsed record"
    | some id => pure id

/-- `find_raw_file`. -/
def findRawFile (rawFileId : Bytes) : Tx (Option RawFileRecord) :=
  if rawFileId = [] then pure none else sql (.selectRawFile rawFileId)

end ResultService

namespace QcService

/-- `record_result`; the record carries its new identifier. -/
def recordResult (record : QcResultRecord) : Tx QcResultRecord := do
  if record.parsedRecordId = [] then refuse (.invalid (text "parsed_record_id is required"))
  else if record.qcRuleId = [] then refuse (.invalid (text "qc_rule_id is required"))
  else if record.level = [] then refuse (.invalid (text "level is required"))
  else if record.result = [] then refuse (.invalid (text "result is required"))
  else
    match ← sql (.insertQcResult record) with
    | none => raise "failed to create qc result"
    | some id => pure { record with id := id }

/-- `find_rule`. -/
def findRule (qcRuleId : Bytes) : Tx (Option QcRuleRecord) :=
  if qcRuleId = [] then pure none else sql (.selectRule qcRuleId)

end QcService

namespace AlertService

/-- `warning` and `failed` call for an alert. -/
def isAlertLevel (level : Bytes) : Bool := level == text "warning" || level == text "failed"

/-- `is_alert_qc_result`. -/
def isAlertQcResult (result : QcResultRecord) : Bool :=
  isAlertLevel result.level || isAlertLevel result.result

/-- `alert_severity`. -/
def alertSeverity (result : QcResultRecord) : Bytes :=
  if isAlertLevel result.level then result.level else result.result

/-- `alert_message`. -/
def alertMessage (result : QcResultRecord) : Bytes :=
  if result.message ≠ [] then result.message
  else text "qc result " ++ result.id ++ text " is " ++ result.result

/-- `create_alert`; no identifier when the result calls for no alert. -/
def createAlert (result : QcResultRecord) (taskRunId nodeCode : Bytes) : Tx Bytes := do
  if !isAlertQcResult result then pure []
  else
    match ← sql (.insertAlert {
        nodeCode := nodeCode
        taskRunId := taskRunId
        alertType := text "qc_result"
        severity := alertSeverity result
        message := alertMessage result
        status := text "open" }) with
    | none => raise "failed to create alert"
    | some id => pure id

/-- `dispose_alert`: acknowledge or close an alert. -/
def disposeAlert (alertId : Bytes) (acknowledge : Bool) : Tx AlertRecord := do
  if !isPositiveId alertId then refuse (.invalid (text "alert_id must be a positive integer"))
  else
    match ← sql (.selectAlert alertId) with
    | none => refuse (.notFound (text "alert is not found"))
    | some alert =>
      if acknowledge && alert.status == text "closed" then
        refuse (.conflict (text "alert is already closed"))
      else if alert.status == (if acknowledge then text "acknowledged" else text "closed") then
        pure alert
      else if !(← sql (.updateAlert alertId acknowledge)) then
        raise "alert disposition update is not readable"
      else
        match ← sql (.selectAlert alertId) with
        | none => raise "alert disposition update is not readable"
        | some updated => pure updated

end AlertService

namespace ReceiptRepository

/-- `split_ids`. -/
def splitIds (joined : Bytes) : List Bytes :=
  if joined = [] then [] else stringToArray joined

/-- `join_ids`; an identifier that is empty or no numeral throws. -/
def joinIds : List Bytes → Bytes → Tx Bytes
  | [], joined => pure joined
  | id :: rest, joined =>
    if id = [] then raise "agent report receipt response contains an empty id"
    else if !id.all fun b => decide (IsDigit b) then
      raise "agent report receipt response contains an invalid id"
    else joinIds rest ((if joined = [] then [] else joined ++ [byte ',']) ++ id)

/-- `to_receipt`. -/
def toReceipt (record : Database.ReceiptRecord) : AgentReportReceipt where
  id := record.id
  claim := {
    taskRunId := record.taskRunId
    nodeCode := record.nodeCode
    requestType := record.requestType
    idempotencyKey := record.idempotencyKey
    requestFingerprint := record.requestFingerprint }
  response := {
    rawFileIds := splitIds record.rawFileIds
    parsedRecordIds := splitIds record.parsedRecordIds
    qcResultIds := splitIds record.qcResultIds
    alertIds := splitIds record.alertIds }
  completed := record.completed

/-- The answers of `claim`. -/
inductive ClaimResult
  | acquired (receiptId : Bytes)
  | replay (receipt : AgentReportReceipt)
  | idempotencyConflict (receipt : AgentReportReceipt)
  | taskRunConflict (receipt : AgentReportReceipt)
  deriving DecidableEq

/-- The part of `claim` after an insert without a row. -/
def resolveClaim (request : AgentReportReceiptClaim) : Tx ClaimResult := do
  match ← sql (.selectReceiptByKey request.nodeCode request.requestType
      request.idempotencyKey) with
  | some record =>
    let receipt := toReceipt record
    if receipt.claim.requestFingerprint ≠ request.requestFingerprint then
      pure (.idempotencyConflict receipt)
    else if !receipt.completed then raise "agent report receipt is incomplete"
    else pure (.replay receipt)
  | none =>
    if request.requestType = .taskRunReport then
      match ← sql (.selectReportReceipt request.taskRunId) with
      | some existing => pure (.taskRunConflict (toReceipt existing))
      | none => raise "failed to claim agent report receipt"
    else raise "failed to claim agent report receipt"

/-- `claim`. -/
def claim (request : AgentReportReceiptClaim) : Tx ClaimResult := do
  match ← sql (.insertReceipt request) with
  | some id => pure (.acquired id)
  | none => resolveClaim request

/-- `complete`. -/
def complete (receiptId : Bytes) (response : AgentReportReceiptResponse) : Tx Unit := do
  let rawFileIds ← joinIds response.rawFileIds []
  let parsedRecordIds ← joinIds response.parsedRecordIds []
  let qcResultIds ← joinIds response.qcResultIds []
  let alertIds ← joinIds response.alertIds []
  match ← sql (.updateReceiptComplete receiptId rawFileIds parsedRecordIds qcResultIds
      alertIds) with
  | none => raise "failed to complete agent report receipt"
  | some _ => pure ()

end ReceiptRepository

namespace AgentReportService

/-- One value of a fingerprint: its length, a colon and its bytes. -/
def fingerprintPart (value : Bytes) : Bytes :=
  decimal value.length ++ [byte ':'] ++ value

/-- The canonical text of a list of values. -/
def canonical (values : List Bytes) : Bytes := values.flatMap fingerprintPart

/-- The length of a list as a fingerprint value. -/
def count {α : Type} (items : List α) : Bytes := decimal items.length

/-- A status text with its default. -/
def orDefault (value : Bytes) (fallback : String) : Bytes :=
  if value = [] then text fallback else value

/-- The values of one manifest entry. -/
def manifestEntryParts (file : RawFileManifestEntry) : List Bytes :=
  [file.originalName, file.fileHash, file.storagePath, decimalInt file.sizeBytes,
    file.sourceMtime, orDefault file.ingestStatus "collected"]

/-- The text that `manifest_fingerprint` hashes. -/
def manifestCanonical (request : RawFileManifestRequest) : Bytes :=
  canonical ([text "raw_file_manifest", request.taskRunId, request.nodeCode,
    count request.files] ++ request.files.flatMap manifestEntryParts)

/-- The values of one rule result. -/
def qcResultParts (qc : TaskRunReportQcResult) : List Bytes :=
  [qc.qcRuleId, qc.level, qc.result, qc.message]

/-- The values of one parsed row. -/
def parsedRecordParts (parsed : TaskRunReportParsedRecord) : List Bytes :=
  [parsed.rawFileId, parsed.record.stationCode, parsed.record.deviceCode,
    parsed.record.recordTime, parsed.record.payloadJson, orDefault parsed.parseStatus "parsed",
    count parsed.qcResults] ++ parsed.qcResults.flatMap qcResultParts

/-- The values of one failed file. -/
def failedFileParts (failed : TaskRunFailedFile) : List Bytes :=
  [failed.sourcePath, failed.originalName, failed.stage, failed.message,
    failed.archiveRawFileId]

/-- The text that `report_fingerprint` hashes. -/
def reportCanonical (request : TaskRunReportRequest) : Bytes :=
  canonical ([text "task_run_report", request.taskRunId, request.nodeCode,
      request.status.toStorage, request.finishedAt, decimalInt request.itemsTotal,
      decimalInt request.itemsSuccess, decimalInt request.itemsFailed, request.errorSummary,
      count request.parsedRecords] ++ request.parsedRecords.flatMap parsedRecordParts ++
    if request.hasFailedFiles then
      [text "failed_files_v1", count request.failedFiles] ++
        request.failedFiles.flatMap failedFileParts
    else [])

/-- `validate_idempotency_key`. -/
def validateIdempotencyKey (key : Bytes) : Option Failure :=
  if key = [] then some (.invalid (text "idempotency_key is required"))
  else if 128 < key.length then
    some (.invalid (text "idempotency_key must not exceed 128 characters"))
  else none

/-- `validate_task_run_node`. -/
def validateTaskRunNode (taskRunId nodeCode : Bytes) : Tx TaskRunRecord := do
  if taskRunId = [] then refuse (.invalid (text "task_run_id is required"))
  else if nodeCode = [] then refuse (.invalid (text "node_code is required"))
  else
    match ← TaskRunService.findRun taskRunId with
    | none => refuse (.notFound (text "task run is not found"))
    | some run =>
      if run.nodeCode ≠ nodeCode then
        refuse (.conflict (text "task run does not belong to node"))
      else pure run

/-- The refusal of a key that was used for another request. -/
def reusedKey : Failure :=
  .conflict (text "idempotency_key was already used for a different request")

/-- The refusal of a second report on a run. -/
def secondReport : Failure := .conflict (text "task run already has a completed report")

/-- Register the files of a manifest in order. -/
def recordFiles (request : RawFileManifestRequest) : List RawFileManifestEntry → Tx (List Bytes)
  | [] => pure []
  | file :: rest => do
    let id ← ResultService.recordRawFile {
      taskRunId := request.taskRunId
      nodeCode := request.nodeCode
      originalName := file.originalName
      fileHash := file.fileHash
      storagePath := file.storagePath
      sizeBytes := file.sizeBytes
      sourceMtime := file.sourceMtime
      ingestStatus := file.ingestStatus }
    let ids ← recordFiles request rest
    pure (id :: ids)

/-- What a manifest claims. -/
def manifestClaim (request : RawFileManifestRequest) : AgentReportReceiptClaim where
  taskRunId := request.taskRunId
  nodeCode := request.nodeCode
  requestType := .rawFileManifest
  idempotencyKey := request.idempotencyKey
  requestFingerprint := (R.sha256 (manifestCanonical request)).hex

/-- `accept_raw_file_manifest`. -/
def acceptRawFileManifest (request : RawFileManifestRequest) : Tx RawFileManifestResult := do
  match validateIdempotencyKey request.idempotencyKey with
  | some failure => refuse failure
  | none =>
    let _ ← validateTaskRunNode request.taskRunId request.nodeCode
    match ← ReceiptRepository.claim (manifestClaim R request) with
    | .replay receipt => pure ⟨receipt.response.rawFileIds, true⟩
    | .idempotencyConflict _ => refuse reusedKey
    | .taskRunConflict _ => refuse secondReport
    | .acquired receiptId => do
      let rawFileIds ← recordFiles request request.files
      ReceiptRepository.complete receiptId { rawFileIds := rawFileIds }
      pure ⟨rawFileIds, false⟩

/-- The first identifier a report leaves empty. -/
def checkIds (request : TaskRunReportRequest) : Option Failure :=
  request.parsedRecords.findSome? fun parsed =>
    if parsed.rawFileId = [] then some (.invalid (text "raw_file_id is required"))
    else if parsed.qcResults.any fun qc => qc.qcRuleId == [] then
      some (.invalid (text "qc_rule_id is required"))
    else none

/-- The rule of every result must exist and be enabled; each is read once. -/
def checkRules : List Bytes → List TaskRunReportQcResult → Tx (List Bytes)
  | checked, [] => pure checked
  | checked, qc :: rest => do
    if checked.contains qc.qcRuleId then checkRules checked rest
    else
      match ← QcService.findRule qc.qcRuleId with
      | none => refuse (.notFound (text "qc rule is not found"))
      | some rule =>
        if !rule.enabled then refuse (.conflict (text "qc rule is disabled"))
        else checkRules (qc.qcRuleId :: checked) rest

/-- The part of `validate_failed_files` on the entries of the list. -/
def checkFailedFiles (taskRunId : Bytes) (retryFiles : Option (List TaskRunRetryFile)) :
    List Bytes → List TaskRunFailedFile → Tx Unit
  | _, [] => pure ()
  | seen, failed :: rest => do
    let fixed := retryFiles.getD []
    let target := fixed.find? fun file => file.sourcePath == failed.sourcePath
    if retryFiles.isSome && target.isNone then
      refuse (.invalid (text "failed files must come from the fixed retry list"))
    else if seen.contains failed.sourcePath then
      refuse (.invalid (text "failed files must be unique by source_path"))
    else
      let archiveTarget := target.filter fun file => file.inputType == text "archive"
      if failed.archiveRawFileId = [] then
        -- A failed archive target keeps its reference, or the next retry would turn into a
        -- new collection of the source file.
        if archiveTarget.isSome then
          refuse (.conflict (text "archive retry target must keep its archive reference"))
        else checkFailedFiles taskRunId retryFiles (failed.sourcePath :: seen) rest
      else do
        let rawFile ← ResultService.findRawFile failed.archiveRawFileId
        let own := rawFile.any fun file => file.taskRunId == taskRunId
        let inherited := archiveTarget.any fun file =>
          file.archiveRawFileId == failed.archiveRawFileId
        if own || inherited then
          checkFailedFiles taskRunId retryFiles (failed.sourcePath :: seen) rest
        else if rawFile.isSome then
          refuse (.conflict
            (text "failed file archive reference does not belong to the task run"))
        else
          refuse (.conflict
            (text "failed file archive reference is not allowed for this report"))

/-- `validate_failed_files`. -/
def validateFailedFiles (request : TaskRunReportRequest) : Tx Unit := do
  if request.status = .succeeded ∧ request.failedFiles ≠ [] then
    refuse (.invalid (text "succeeded task runs cannot carry failed files"))
  else do
    let retryFiles ← TaskRunService.findRetryFiles R request.taskRunId
    checkFailedFiles request.taskRunId retryFiles [] request.failedFiles

/-- The identifiers a report has created so far. -/
structure Created where
  parsedRecordIds : List Bytes := []
  qcResultIds : List Bytes := []
  alertIds : List Bytes := []
  deriving DecidableEq

/-- Store the rule results of one parsed row with the alerts they call for. -/
def recordQcResults (request : TaskRunReportRequest) (parsedRecordId : Bytes) :
    List TaskRunReportQcResult → Created → Tx Created
  | [], created => pure created
  | qc :: rest, created => do
    let stored ← QcService.recordResult {
      parsedRecordId := parsedRecordId
      qcRuleId := qc.qcRuleId
      level := qc.level
      result := qc.result
      message := qc.message }
    let alertId ← AlertService.createAlert stored request.taskRunId request.nodeCode
    recordQcResults request parsedRecordId rest { created with
      qcResultIds := created.qcResultIds ++ [stored.id]
      alertIds := created.alertIds ++ if alertId = [] then [] else [alertId] }

/-- The raw file of a parsed row, read once for each identifier. -/
def verifyRawFile (request : TaskRunReportRequest) (verified : List (Bytes × RawFileRecord))
    (rawFileId : Bytes) : Tx RawFileRecord := do
  match verified.lookup rawFileId with
  | some file => pure file
  | none =>
    match ← ResultService.findRawFile rawFileId with
    | none => refuse (.notFound (text "raw file is not found"))
    | some file =>
      if file.taskRunId ≠ request.taskRunId then
        refuse (.conflict (text "raw file does not belong to task run"))
      else pure file

/-- Store the parsed rows of a report in order. -/
def recordParsedRecords (request : TaskRunReportRequest) :
    List TaskRunReportParsedRecord → List (Bytes × RawFileRecord) → Created → Tx Created
  | [], _, created => pure created
  | parsed :: rest, verified, created => do
    let file ← verifyRawFile request verified parsed.rawFileId
    let id ← ResultService.recordParsedRecord {
      taskRunId := request.taskRunId
      rawFileId := parsed.rawFileId
      record := parsed.record
      parseStatus := parsed.parseStatus } file
    let created ← recordQcResults request id parsed.qcResults
      { created with parsedRecordIds := created.parsedRecordIds ++ [id] }
    recordParsedRecords request rest ((parsed.rawFileId, file) :: verified) created

/-- What a report claims. -/
def reportClaim (request : TaskRunReportRequest) : AgentReportReceiptClaim where
  taskRunId := request.taskRunId
  nodeCode := request.nodeCode
  requestType := .taskRunReport
  idempotencyKey := request.idempotencyKey
  requestFingerprint := (R.sha256 (reportCanonical request)).hex

/-- What a report writes to its run. -/
def finishRequest (request : TaskRunReportRequest) : FinishTaskRunRequest where
  taskRunId := request.taskRunId
  status := request.status
  finishedAt := request.finishedAt
  itemsTotal := request.itemsTotal
  itemsSuccess := request.itemsSuccess
  itemsFailed := request.itemsFailed
  errorSummary := request.errorSummary
  hasFailedFiles := request.hasFailedFiles
  failedFiles := request.failedFiles

/-- The checks of a claimed report before anything but the receipt is written. -/
def checkReport (request : TaskRunReportRequest) (run : TaskRunRecord) : Tx Unit := do
  if run.status.isTerminal then refuse (.conflict (text "task run is already finished"))
  else
    match checkIds request with
    | some failure => refuse failure
    | none => do
      let _ ← checkRules [] (request.parsedRecords.flatMap TaskRunReportParsedRecord.qcResults)
      if request.hasFailedFiles then validateFailedFiles R request else pure ()

/-- `accept_task_run_report`. -/
def acceptTaskRunReport (request : TaskRunReportRequest) : Tx TaskRunReportResult := do
  match validateIdempotencyKey request.idempotencyKey with
  | some failure => refuse failure
  | none =>
    let run ← validateTaskRunNode request.taskRunId request.nodeCode
    if !request.status.isTerminal then
      refuse (.invalid (text "finish status must be succeeded or failed"))
    else
      match ← ReceiptRepository.claim (reportClaim R request) with
      | .replay receipt =>
        pure ⟨receipt.response.parsedRecordIds, receipt.response.qcResultIds,
          receipt.response.alertIds, true⟩
      | .idempotencyConflict _ => refuse reusedKey
      | .taskRunConflict _ => refuse secondReport
      | .acquired receiptId => do
        checkReport R request run
        let created ← recordParsedRecords request request.parsedRecords [] {}
        TaskRunService.finish R (finishRequest request)
        ReceiptRepository.complete receiptId {
          parsedRecordIds := created.parsedRecordIds
          qcResultIds := created.qcResultIds
          alertIds := created.alertIds }
        pure ⟨created.parsedRecordIds, created.qcResultIds, created.alertIds, false⟩

end AgentReportService

end LabBridge.Server
