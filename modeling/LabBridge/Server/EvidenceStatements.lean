import LabBridge.Server.RunStatements

/-!
# The statements on evidence and receipts

The SQL of the result, rule-result, alert and receipt repositories. A receipt answers with
its identifier lists joined by commas; completing one stores the joined lists as arrays.
-/

namespace LabBridge.Server

open ByteText LabBridge.Core Storage

/-- Join texts with commas, as `string_agg` does. -/
def stringAgg (values : List Bytes) : Bytes := [byte ','].intercalate values

/-- The answer of an insert into a table without unique indexes. -/
def stored {Row : Type} {key : Row → RowId} {clash : Row → Row → Bool}
    (result : Except InsertError (RowId × SerialTable Row key clash)) :
    Answer (RowId × SerialTable Row key clash) :=
  match result with
  | .ok row => .ok row
  | .error .exhausted => .error .outage
  | .error .duplicate => .error .rejected

/-- What is stored was inserted. -/
theorem stored_eq_ok {Row : Type} {key : Row → RowId} {clash : Row → Row → Bool}
    {result : Except InsertError (RowId × SerialTable Row key clash)}
    {row : RowId × SerialTable Row key clash} : stored result = .ok row ↔ result = .ok row := by
  rcases result with (_ | _) | _ <;> simp [stored]

/-- Split a text at every comma, as `string_to_array` does. -/
def stringToArray (value : Bytes) : List Bytes :=
  value.splitOn (byte ',')

namespace Database

variable (pg : Postgres) (session : Session) (db : Database)

/-- The run that evidence is inserted for: it must exist and belong to the node. -/
def ownRun (taskRunId : Option RowId) (nodeCode : Bytes) : Option TaskRunRow :=
  (taskRunId.bind db.taskRuns.find?).filter fun run => run.nodeCode == nodeCode

/-- The insert of `create_raw_file`. -/
def insertRawFile (record : RawFileRecord) : Answer (Option Bytes × Database) := do
  let taskRunId ← pg.idParam record.taskRunId
  let nodeCode ← pg.textParam record.nodeCode
  let originalName ← pg.varcharParam 255 record.originalName
  let fileHash ← pg.nullableVarcharParam 128 record.fileHash
  let storagePath ← pg.textParam record.storagePath
  let sourceMtime ← pg.nullableTimeParam record.sourceMtime
  let ingestStatus ← pg.varcharParam 32 record.ingestStatus
  match db.ownRun taskRunId nodeCode with
  | none => pure (none, db)
  | some run => do
    let (id, rawFiles) ← stored (db.rawFiles.insert (fun id => {
      id := id
      taskRunId := run.id
      nodeCode := run.nodeCode
      originalName := originalName
      fileHash := fileHash
      storagePath := storagePath
      sizeBytes := record.sizeBytes
      sourceMtime := sourceMtime
      ingestStatus := ingestStatus }) (fun _ => rfl) (fun _ _ => rfl))
    pure (some (decimal id), { db with rawFiles := rawFiles })

/-- The read of `find_raw_file`. -/
def selectRawFile (rawFileId : Bytes) : Answer (Option RawFileRecord) := do
  let id ← pg.idParam rawFileId
  pure ((id.bind db.rawFiles.find?).map fun file => {
    id := decimal file.id
    taskRunId := decimal file.taskRunId
    nodeCode := file.nodeCode
    originalName := file.originalName
    fileHash := file.fileHash
    storagePath := file.storagePath
    sizeBytes := file.sizeBytes
    sourceMtime := pg.utcColumn file.sourceMtime
    ingestStatus := file.ingestStatus })

/-- The insert of `create_parsed_record`. -/
def insertParsedRecord (record : ParsedRecordRecord) : Answer (Option Bytes × Database) := do
  let rawFileId ← pg.idParam record.rawFileId
  let taskRunId ← pg.idParam record.taskRunId
  let stationCode ← pg.nullableVarcharParam 64 record.record.stationCode
  let deviceCode ← pg.nullableVarcharParam 64 record.record.deviceCode
  let recordTime ← pg.nullableTimeParam record.record.recordTime
  let payloadJson ← pg.jsonParam record.record.payloadJson
  let parseStatus ← pg.varcharParam 32 record.parseStatus
  match (rawFileId.bind db.rawFiles.find?).filter fun file =>
      some file.taskRunId == taskRunId && (db.taskRuns.find? file.taskRunId).isSome with
  | none => pure (none, db)
  | some file => do
    let (id, parsedRecords) ← stored (db.parsedRecords.insert (fun id => {
      id := id
      rawFileId := file.id
      taskRunId := file.taskRunId
      stationCode := stationCode
      deviceCode := deviceCode
      recordTime := recordTime
      payloadJson := payloadJson
      parseStatus := parseStatus }) (fun _ => rfl) (fun _ _ => rfl))
    pure (some (decimal id), { db with parsedRecords := parsedRecords })

/-- The insert of `create_result`; both identifiers are foreign keys. -/
def insertQcResult (record : QcResultRecord) : Answer (Option Bytes × Database) := do
  let parsedRecordId ← pg.idParam record.parsedRecordId
  let qcRuleId ← pg.idParam record.qcRuleId
  let level ← pg.varcharParam 32 record.level
  let result ← pg.varcharParam 32 record.result
  let message ← pg.textParam record.message
  match parsedRecordId.bind db.parsedRecords.find?, qcRuleId.bind db.qcRules.find? with
  | some parsed, some rule => do
    let (id, qcResults) ← stored (db.qcResults.insert (fun id => {
      id := id
      parsedRecordId := parsed.id
      qcRuleId := rule.id
      level := level
      result := result
      message := message }) (fun _ => rfl) (fun _ _ => rfl))
    pure (some (decimal id), { db with qcResults := qcResults })
  | _, _ => .error .rejected

/-- The insert of the alert repository. -/
def insertAlert (record : AlertRecord) : Answer (Option Bytes × Database) := do
  let nodeCode ← pg.textParam record.nodeCode
  let taskRunId ← pg.nullableIdParam record.taskRunId
  let alertType ← pg.varcharParam 64 record.alertType
  let severity ← pg.varcharParam 32 record.severity
  let message ← pg.textParam record.message
  let status ← pg.varcharParam 32 (if record.status = [] then text "open" else record.status)
  match db.nodes.rows.find? fun node => node.nodeCode == nodeCode with
  | none => pure (none, db)
  | some node =>
    match taskRunId with
    | none => store node none alertType severity message status
    | some run =>
      match db.ownRun run node.nodeCode with
      | none => pure (none, db)
      | some run => store node (some run.id) alertType severity message status
where
  store (node : NodeRow) (taskRunId : Option RowId) (alertType severity message status : Bytes) :
      Answer (Option Bytes × Database) := do
    let (id, alerts) ← stored (db.alerts.insert (fun id => {
      id := id
      nodeCode := node.nodeCode
      taskRunId := taskRunId
      alertType := alertType
      severity := severity
      message := message
      status := status }) (fun _ => rfl) (fun _ _ => rfl))
    pure (some (decimal id), { db with alerts := alerts })

/-- The projection shared by every read of an alert. -/
def toAlertRecord (alert : AlertRow) : AlertRecord where
  id := decimal alert.id
  nodeCode := alert.nodeCode
  taskRunId := (alert.taskRunId.map fun id => decimal id).getD []
  alertType := alert.alertType
  severity := alert.severity
  message := alert.message
  status := alert.status
  acknowledgedAt := pg.utcColumn alert.acknowledgedAt
  closedAt := pg.utcColumn alert.closedAt

/-- The read of an alert, with or without its row lock. -/
def selectAlert (alertId : Bytes) : Answer (Option AlertRecord) := do
  let id ← pg.idParam alertId
  pure ((id.bind db.alerts.find?).map (toAlertRecord pg))

/-- The updates of `save_acknowledged` and `save_closed`: the new status and the first time
of that disposition. -/
def updateAlert (alertId : Bytes) (acknowledge : Bool) : Answer (Bool × Database) := do
  let id ← pg.idParam alertId
  let alerts ← accepted (db.alerts.update (fun alert => some alert.id == id) (fun alert =>
    if acknowledge then { alert with
      status := text "acknowledged"
      acknowledgedAt := some (alert.acknowledgedAt.getD session.now) }
    else { alert with
      status := text "closed"
      closedAt := some (alert.closedAt.getD session.now) })
    fun alert => by cases acknowledge <;> rfl)
  pure ((id.bind db.alerts.find?).isSome, { db with alerts := alerts })

/-- The insert of `claim`. -/
def insertReceipt (claim : AgentReportReceiptClaim) : Answer (Option Bytes × Database) := do
  let taskRunId ← pg.idParam claim.taskRunId
  let nodeCode ← pg.textParam claim.nodeCode
  let idempotencyKey ← pg.varcharParam 128 claim.idempotencyKey
  let requestFingerprint ← pg.varcharParam 64 claim.requestFingerprint
  match db.ownRun taskRunId nodeCode with
  | none => pure (none, db)
  | some run =>
    match db.receipts.insert (fun id => {
        id := id
        nodeCode := run.nodeCode
        taskRunId := run.id
        requestType := claim.requestType
        idempotencyKey := idempotencyKey
        requestFingerprint := requestFingerprint
        response := none }) (fun _ => rfl) (fun _ _ => rfl) with
    | .ok (id, receipts) => pure (some (decimal id), { db with receipts := receipts })
    | .error .duplicate => pure (none, db)
    | .error .exhausted => .error .outage

/-- The row of a receipt read: the identifier arrays are joined by commas. -/
structure ReceiptRecord where
  id : Bytes
  taskRunId : Bytes
  nodeCode : Bytes
  requestType : AgentReportRequestType
  idempotencyKey : Bytes
  requestFingerprint : Bytes
  completed : Bool
  rawFileIds : Bytes
  parsedRecordIds : Bytes
  qcResultIds : Bytes
  alertIds : Bytes
  deriving DecidableEq

/-- The projection shared by the receipt reads. -/
def toReceiptRecord (receipt : ReceiptRow) : ReceiptRecord :=
  let joined (ids : StoredResponse → List Bytes) : Bytes :=
    stringAgg ((receipt.response.map ids).getD [])
  { id := decimal receipt.id
    taskRunId := decimal receipt.taskRunId
    nodeCode := receipt.nodeCode
    requestType := receipt.requestType
    idempotencyKey := receipt.idempotencyKey
    requestFingerprint := receipt.requestFingerprint
    completed := receipt.response.isSome
    rawFileIds := joined StoredResponse.rawFileIds
    parsedRecordIds := joined StoredResponse.parsedRecordIds
    qcResultIds := joined StoredResponse.qcResultIds
    alertIds := joined StoredResponse.alertIds }

/-- The receipt read by node, kind and idempotency key. -/
def selectReceiptByKey (nodeCode : Bytes) (requestType : AgentReportRequestType)
    (idempotencyKey : Bytes) : Answer (Option ReceiptRecord) := do
  let nodeCode ← pg.textParam nodeCode
  let idempotencyKey ← pg.textParam idempotencyKey
  pure ((db.receipts.rows.find? fun receipt =>
    receipt.nodeCode == nodeCode && receipt.requestType == requestType &&
      receipt.idempotencyKey == idempotencyKey).map toReceiptRecord)

/-- The read of the report receipt of a run. -/
def selectReportReceipt (taskRunId : Bytes) : Answer (Option ReceiptRecord) := do
  let id ← pg.idParam taskRunId
  pure ((db.receipts.rows.find? fun receipt =>
    some receipt.taskRunId == id && receipt.requestType == .taskRunReport).map toReceiptRecord)

/-- An identifier array as the update stores it: no element for the empty text. -/
def storedIds (joined : Bytes) : List Bytes :=
  if joined = [] then [] else stringToArray joined

/-- The update of `complete`; it answers with the receipt it changed. -/
def updateReceiptComplete (receiptId rawFileIds parsedRecordIds qcResultIds alertIds : Bytes) :
    Answer (Option Bytes × Database) := do
  let id ← pg.idParam receiptId
  let rawFileIds ← pg.textParam rawFileIds
  let parsedRecordIds ← pg.textParam parsedRecordIds
  let qcResultIds ← pg.textParam qcResultIds
  let alertIds ← pg.textParam alertIds
  let open? (receipt : ReceiptRow) : Bool :=
    some receipt.id == id && receipt.response.isNone
  let receipts ← accepted (db.receipts.update open? (fun receipt => { receipt with
    response := some {
      rawFileIds := storedIds rawFileIds
      parsedRecordIds := storedIds parsedRecordIds
      qcResultIds := storedIds qcResultIds
      alertIds := storedIds alertIds
      completedAt := session.now } }) fun _ => rfl)
  pure ((db.receipts.rows.find? open?).map fun receipt => decimal receipt.id,
    { db with receipts := receipts })

end Database

end LabBridge.Server
