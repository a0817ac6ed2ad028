import LabBridge.Library.Program
import LabBridge.Server.EvidenceStatements

/-!
# Transactions

A transaction is a program over the SQL statements of the repositories. Its handler runs a
statement on the tables; the executors commit a transaction that ends with a result and
roll back every other one, as `SqlTransaction` does.
-/

namespace LabBridge.Server

open ByteText LabBridge.Core Storage Interaction

/-- The statements of the repositories, indexed by what they answer. -/
inductive Statement : Type → Type
  | insertRun (record : TaskRunRecord) : Statement (Option Bytes)
  | insertScheduledRun (record : TaskRunRecord) : Statement (Option Bytes)
  | insertManualRun (request : ManualTaskRunRequest) (retryFilesJson : Bytes) :
      Statement (Option Bytes)
  | selectRunById (taskRunId : Bytes) : Statement (Option TaskRunRecord)
  | selectRunForUpdate (taskRunId : Bytes) : Statement (Option TaskRunRecord)
  | selectRunByNodeKey (nodeCode executionKey : Bytes) : Statement (Option TaskRunRecord)
  | selectRunByKey (executionKey : Bytes) : Statement (Option TaskRunRecord)
  | selectPendingManual (taskId : Bytes) : Statement (Option TaskRunRecord)
  | selectFailedFiles (taskRunId : Bytes) : Statement (Option Bytes)
  | selectRetryFiles (taskRunId : Bytes) : Statement (Option Bytes)
  | updateRunFinish (record : TaskRunRecord) : Statement Unit
  | updatePendingManualFailed (taskId errorSummary : Bytes) : Statement Unit
  | updateManualRunning (taskRunId startedAt : Bytes) : Statement Unit
  | selectTaskForUpdate (taskId : Bytes) : Statement Bool
  | selectTask (taskId : Bytes) : Statement (Option TaskRecord)
  | selectDataSource (dataSourceId : Bytes) : Statement (Option DataSourceRecord)
  | selectTaskQcRuleIds (taskId : Bytes) : Statement (List Bytes)
  | updateTaskEnabled (taskId : Bytes) (enabled : Bool) : Statement Unit
  | selectNodeByCode (nodeCode : Bytes) : Statement (Option NodeRecord)
  | selectRule (qcRuleId : Bytes) : Statement (Option QcRuleRecord)
  | insertRawFile (record : RawFileRecord) : Statement (Option Bytes)
  | selectRawFile (rawFileId : Bytes) : Statement (Option RawFileRecord)
  | insertParsedRecord (record : ParsedRecordRecord) : Statement (Option Bytes)
  | insertQcResult (record : QcResultRecord) : Statement (Option Bytes)
  | insertAlert (record : AlertRecord) : Statement (Option Bytes)
  | selectAlert (alertId : Bytes) : Statement (Option AlertRecord)
  | updateAlert (alertId : Bytes) (acknowledge : Bool) : Statement Bool
  | insertReceipt (claim : AgentReportReceiptClaim) : Statement (Option Bytes)
  | selectReceiptByKey (nodeCode : Bytes) (requestType : AgentReportRequestType)
      (idempotencyKey : Bytes) : Statement (Option Database.ReceiptRecord)
  | selectReportReceipt (taskRunId : Bytes) : Statement (Option Database.ReceiptRecord)
  | updateReceiptComplete
      (receiptId rawFileIds parsedRecordIds qcResultIds alertIds : Bytes) :
      Statement (Option Bytes)

namespace Statement

/-- A read answers and leaves the tables as they are. -/
def reading {α : Type} (db : Database) (answer : Answer α) : Answer (α × Database) :=
  answer.map fun value => (value, db)

/-- The effect of a statement on the tables. -/
def exec (pg : Postgres) (session : Session) (db : Database) :
    {α : Type} → Statement α → Answer (α × Database)
  | _, insertRun record => db.insertRun pg record
  | _, insertScheduledRun record => db.insertScheduledRun pg record
  | _, insertManualRun request json => db.insertManualRun pg session request json
  | _, selectRunById id => reading db (db.selectRunById pg id)
  | _, selectRunForUpdate id => reading db (db.selectRunById pg id)
  | _, selectRunByNodeKey node key => reading db (db.selectRunByNodeKey pg session node key)
  | _, selectRunByKey key => reading db (db.selectRunByKey pg session key)
  | _, selectPendingManual id => reading db (db.selectPendingManual pg id)
  | _, selectFailedFiles id => reading db (db.selectFailedFiles pg id)
  | _, selectRetryFiles id => reading db (db.selectRetryFiles pg id)
  | _, updateRunFinish record => db.updateRunFinish pg record
  | _, updatePendingManualFailed id summary => db.updatePendingManualFailed pg session id summary
  | _, updateManualRunning id startedAt => db.updateManualRunning pg id startedAt
  | _, selectTaskForUpdate id => reading db (db.selectTaskForUpdate pg id)
  | _, selectTask id => reading db (db.selectTask pg id)
  | _, selectDataSource id => reading db (db.selectDataSource pg id)
  | _, selectTaskQcRuleIds id => reading db (db.selectTaskQcRuleIds pg id)
  | _, updateTaskEnabled id enabled => db.updateTaskEnabled pg id enabled
  | _, selectNodeByCode code => reading db (db.selectNodeByCode pg code)
  | _, selectRule id => reading db (db.selectRule pg id)
  | _, insertRawFile record => db.insertRawFile pg record
  | _, selectRawFile id => reading db (db.selectRawFile pg id)
  | _, insertParsedRecord record => db.insertParsedRecord pg record
  | _, insertQcResult record => db.insertQcResult pg record
  | _, insertAlert record => db.insertAlert pg record
  | _, selectAlert id => reading db (db.selectAlert pg id)
  | _, updateAlert id acknowledge => db.updateAlert pg session id acknowledge
  | _, insertReceipt claim => db.insertReceipt pg claim
  | _, selectReceiptByKey node requestType key =>
    reading db (db.selectReceiptByKey pg node requestType key)
  | _, selectReportReceipt id => reading db (db.selectReportReceipt pg id)
  | _, updateReceiptComplete id raw parsed qc alerts =>
    db.updateReceiptComplete pg session id raw parsed qc alerts

end Statement

/-- A program of one transaction. -/
abbrev Tx (α : Type) := Program Statement Stop α

/-- Issue a statement. -/
def sql {α : Type} (statement : Statement α) : Tx α := Program.perform statement

/-- End with a client-error status. -/
def refuse {α : Type} (failure : Failure) : Tx α := .stop (.refused failure)

/-- End with an exception of the program. -/
def raise {α : Type} (message : String) : Tx α := .stop (.thrown (text message))

/-- A statement that fails raises its fault and changes nothing. -/
def handler (pg : Postgres) (session : Session) : Program.Handler Statement Stop Database :=
  fun _ statement db =>
    match statement.exec pg session db with
    | .ok (answer, reached) => (.ok answer, reached)
    | .error fault => (.error (.failed fault), db)

/-- Run a transaction body without committing or rolling back. -/
def Tx.run {α : Type} (tx : Tx α) (pg : Postgres) (session : Session) (db : Database) :
    Except Stop α × Database :=
  Program.run (handler pg session) tx db

/-- Run a transaction on its own connection: commit a result, roll back anything else. -/
def Tx.execute {α : Type} (tx : Tx α) (pg : Postgres) (session : Session) (db : Database) :
    Except Stop α × Database :=
  match Program.run (Program.faultAfter (handler pg session) (.failed .outage)) tx
      (db, session.fault) with
  | (.ok value, reached, _) => (.ok value, reached)
  | (.error stop, reached, _) => (.error stop, db.rollback reached)

/-- A transaction that answers a result answers it with the tables it leaves. -/
theorem Tx.execute_of_answer {α : Type} {tx : Tx α} {result : α} {pg : Postgres}
    {session : Session} {db : Database} (h : (tx.execute pg session db).1 = .ok result) :
    tx.execute pg session db = (.ok result, (tx.execute pg session db).2) :=
  Prod.ext h rfl

end LabBridge.Server
