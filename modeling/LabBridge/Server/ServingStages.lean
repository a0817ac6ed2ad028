import LabBridge.Library.Protocol
import LabBridge.Server.LockProtocol
import LabBridge.Server.Traffic
import LabBridge.Server.Acceptance

/-!
# How far a request has come

A manifest claims its receipt before it stores files. A report reads its run before anything
else; when it has found the run open and acquired its claim, it stores parsed rows, each with
its rule results and alerts, then ends the run. The other requests stay in one stage: they
write only what their kind of request writes.
-/

namespace LabBridge.Server

open ByteText LabBridge.Core Storage Interaction AgentReportService

variable {R : Runtime} {α : Type}

/-- How far a request has come. -/
inductive ServingStage
  /-- A report has asked nothing. -/
  | begun
  /-- No claim that permits evidence is acquired. -/
  | reading
  /-- A report has found its run open. -/
  | opened
  /-- The claim is acquired, for a report of a run that it has found open. -/
  | claimed (receiptId : Bytes)
  /-- A report has stored a parsed row. -/
  | parsed (receiptId parsedRecordId : Bytes)
  /-- A report has read the identifier of the run that it ends. -/
  | located (receiptId taskRunId : Bytes)
  /-- A report has ended its run. -/
  | finished (receiptId : Bytes)

namespace ServingStage

/-- The receipt of a stage in which a report stores rows. -/
def storing : ServingStage → Option Bytes
  | claimed receiptId | parsed receiptId _ => some receiptId
  | _ => none

end ServingStage

/-- The requests that create and start runs. -/
def Call.startsRuns : Call → Bool
  | .start _ | .trigger _ _ | .retry _ _ => true
  | _ => false

/-- The stage in which a request begins. -/
def Call.entry : Call → ServingStage
  | .report _ => .begun
  | _ => .reading

/-- The stages that an answer leads a request to. -/
inductive ServingStage.After (R : Runtime) :
    Call → ServingStage → ∀ {γ : Type}, Statement γ → γ → ServingStage → Prop
  | read {call : Call} {stage : ServingStage} {γ : Type} {statement : Statement γ} {answer : γ}
      (known : stage ≠ .begun) (isRead : statement.IsRead) : After R call stage statement answer stage
  | start {call : Call} {γ : Type} {statement : Statement γ} {answer : γ}
      (starts : call.startsRuns = true) (isStarting : statement.IsStarting) :
      After R call .reading statement answer .reading
  | switch {taskId : Bytes} {enabled : Bool} {γ : Type} {statement : Statement γ} {answer : γ}
      (isSwitching : statement.IsSwitching) :
      After R (.setEnabled taskId enabled) .reading statement answer .reading
  | dispose {alertId : Bytes} {acknowledge answer : Bool} :
      After R (.disposeAlert alertId acknowledge) .reading (.updateAlert alertId acknowledge) answer
        .reading
  | refused {call : Call} {stage : ServingStage} {claim : AgentReportReceiptClaim}
      (known : stage ≠ .begun) : After R call stage (.insertReceipt claim) none stage
  | claimManifest {request : RawFileManifestRequest} {receiptId : Bytes}
      (fits : request.idempotencyKey.length ≤ 128) :
      After R (.manifest request) .reading (.insertReceipt (manifestClaim R request))
        (some receiptId) (.claimed receiptId)
  | storeFile {request : RawFileManifestRequest} {receiptId : Bytes} {record : RawFileRecord}
      {answer : Option Bytes} (files : request.files ≠ [])
      (run : record.taskRunId = request.taskRunId) :
      After R (.manifest request) (.claimed receiptId) (.insertRawFile record) answer
        (.claimed receiptId)
  | look {request : TaskRunReportRequest} {answer : Option TaskRunRecord} :
      After R (.report request) .begun (.selectRunById request.taskRunId) answer .reading
  | findOpen {request : TaskRunReportRequest} {run : TaskRunRecord}
      (isOpen : run.status.isTerminal = false) (node : run.nodeCode = request.nodeCode) :
      After R (.report request) .begun (.selectRunById request.taskRunId) (some run) .opened
  | claimEnded {request : TaskRunReportRequest} {receiptId : Bytes}
      (fits : request.idempotencyKey.length ≤ 128) :
      After R (.report request) .reading (.insertReceipt (reportClaim R request)) (some receiptId)
        .reading
  | claimReport {request : TaskRunReportRequest} {receiptId : Bytes}
      (fits : request.idempotencyKey.length ≤ 128) :
      After R (.report request) .opened (.insertReceipt (reportClaim R request))
        (some receiptId) (.claimed receiptId)
  | storeRow {request : TaskRunReportRequest} {stage : ServingStage} {receiptId key : Bytes}
      {record : ParsedRecordRecord} (stores : stage.storing = some receiptId)
      (run : record.taskRunId = request.taskRunId) :
      After R (.report request) stage (.insertParsedRecord record) (some key)
        (.parsed receiptId key)
  | refuseRow {request : TaskRunReportRequest} {stage : ServingStage}
      {record : ParsedRecordRecord} (known : stage ≠ .begun) :
      After R (.report request) stage (.insertParsedRecord record) none stage
  | storeResult {request : TaskRunReportRequest} {receiptId key : Bytes} {record : QcResultRecord}
      {answer : Option Bytes} (row : record.parsedRecordId = key) :
      After R (.report request) (.parsed receiptId key) (.insertQcResult record) answer
        (.parsed receiptId key)
  | raiseAlert {request : TaskRunReportRequest} {receiptId key : Bytes} {record : AlertRecord}
      {answer : Option Bytes} (run : record.taskRunId = request.taskRunId) :
      After R (.report request) (.parsed receiptId key) (.insertAlert record) answer
        (.parsed receiptId key)
  | locate {request : TaskRunReportRequest} {stage : ServingStage} {receiptId : Bytes}
      {run : TaskRunRecord} (stores : stage.storing = some receiptId) :
      After R (.report request) stage (.selectRunById request.taskRunId) (some run)
        (.located receiptId run.id)
  | finish {request : TaskRunReportRequest} {receiptId taskRunId : Bytes} {record : TaskRunRecord}
      {answer : Unit} (named : record.id = taskRunId) (ended : record.status.isTerminal = true) :
      After R (.report request) (.located receiptId taskRunId) (.updateRunFinish record) answer
        (.finished receiptId)
  | completeManifest {request : RawFileManifestRequest}
      {receiptId rawFileIds parsedRecordIds qcResultIds alertIds : Bytes} {answer : Option Bytes} :
      After R (.manifest request) (.claimed receiptId)
        (.updateReceiptComplete receiptId rawFileIds parsedRecordIds qcResultIds alertIds) answer
        (.claimed receiptId)
  | completeReport {request : TaskRunReportRequest}
      {receiptId rawFileIds parsedRecordIds qcResultIds alertIds : Bytes} {answer : Option Bytes} :
      After R (.report request) (.finished receiptId)
        (.updateReceiptComplete receiptId rawFileIds parsedRecordIds qcResultIds alertIds) answer
        (.finished receiptId)

/-- The protocol of a request; any refusal may end it. -/
def servingProtocol (R : Runtime) (call : Call) : Program.Protocol Statement Stop ServingStage where
  after := ServingStage.After R call
  stops _ _ := True

/-- A request keeps to its protocol from a stage on. -/
abbrev Serves (R : Runtime) (call : Call) (ends : ServingStage → α → Prop) (tx : Tx α)
    (stage : ServingStage) : Prop := Program.Follows (servingProtocol R call) ends tx stage

/-- What only reads keeps to the protocol of a request that has begun. -/
theorem serves_of_reads {call : Call} {ends : ServingStage → α → Prop} {stage : ServingStage}
    {tx : Tx α} (known : stage ≠ .begun) (h : tx.Calls fun _ => Statement.IsRead)
    (finish : ∀ value, ends stage value) : Serves R call ends tx stage :=
  .of_calls (fun _ _ => .read known) (fun _ => trivial) finish h

/-- Completing a receipt keeps to the protocol once it is claimed. -/
theorem complete_serves {call : Call} {stage : ServingStage} {receiptId : Bytes}
    {response : AgentReportReceiptResponse}
    (claimed : ∀ rawFileIds parsedRecordIds qcResultIds alertIds answer,
      ServingStage.After R call stage (.updateReceiptComplete receiptId rawFileIds
        parsedRecordIds qcResultIds alertIds) answer stage) :
    Serves R call (fun _ _ => True) (ReceiptRepository.complete receiptId response) stage := by
  have hjoin (ids : List Bytes) (joined : Bytes) :
      Serves R call (fun reached _ => reached = stage) (ReceiptRepository.joinIds ids joined)
        stage := by
    induction ids generalizing joined with
    | nil => rfl
    | cons id rest ih =>
      unfold ReceiptRepository.joinIds
      split
      · trivial
      · split
        · trivial
        · exact ih _
  refine (hjoin _ _).bind fun reached _ hreached => ?_
  subst hreached
  refine (hjoin _ _).bind fun reached _ hreached => ?_
  subst hreached
  refine (hjoin _ _).bind fun reached _ hreached => ?_
  subst hreached
  refine (hjoin _ _).bind fun reached _ hreached => ?_
  subst hreached
  refine Tx.follows_sql_bind.mpr fun answer => ⟨_, claimed _ _ _ _ _, ?_⟩
  cases answer <;> trivial

/-- The read of an existing receipt keeps to the protocol. -/
theorem resolveClaim_serves {call : Call} {stage : ServingStage}
    {claim : AgentReportReceiptClaim} (known : stage ≠ .begun) :
    Serves R call (fun _ result => ∀ receiptId, result ≠ .acquired receiptId)
      (ReceiptRepository.resolveClaim claim) stage := by
  refine Tx.follows_sql_bind.mpr fun found => ⟨stage, .read known trivial, ?_⟩
  cases found with
  | some record =>
    simp only
    split
    · simp
    · split
      · trivial
      · simp
  | none =>
    simp only
    split
    · refine Tx.follows_sql_bind.mpr fun existing => ⟨stage, .read known trivial, ?_⟩
      cases existing with
      | some existing => simp
      | none => trivial
    · trivial

/-- A claim that is acquired leads to a stage of its own; any other ends the work. -/
theorem claim_serves {call : Call} {stage : ServingStage}
    {claim : AgentReportReceiptClaim} {held : Bytes → ServingStage} (known : stage ≠ .begun)
    (acquire : ∀ receiptId, ServingStage.After R call stage (.insertReceipt claim)
      (some receiptId) (held receiptId)) :
    Serves R call (fun reached result => ∀ receiptId, result = .acquired receiptId →
      reached = held receiptId) (ReceiptRepository.claim claim) stage := by
  refine Tx.follows_sql_bind.mpr fun answer => ?_
  cases answer with
  | some id =>
    refine ⟨held id, acquire id, fun receiptId h => ?_⟩
    rw [ReceiptRepository.ClaimResult.acquired.injEq] at h
    rw [h]
  | none =>
    refine ⟨stage, .refused known, (resolveClaim_serves known).mono fun _ result h => ?_⟩
    exact fun receiptId hacquired => absurd hacquired (h receiptId)

namespace AgentReportService

/-- Registering a file of a manifest keeps to its protocol. -/
theorem recordRawFile_serves {request : RawFileManifestRequest} {receiptId : Bytes}
    {record : RawFileRecord} (files : request.files ≠ [])
    (run : record.taskRunId = request.taskRunId) :
    Serves R (.manifest request) (fun reached _ => reached = .claimed receiptId)
      (ResultService.recordRawFile record) (.claimed receiptId) := by
  refine Tx.follows_unless_refuse (fun _ => trivial) fun _ => ?_
  refine Tx.follows_unless_refuse (fun _ => trivial) fun _ => ?_
  refine Tx.follows_unless_refuse (fun _ => trivial) fun _ => ?_
  refine Tx.follows_unless_refuse (fun _ => trivial) fun _ => ?_
  refine Tx.follows_sql_bind.mpr fun found => ⟨_, .read (by simp) trivial, ?_⟩
  cases found with
  | none => trivial
  | some stored =>
    refine Tx.follows_unless_refuse (fun _ => trivial) fun _ => ?_
    refine Tx.follows_sql_bind.mpr fun answer => ⟨_, .storeFile files run, ?_⟩
    cases answer with
    | none => trivial
    | some id => rfl

/-- Storing the files of a manifest keeps to its protocol. -/
theorem recordFiles_serves {request : RawFileManifestRequest} {receiptId : Bytes}
    {files : List RawFileManifestEntry} (hfiles : files ≠ [] → request.files ≠ []) :
    Serves R (.manifest request) (fun reached _ => reached = .claimed receiptId)
      (recordFiles request files) (.claimed receiptId) := by
  induction files with
  | nil => rfl
  | cons file rest ih =>
    have hrequest := hfiles (List.cons_ne_nil file rest)
    refine (recordRawFile_serves hrequest rfl).bind fun reached id hreached => ?_
    subst hreached
    exact (ih fun _ => hrequest).bind fun reached ids hreached => hreached

/-- A manifest keeps to its protocol. -/
theorem acceptRawFileManifest_serves (request : RawFileManifestRequest) :
    Serves R (.manifest request) (fun _ _ => True) (acceptRawFileManifest R request) .reading := by
  unfold acceptRawFileManifest
  split
  · trivial
  · rename_i hkey
    have hread : Serves R (.manifest request) (fun reached _ => reached = .reading)
        (validateTaskRunNode request.taskRunId request.nodeCode) .reading := by
      refine Tx.follows_unless_refuse (fun _ => trivial) fun hid => ?_
      refine Tx.follows_unless_refuse (fun _ => trivial) fun _ => ?_
      rw [TaskRunService.findRun, if_neg hid]
      refine Tx.follows_sql_bind.mpr fun found => ⟨_, .read (by simp) trivial, ?_⟩
      cases found with
      | none => trivial
      | some run => exact Tx.follows_unless_refuse (fun _ => trivial) fun _ => rfl
    refine hread.bind fun reached _ hreached => ?_
    subst hreached
    refine (claim_serves (by simp) fun _ =>
      .claimManifest (length_le_of_validateIdempotencyKey hkey)).bind fun reached result h => ?_
    cases result with
    | acquired receiptId =>
      obtain rfl := h receiptId rfl
      refine (recordFiles_serves id).bind fun reached ids hreached => ?_
      subst hreached
      exact (complete_serves fun _ _ _ _ _ => .completeManifest).bind fun _ _ _ => trivial
    | _ => trivial

/-- Storing a rule result keeps to the protocol of a report that has stored its row. -/
theorem recordResult_serves {request : TaskRunReportRequest} {receiptId key : Bytes}
    {record : QcResultRecord} (row : record.parsedRecordId = key) :
    Serves R (.report request) (fun reached _ => reached = .parsed receiptId key)
      (QcService.recordResult record) (.parsed receiptId key) := by
  refine Tx.follows_unless_refuse (fun _ => trivial) fun _ => ?_
  refine Tx.follows_unless_refuse (fun _ => trivial) fun _ => ?_
  refine Tx.follows_unless_refuse (fun _ => trivial) fun _ => ?_
  refine Tx.follows_unless_refuse (fun _ => trivial) fun _ => ?_
  refine Tx.follows_sql_bind.mpr fun answer => ⟨_, .storeResult row, ?_⟩
  cases answer with
  | none => trivial
  | some id => rfl

/-- Raising the alert of a rule result keeps to the protocol. -/
theorem createAlert_serves {request : TaskRunReportRequest} {receiptId key nodeCode : Bytes}
    {result : QcResultRecord} :
    Serves R (.report request) (fun reached _ => reached = .parsed receiptId key)
      (AlertService.createAlert result request.taskRunId nodeCode) (.parsed receiptId key) := by
  unfold AlertService.createAlert
  split
  · rfl
  · refine Tx.follows_sql_bind.mpr fun answer => ⟨_, .raiseAlert rfl, ?_⟩
    cases answer with
    | none => trivial
    | some id => rfl

/-- Storing the rule results of a parsed row keeps to the protocol of a report. -/
theorem recordQcResults_serves {request : TaskRunReportRequest} {receiptId key : Bytes}
    {results : List TaskRunReportQcResult} {created : Created} :
    Serves R (.report request) (fun reached _ => reached = .parsed receiptId key)
      (recordQcResults request key results created) (.parsed receiptId key) := by
  induction results generalizing created with
  | nil => rfl
  | cons qc rest ih =>
    refine (recordResult_serves rfl).bind fun reached stored hreached => ?_
    subst hreached
    refine createAlert_serves.bind fun reached alertId hreached => ?_
    subst hreached
    exact ih

/-- A stage in which rows are stored is not the first. -/
theorem ne_begun_of_storing {stage : ServingStage} {receiptId : Bytes}
    (stores : stage.storing = some receiptId) : stage ≠ .begun := by
  rintro rfl
  cases stores

/-- Storing a parsed row leads a report to the stage of its rule results. -/
theorem recordParsedRecord_serves {request : TaskRunReportRequest} {stage : ServingStage}
    {receiptId : Bytes} {record : ParsedRecordRecord} {file : RawFileRecord}
    (stores : stage.storing = some receiptId) (run : record.taskRunId = request.taskRunId) :
    Serves R (.report request) (fun reached key => reached = .parsed receiptId key)
      (ResultService.recordParsedRecord record file) stage := by
  refine Tx.follows_unless_refuse (fun _ => trivial) fun _ => ?_
  refine Tx.follows_unless_refuse (fun _ => trivial) fun _ => ?_
  refine Tx.follows_unless_refuse (fun _ => trivial) fun _ => ?_
  refine Tx.follows_unless_refuse (fun _ => trivial) fun _ => ?_
  refine Tx.follows_sql_bind.mpr fun answer => ?_
  cases answer with
  | none => exact ⟨_, .refuseRow (ne_begun_of_storing stores), trivial⟩
  | some key => exact ⟨_, .storeRow stores run, rfl⟩

/-- Storing the rows of a report keeps to its protocol. -/
theorem recordParsedRecords_serves {request : TaskRunReportRequest} {receiptId : Bytes}
    {stage : ServingStage} {records : List TaskRunReportParsedRecord}
    {verified : List (Bytes × RawFileRecord)} {created : Created}
    (stores : stage.storing = some receiptId) :
    Serves R (.report request) (fun reached _ => reached.storing = some receiptId)
      (recordParsedRecords request records verified created) stage := by
  induction records generalizing stage verified created with
  | nil => exact stores
  | cons parsed rest ih =>
    have hverified : Serves R (.report request) (fun reached _ => reached = stage)
        (verifyRawFile request verified parsed.rawFileId) stage :=
      serves_of_reads (ne_begun_of_storing stores) (verifyRawFile_reads _ _ _) fun _ => rfl
    refine hverified.bind fun reached file hreached => ?_
    subst hreached
    refine (recordParsedRecord_serves stores rfl).bind fun reached key hreached => ?_
    subst hreached
    refine recordQcResults_serves.bind fun reached created hreached => ?_
    subst hreached
    exact ih rfl

/-- Ending the run of a report keeps to its protocol. -/
theorem finish_serves {request : TaskRunReportRequest} {receiptId : Bytes} {stage : ServingStage}
    (stores : stage.storing = some receiptId) (ended : request.status.isTerminal = true) :
    Serves R (.report request) (fun reached _ => reached = .finished receiptId)
      (TaskRunService.finish R (finishRequest request)) stage := by
  refine Tx.follows_unless_refuse (fun _ => trivial) fun _ => ?_
  refine Tx.follows_unless_refuse (fun _ => trivial) fun _ => ?_
  refine Tx.follows_sql_bind.mpr fun found => ?_
  cases found with
  | none => exact ⟨stage, .read (ne_begun_of_storing stores) trivial, trivial⟩
  | some run =>
    refine ⟨.located receiptId run.id, .locate stores, ?_⟩
    have hprinted (json : Option Bytes) : Serves R (.report request)
        (fun reached _ => reached = .located receiptId run.id) (TaskRunRepository.printed json)
        (.located receiptId run.id) := by
      unfold TaskRunRepository.printed
      split
      · rfl
      · trivial
    refine (hprinted _).bind fun reached json hreached => ?_
    subst hreached
    exact fun _ => ⟨.finished receiptId, .finish rfl ended, rfl⟩

/-- The checks of a claimed report keep to its protocol; they pass for an open run only. -/
theorem checkReport_serves {request : TaskRunReportRequest} {run : TaskRunRecord}
    {stage : ServingStage} (known : stage ≠ .begun) :
    Serves R (.report request) (fun reached _ => reached = stage ∧ run.status.isTerminal = false)
      (checkReport R request run) stage := by
  refine Tx.follows_unless_refuse (fun _ => trivial) fun hopen => ?_
  rw [Bool.not_eq_true] at hopen
  split
  · trivial
  · refine serves_of_reads known ?_ fun _ => ⟨rfl, hopen⟩
    refine Program.Calls.bind (checkRules_reads _ _) fun checked => ?_
    split
    · unfold validateFailedFiles
      split
      · trivial
      · exact Program.Calls.bind (findRetryFiles_reads _) fun _ => checkFailedFiles_reads _ _ _ _
    · trivial

/-- A report keeps to its protocol. -/
theorem acceptTaskRunReport_serves (request : TaskRunReportRequest) :
    Serves R (.report request) (fun _ _ => True) (acceptTaskRunReport R request) .begun := by
  unfold acceptTaskRunReport
  split
  · trivial
  · rename_i hkey
    have hread : Serves R (.report request)
        (fun reached run => reached = if run.status.isTerminal then .reading else .opened)
        (validateTaskRunNode request.taskRunId request.nodeCode) .begun := by
      refine Tx.follows_unless_refuse (fun _ => trivial) fun hid => ?_
      refine Tx.follows_unless_refuse (fun _ => trivial) fun _ => ?_
      rw [TaskRunService.findRun, if_neg hid]
      refine Tx.follows_sql_bind.mpr fun found => ?_
      cases found with
      | none => exact ⟨.reading, .look, trivial⟩
      | some run =>
        by_cases hnode : run.nodeCode = request.nodeCode
        · cases hopen : run.status.isTerminal with
          | true =>
            refine ⟨.reading, .look, Tx.follows_unless_refuse (fun _ => trivial) fun _ => ?_⟩
            simp [hopen]
          | false =>
            refine ⟨.opened, .findOpen hopen hnode,
              Tx.follows_unless_refuse (fun _ => trivial) fun _ => ?_⟩
            simp [hopen]
        · refine ⟨.reading, .look, ?_⟩
          simp only [ne_eq, hnode, not_false_eq_true, if_true]
          trivial
    refine hread.bind fun reached run hreached => ?_
    refine Tx.follows_unless_refuse (fun _ => trivial) fun hended => ?_
    have hstatus : request.status.isTerminal = true := by simpa using hended
    cases hopen : run.status.isTerminal with
    | true =>
      rw [hopen, if_pos rfl] at hreached
      subst hreached
      refine (claim_serves (by simp) fun _ =>
        .claimEnded (length_le_of_validateIdempotencyKey hkey)).bind fun reached result h => ?_
      cases result with
      | acquired receiptId =>
        obtain rfl := h receiptId rfl
        refine (checkReport_serves (by simp)).bind fun reached _ hchecked => ?_
        rw [hopen] at hchecked
        cases hchecked.2
      | _ => trivial
    | false =>
      rw [hopen, if_neg (by simp)] at hreached
      subst hreached
      refine (claim_serves (by simp) fun _ =>
        .claimReport (length_le_of_validateIdempotencyKey hkey)).bind fun reached result h => ?_
      cases result with
      | acquired receiptId =>
        obtain rfl := h receiptId rfl
        refine (checkReport_serves (by simp)).bind fun reached _ hchecked => ?_
        obtain rfl := hchecked.1
        refine (recordParsedRecords_serves rfl).bind fun reached created hstores => ?_
        refine (finish_serves hstores hstatus).bind fun reached _ hreached => ?_
        subst hreached
        exact (complete_serves fun _ _ _ _ _ => .completeReport).bind fun _ _ _ => trivial
      | _ => trivial

end AgentReportService

/-- Disposing of an alert keeps to its protocol. -/
theorem disposeAlert_serves (alertId : Bytes) (acknowledge : Bool) :
    Serves R (.disposeAlert alertId acknowledge) (fun _ _ => True)
      (AlertService.disposeAlert alertId acknowledge) .reading := by
  refine Tx.follows_unless_refuse (fun _ => trivial) fun _ => ?_
  refine Tx.follows_sql_bind.mpr fun found => ⟨_, .read (by simp) trivial, ?_⟩
  cases found with
  | none => trivial
  | some alert =>
    refine Tx.follows_unless_refuse (fun _ => trivial) fun _ => ?_
    by_cases hdone : (alert.status ==
        (if acknowledge then text "acknowledged" else text "closed")) = true
    · rw [if_pos hdone]
      trivial
    · rw [if_neg hdone]
      refine Tx.follows_sql_bind.mpr fun updated => ⟨_, .dispose, ?_⟩
      cases updated with
      | false => trivial
      | true =>
        refine Tx.follows_sql_bind.mpr fun reread => ⟨_, .read (by simp) trivial, ?_⟩
        cases reread <;> trivial

/-- Every request keeps to its protocol. -/
theorem Call.transaction_serves (call : Call) :
    Serves R call (fun _ _ => True) (call.transaction R) call.entry := by
  cases call with
  | start request =>
    exact .of_calls (fun _ _ => .start rfl) (fun _ => trivial) (fun _ => trivial)
      ((TaskRunService.start_starting request).bind fun _ => trivial)
  | trigger taskId key =>
    exact .of_calls (fun _ _ => .start rfl) (fun _ => trivial) (fun _ => trivial)
      ((TaskRunService.applyManualRun_starting _ _ _ _ _).bind fun _ => trivial)
  | retry taskRunId key =>
    exact .of_calls (fun _ _ => .start rfl) (fun _ => trivial) (fun _ => trivial)
      ((TaskRunService.requestRetryRun_starting _ _).bind fun _ => trivial)
  | setEnabled taskId enabled =>
    exact .of_calls (fun _ _ => .switch) (fun _ => trivial) (fun _ => trivial)
      ((setTaskEnabled_switching taskId enabled).bind fun _ => trivial)
  | manifest request => exact (acceptRawFileManifest_serves request).bind fun _ _ _ => trivial
  | report request => exact (acceptTaskRunReport_serves request).bind fun _ _ _ => trivial
  | disposeAlert alertId acknowledge =>
    exact (disposeAlert_serves alertId acknowledge).bind fun _ _ _ => trivial

end LabBridge.Server
