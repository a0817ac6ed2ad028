import LabBridge.Server.Receipts
import LabBridge.Server.Runs

/-!
# What an accepted manifest or report does

A request that ends with a result was either answered from a completed receipt, without
touching a table, or accepted: it stored evidence for its run only, appended one completed
receipt and, for a report, ended the run.
-/

namespace LabBridge.Server

open ByteText LabBridge.Core Storage Interaction ReceiptRepository

variable {R : Runtime} {session : Session} {db db' : Database}

/-- A request that was answered from a completed receipt. -/
structure Replayed (pg : Postgres) (claim : AgentReportReceiptClaim)
    (response : AgentReportReceiptResponse) (db : Database) : Prop where
  stored : ∃ row ∈ db.receipts.rows, Names pg claim row ∧
    row.requestFingerprint = claim.requestFingerprint ∧ Answers row response

/-- The completed receipt of a request that takes effect in a state. -/
structure NewReceipt (pg : Postgres) (claim : AgentReportReceiptClaim)
    (response : AgentReportReceiptResponse) (db : Database) (row : ReceiptRow) : Prop where
  fresh : ∀ other ∈ db.receipts.rows, other.clash row = false
  names : Names pg claim row
  owner : ∃ run ∈ db.taskRuns.rows, run.id = row.taskRunId ∧ run.nodeCode = row.nodeCode
  fingerprint : row.requestFingerprint = claim.requestFingerprint
  answers : Answers row response

/-- A request that took effect: its receipt is new and complete, and the rest is evidence for
its run. The runs are described apart. -/
structure Accepted (pg : Postgres) (claim : AgentReportReceiptClaim) (run : RowId)
    (response : AgentReportReceiptResponse) (before after : Database) : Prop where
  named : pg.idParam claim.taskRunId = .ok (some run)
  receipt : ∃ row, NewReceipt pg claim response before row ∧ row.taskRunId = run ∧
    after.receipts.rows = before.receipts.rows ++ [row]
  evidence : EvidenceGrows run before
    { after with receipts := before.receipts, taskRuns := before.taskRuns }

/-- The answer to a manifest. -/
def manifestResult (response : AgentReportReceiptResponse) (replayed : Bool) :
    RawFileManifestResult :=
  ⟨response.rawFileIds, replayed⟩

/-- The answer to a report. -/
def reportResult (response : AgentReportReceiptResponse) (replayed : Bool) :
    TaskRunReportResult :=
  ⟨response.parsedRecordIds, response.qcResultIds, response.alertIds, replayed⟩

/-- The run a request names, when its node owns it. -/
structure OwnRun (pg : Postgres) (taskRunId nodeCode : Bytes) (run : TaskRunRow)
    (db : Database) : Prop where
  named : pg.idParam taskRunId = .ok (some run.id)
  stored : run ∈ db.taskRuns.rows
  node : run.nodeCode = nodeCode

namespace AgentReportService

/-- The digest of a claim fits its column. -/
theorem fits_digest {claim : AgentReportReceiptClaim} (digest : Digest)
    (hprint : claim.requestFingerprint = digest.hex)
    (hkey : claim.idempotencyKey.length ≤ 128) : FitsColumns R.postgres claim where
  key := hkey
  fingerprint := by
    have harrives := R.postgres.receive_ascii digest.ascii
    have hfits := R.postgres.varchar_short (Nat.le_of_eq digest.length_hex)
    simp [Postgres.varcharParam, Postgres.textParam, hprint, harrives, hfits]

/-- A key that passes the check fits its column. -/
theorem length_le_of_validateIdempotencyKey {key : Bytes}
    (h : validateIdempotencyKey key = none) : key.length ≤ 128 := by
  unfold validateIdempotencyKey at h
  split at h
  · cases h
  · split at h
    · cases h
    · omega

/-- The ownership check reads the run of the request. -/
theorem validateTaskRunNode_yields {taskRunId nodeCode : Bytes} {record : TaskRunRecord}
    (h : Tx.Yields R.postgres session (validateTaskRunNode taskRunId nodeCode) db record db') :
    db' = db ∧ ∃ run, OwnRun R.postgres taskRunId nodeCode run db ∧
      record = Database.toTaskRunRecord R.postgres run := by
  simp only [validateTaskRunNode, Tx.yields_unless_refuse, TaskRunService.findRun] at h
  obtain ⟨hid, -, h⟩ := h
  simp only [hid, if_false, Tx.yields_sql_bind, Statement.exec, Statement.reading_eq_ok] at h
  obtain ⟨answer, mid, ⟨hselect, rfl⟩, h⟩ := h
  rcases selectRunById_ok hselect with rfl | ⟨run, hmem, hrun, rfl⟩
  · simp at h
  · simp only [Tx.yields_unless_refuse, Tx.yields_pure] at h
    obtain ⟨hnode, rfl, rfl⟩ := h
    exact ⟨rfl, run, ⟨hrun, hmem, not_not.mp hnode⟩, rfl⟩

/-- Completing a fresh receipt after evidence was stored leaves it the last, complete row. -/
theorem receipts_of_complete {claim : AgentReportReceiptClaim} {row : ReceiptRow}
    {mid : Database} {response : AgentReportReceiptResponse}
    (hnew : Acquired R.postgres claim db row) (hrows : mid.receipts.rows = db.receipts.rows ++ [row])
    (hvalid : ValidResponse response)
    (h : Tx.Yields R.postgres session (complete (decimal row.id) response) mid () db') :
    ∃ final receipts, db' = { mid with receipts := receipts } ∧
      NewReceipt R.postgres claim response db final ∧ final.taskRunId = row.taskRunId ∧
      receipts.rows = db.receipts.rows ++ [final] := by
  obtain ⟨receipts, rfl, -, hupdated⟩ := complete_yields hvalid h
  refine ⟨{ row with response := some (storedResponse response session.now) }, receipts, rfl,
    ⟨hnew.fresh, ⟨hnew.names.node, hnew.names.type, hnew.names.key⟩, hnew.owner,
      hnew.fingerprint, answers_of_storedResponse hvalid rfl⟩, rfl, ?_⟩
  have hother {other : ReceiptRow} (hmem : other ∈ db.receipts.rows) : other.id ≠ row.id := by
    have hascending := mid.receipts.ascending
    rw [hrows] at hascending
    exact Fin.ne_of_lt ((List.pairwise_append.mp hascending).2.2 other hmem row (by simp))
  rw [hupdated, hrows, List.map_append]
  congr 1
  · refine (List.map_congr_left fun other hmem => ?_).trans (List.map_id _)
    simp [hother hmem]
  · simp [hnew.isOpen]

/-- A manifest that ends with a result was replayed or accepted. -/
theorem acceptRawFileManifest_yields {request : RawFileManifestRequest}
    {result : RawFileManifestResult}
    (h : Tx.Yields R.postgres session (acceptRawFileManifest R request) db result db') :
    ∃ run response, OwnRun R.postgres request.taskRunId request.nodeCode run db ∧
      ((result = manifestResult response true ∧ db' = db ∧
          Replayed R.postgres (manifestClaim R request) response db) ∨
        (result = manifestResult response false ∧ db'.taskRuns = db.taskRuns ∧
          (request.files = [] → ∃ receipts, db' = { db with receipts := receipts }) ∧
          Accepted R.postgres (manifestClaim R request) run.id response db db')) := by
  unfold acceptRawFileManifest at h
  split at h
  · simp at h
  rename_i hkey
  rw [Tx.yields_bind] at h
  obtain ⟨record, mid, hown, h⟩ := h
  obtain ⟨rfl, run, hrun, rfl⟩ := validateTaskRunNode_yields hown
  rw [Tx.yields_bind] at h
  obtain ⟨claimed, mid, hclaim, h⟩ := h
  have hfits : FitsColumns R.postgres (manifestClaim R request) :=
    fits_digest _ rfl (length_le_of_validateIdempotencyKey hkey)
  cases claim_yields hfits hclaim with
  | acquired hnew hrows =>
    rename_i row receipts
    rw [Tx.yields_bind] at h
    obtain ⟨ids, mid₁, hfiles, h⟩ := h
    rw [Tx.yields_bind] at h
    obtain ⟨⟨⟩, mid₂, hcomplete, h⟩ := h
    obtain ⟨rfl, rfl⟩ := Tx.yields_pure.mp h
    obtain ⟨hids, hgrows⟩ := recordFiles_yields hrun.named hfiles
    have hrowRun : row.taskRunId = run.id := by
      have hnamed := hnew.run.symm.trans hrun.named
      simpa using hnamed
    obtain ⟨final, receipts', rfl, hreceipt, hfinalRun, hfinal⟩ :=
      receipts_of_complete hnew (by rw [hgrows.receipts]; exact hrows)
        ⟨hids, areIds_nil, areIds_nil, areIds_nil⟩ hcomplete
    refine ⟨run, _, hrun, .inr ⟨rfl, hgrows.taskRuns, fun hnil => ?_, hrun.named,
      ⟨final, hreceipt, hfinalRun.trans hrowRun, hfinal⟩, hgrows.reframe _ _⟩⟩
    rw [hnil] at hfiles
    obtain ⟨-, rfl⟩ := Tx.yields_pure.mp hfiles
    exact ⟨receipts', rfl⟩
  | replay hstored hnames hsame hcomplete =>
    obtain ⟨rfl, rfl⟩ := Tx.yields_pure.mp h
    exact ⟨run, _, hrun, .inl ⟨rfl, rfl, _, hstored, hnames, hsame, rfl, hcomplete⟩⟩
  | idempotencyConflict => simp at h
  | taskRunConflict => simp at h

/-- A run as `finish` leaves it. -/
structure Finished (status : TaskRunStatus) (before after : TaskRunRow) : Prop
    extends SameRun before after where
  status : after.status = status

/-- The update of `finish` rewrites the run it names. -/
theorem updateRunFinish_ok {record : TaskRunRecord} {run : RowId}
    (hid : record.id = decimal run)
    (h : db.updateRunFinish R.postgres record = .ok ((), db')) :
    ∃ (change : TaskRunRow → TaskRunRow) (taskRuns : _), db' = { db with taskRuns := taskRuns } ∧
      (∀ other, Finished record.status other (change other)) ∧
      taskRuns.rows = db.taskRuns.rows.map fun other =>
        if some other.id == some run then change other else other := by
  simp only [Database.updateRunFinish, hid, Postgres.idParam_decimal,
    Database.changeRuns, Answer.ok_bind, Answer.bind_eq_ok, accepted_eq_ok] at h
  obtain ⟨finishedAt, -, errorSummary, -, failedFiles, -, taskRuns, hupdate, h⟩ := h
  cases h
  refine ⟨_, taskRuns, rfl, ?_, (SerialTable.update_eq_some hupdate).1⟩
  exact fun other => ⟨⟨rfl, rfl, rfl, rfl, rfl, rfl, rfl, rfl, rfl⟩, rfl⟩

/-- Printing a document touches no table. -/
theorem printed_yields {json : Option Bytes} {result : Bytes}
    (h : Tx.Yields R.postgres session (TaskRunRepository.printed json) db result db') :
    json = some result ∧ db' = db := by
  unfold TaskRunRepository.printed at h
  split at h
  · obtain ⟨rfl, rfl⟩ := Tx.yields_pure.mp h
    exact ⟨rfl, rfl⟩
  · simp at h

/-- Finishing a run rewrites that run and nothing else. -/
theorem finish_yields {request : FinishTaskRunRequest} {run : RowId}
    (hrun : R.postgres.idParam request.taskRunId = .ok (some run))
    (h : Tx.Yields R.postgres session (TaskRunService.finish R request) db () db') :
    ∃ (change : TaskRunRow → TaskRunRow) (taskRuns : _), db' = { db with taskRuns := taskRuns } ∧
      (∀ other, Finished request.status other (change other)) ∧
      taskRuns.rows = db.taskRuns.rows.map fun other =>
        if some other.id == some run then change other else other := by
  simp only [TaskRunService.finish, Tx.yields_unless_refuse, Tx.yields_sql_bind,
    Statement.exec, Statement.reading_eq_ok] at h
  obtain ⟨-, -, answer, mid, ⟨hselect, rfl⟩, h⟩ := h
  rcases selectRunById_ok hselect with rfl | ⟨stored, hmem, hstored, rfl⟩
  · simp at h
  · rw [hrun] at hstored
    cases hstored
    simp only [Tx.yields_bind, Tx.yields_sql] at h
    obtain ⟨json, mid, hprinted, h⟩ := h
    obtain ⟨-, rfl⟩ := printed_yields hprinted
    exact updateRunFinish_ok rfl h

/-- Checking the rules of a report changes nothing. -/
theorem checkRules_reads (checked : List Bytes) (results : List TaskRunReportQcResult) :
    (checkRules checked results).Calls fun _ => Statement.IsRead := by
  induction results generalizing checked with
  | nil => trivial
  | cons qc rest ih =>
    unfold checkRules
    split
    · exact ih checked
    · refine Program.Calls.bind ?_ fun answer => ?_
      · unfold QcService.findRule
        split
        · trivial
        · exact Tx.calls_sql.mpr trivial
      · cases answer with
        | none => trivial
        | some rule =>
          simp only
          split
          · trivial
          · exact ih _

/-- Checking the failed files of a report changes nothing. -/
theorem checkFailedFiles_reads (taskRunId : Bytes)
    (retryFiles : Option (List TaskRunRetryFile)) (seen : List Bytes)
    (failedFiles : List TaskRunFailedFile) :
    (checkFailedFiles taskRunId retryFiles seen failedFiles).Calls
      fun _ => Statement.IsRead := by
  induction failedFiles generalizing seen with
  | nil => trivial
  | cons failed rest ih =>
    unfold checkFailedFiles
    simp only
    split
    · trivial
    split
    · trivial
    split
    · split
      · trivial
      · exact ih _
    · refine Program.Calls.bind ?_ fun rawFile => ?_
      · unfold ResultService.findRawFile
        split
        · trivial
        · exact Tx.calls_sql.mpr trivial
      · split
        · exact ih _
        · split <;> trivial

/-- Reading the retry files of a run changes nothing. -/
theorem findRetryFiles_reads (taskRunId : Bytes) :
    (TaskRunService.findRetryFiles R taskRunId).Calls fun _ => Statement.IsRead := by
  unfold TaskRunService.findRetryFiles
  split
  · trivial
  · refine Program.Calls.bind (Tx.calls_sql.mpr trivial) fun stored => ?_
    cases stored <;> trivial

/-- The checks of a report only read, and pass for a run that has not ended. -/
theorem checkReport_yields {request : TaskRunReportRequest} {run : TaskRunRecord}
    (h : Tx.Yields R.postgres session (checkReport R request run) db () db') :
    run.status.isTerminal = false ∧ db' = db := by
  rw [checkReport, Tx.yields_unless_refuse] at h
  obtain ⟨hopen, h⟩ := h
  refine ⟨Bool.eq_false_iff.mpr hopen, ?_⟩
  split at h
  · simp at h
  · refine h.eq_of_reads (Program.Calls.bind (checkRules_reads _ _) fun checked => ?_)
    split
    · unfold validateFailedFiles
      split
      · trivial
      · exact Program.Calls.bind (findRetryFiles_reads _) fun _ => checkFailedFiles_reads _ _ _ _
    · trivial

/-- The parts of a report that takes effect: it claims a receipt, passes its checks, stores its
rows, ends its run and completes the receipt. -/
structure ReportParts (R : Runtime) (session : Session) (request : TaskRunReportRequest)
    (run : TaskRunRow) (result : TaskRunReportResult) (before after : Database) where
  row : ReceiptRow
  receipts : SerialTable ReceiptRow ReceiptRow.id ReceiptRow.clash
  created : Created
  stored : Database
  finished : Database
  claimed : Acquired R.postgres (reportClaim R request) before row
  receiptRows : receipts.rows = before.receipts.rows ++ [row]
  checked : Tx.Yields R.postgres session
    (checkReport R request (Database.toTaskRunRecord R.postgres run))
    { before with receipts := receipts } () { before with receipts := receipts }
  rows : Tx.Yields R.postgres session
    (recordParsedRecords request request.parsedRecords [] {})
    { before with receipts := receipts } created stored
  ended : Tx.Yields R.postgres session (TaskRunService.finish R (finishRequest request)) stored ()
    finished
  completed : Tx.Yields R.postgres session (complete (decimal row.id) {
    parsedRecordIds := created.parsedRecordIds
    qcResultIds := created.qcResultIds
    alertIds := created.alertIds }) finished () after
  answer : result = ⟨created.parsedRecordIds, created.qcResultIds, created.alertIds, false⟩

/-- A report that ends with a result was answered from its receipt or took effect. -/
theorem acceptTaskRunReport_cases {request : TaskRunReportRequest} {result : TaskRunReportResult}
    (h : Tx.Yields R.postgres session (acceptTaskRunReport R request) db result db') :
    request.status.isTerminal = true ∧
    ∃ run, OwnRun R.postgres request.taskRunId request.nodeCode run db ∧
      ((∃ response, result = reportResult response true ∧ db' = db ∧
          Replayed R.postgres (reportClaim R request) response db) ∨
        Nonempty (ReportParts R session request run result db db')) := by
  unfold acceptTaskRunReport at h
  split at h
  · simp at h
  rename_i hkey
  rw [Tx.yields_bind] at h
  obtain ⟨record, mid, hown, h⟩ := h
  obtain ⟨rfl, run, hrun, rfl⟩ := validateTaskRunNode_yields hown
  rw [Tx.yields_unless_refuse, Tx.yields_bind] at h
  obtain ⟨hterminal, claimed, mid, hclaim, h⟩ := h
  refine ⟨by simpa using hterminal, run, hrun, ?_⟩
  have hfits : FitsColumns R.postgres (reportClaim R request) :=
    fits_digest _ rfl (length_le_of_validateIdempotencyKey hkey)
  cases claim_yields hfits hclaim with
  | acquired hnew hrows =>
    right
    rw [Tx.yields_bind] at h
    obtain ⟨⟨⟩, mid, hcheck, h⟩ := h
    obtain ⟨-, rfl⟩ := checkReport_yields hcheck
    rw [Tx.yields_bind] at h
    obtain ⟨created, mid₁, hrecords, h⟩ := h
    rw [Tx.yields_bind] at h
    obtain ⟨⟨⟩, mid₂, hfinish, h⟩ := h
    rw [Tx.yields_bind] at h
    obtain ⟨⟨⟩, mid₃, hcomplete, h⟩ := h
    obtain ⟨rfl, rfl⟩ := Tx.yields_pure.mp h
    exact ⟨⟨_, _, created, mid₁, mid₂, hnew, hrows, hcheck, hrecords, hfinish, hcomplete, rfl⟩⟩
  | replay hstored hnames hsame hcomplete =>
    obtain ⟨rfl, rfl⟩ := Tx.yields_pure.mp h
    exact .inl ⟨_, rfl, rfl, _, hstored, hnames, hsame, rfl, hcomplete⟩
  | idempotencyConflict => simp at h
  | taskRunConflict => simp at h

/-- A report that ends with a result was replayed, or accepted for a run that had not ended,
which it ends. -/
theorem acceptTaskRunReport_yields {request : TaskRunReportRequest}
    {result : TaskRunReportResult}
    (h : Tx.Yields R.postgres session (acceptTaskRunReport R request) db result db') :
    request.status.isTerminal = true ∧
    ∃ run response, OwnRun R.postgres request.taskRunId request.nodeCode run db ∧
      ((result = reportResult response true ∧ db' = db ∧
          Replayed R.postgres (reportClaim R request) response db) ∨
        (result = reportResult response false ∧ run.status.isTerminal = false ∧
          (∃ change : TaskRunRow → TaskRunRow,
            (∀ other, Finished request.status other (change other)) ∧
            db'.taskRuns.rows = db.taskRuns.rows.map fun other =>
              if some other.id == some run.id then change other else other) ∧
          Accepted R.postgres (reportClaim R request) run.id response db db')) := by
  obtain ⟨hterminal, run, hrun, ⟨response, hreplay⟩ | ⟨parts⟩⟩ := acceptTaskRunReport_cases h
  · exact ⟨hterminal, run, response, hrun, .inl hreplay⟩
  · obtain ⟨row, receipts, created, stored, finished, hnew, hrows, hcheck, hrecords, hfinish,
      hcomplete, hanswer⟩ := parts
    obtain ⟨hopen, -⟩ := checkReport_yields hcheck
    obtain ⟨hvalid, hgrows⟩ := recordParsedRecords_yields hrun.named
      ⟨areIds_nil, areIds_nil, areIds_nil⟩ hrecords
    obtain ⟨change, taskRuns, rfl, hchange, hruns⟩ := finish_yields hrun.named hfinish
    have hrowRun : row.taskRunId = run.id := by
      have hnamed := hnew.run.symm.trans hrun.named
      simpa using hnamed
    obtain ⟨final, receipts', rfl, hreceipt, hfinalRun, hfinal⟩ :=
      receipts_of_complete hnew (by rw [hgrows.receipts]; exact hrows)
        ⟨areIds_nil, hvalid.1, hvalid.2.1, hvalid.2.2⟩ hcomplete
    refine ⟨hterminal, run, {
      parsedRecordIds := created.parsedRecordIds
      qcResultIds := created.qcResultIds
      alertIds := created.alertIds }, hrun, .inr ⟨hanswer, hopen, ⟨change, hchange, ?_⟩,
        hrun.named, ⟨final, hreceipt, hfinalRun.trans hrowRun, hfinal⟩, hgrows.reframe _ _⟩⟩
    rw [hruns, hgrows.taskRuns]

end AgentReportService

end LabBridge.Server
