import LabBridge.Server.EvidenceOwners

/-!
# What receipts name

The identifiers of a response to a manifest or a report name rows that were stored for the run of
the request, and a committed receipt names them in every later state.
-/

namespace LabBridge.Server

open ByteText LabBridge.Core Storage Interaction ReceiptRepository

variable {R : Runtime} {pg : Postgres} {session : Session} {db db' : Database} {run : RowId}
  {ids : List Bytes}

/-- Identifiers of raw files of a run. -/
def NamesFiles (db : Database) (run : RowId) (ids : List Bytes) : Prop :=
  ∀ id ∈ ids, ∃ file ∈ db.rawFiles.rows, id = decimal file.id ∧ file.taskRunId = run

/-- Identifiers of parsed rows of a run. -/
def NamesParsed (db : Database) (run : RowId) (ids : List Bytes) : Prop :=
  ∀ id ∈ ids, ∃ parsed ∈ db.parsedRecords.rows, id = decimal parsed.id ∧ parsed.taskRunId = run

/-- Identifiers of rule results on parsed rows of a run. -/
def NamesResults (db : Database) (run : RowId) (ids : List Bytes) : Prop :=
  ∀ id ∈ ids, ∃ result ∈ db.qcResults.rows, id = decimal result.id ∧
    ∃ parsed ∈ db.parsedRecords.rows, parsed.id = result.parsedRecordId ∧ parsed.taskRunId = run

/-- Identifiers of alerts of a run. -/
def NamesAlerts (db : Database) (run : RowId) (ids : List Bytes) : Prop :=
  ∀ id ∈ ids, ∃ alert ∈ db.alerts.rows, id = decimal alert.id ∧ alert.taskRunId = some run

/-- What a response to a request of a kind names. -/
def NamesEvidence (db : Database) (run : RowId) (response : AgentReportReceiptResponse) :
    AgentReportRequestType → Prop
  | .rawFileManifest => NamesFiles db run response.rawFileIds
  | .taskRunReport => NamesParsed db run response.parsedRecordIds ∧
      NamesResults db run response.qcResultIds ∧ NamesAlerts db run response.alertIds

/-- A receipt that names evidence of its run. -/
def NamedReceipt (db : Database) (receipt : ReceiptRow) : Prop :=
  ∀ response, Answers receipt response →
    NamesEvidence db receipt.taskRunId response receipt.requestType

/-- Every transaction that ends with a result accumulates. -/
theorem Tx.Yields.accumulates {α : Type} {tx : Tx α} {result : α}
    (h : Tx.Yields pg session tx db result db') : Accumulates db db' := by
  have calls : tx.Calls fun _ _ => True := by
    clear h
    induction tx with
    | ret value => trivial
    | stop error => trivial
    | call operation next ih => exact ⟨trivial, ih⟩
  exact h.related calls Accumulates .refl .trans fun _ hexec => Statement.exec_accumulates hexec

namespace Accumulates

/-- Raw files stay. -/
theorem namesFiles (h : Accumulates db db') (hids : NamesFiles db run ids) :
    NamesFiles db' run ids := by
  intro id hid
  obtain ⟨file, hfile, hnamed⟩ := hids id hid
  obtain ⟨added, hrows, -⟩ := h.rawFiles
  exact ⟨file, by rw [hrows]; exact List.mem_append_left _ hfile, hnamed⟩

/-- Parsed rows stay. -/
theorem namesParsed (h : Accumulates db db') (hids : NamesParsed db run ids) :
    NamesParsed db' run ids := by
  intro id hid
  obtain ⟨parsed, hparsed, hnamed⟩ := hids id hid
  exact ⟨parsed, h.parsedRecords.subset hparsed, hnamed⟩

/-- Rule results stay on their parsed rows. -/
theorem namesResults (h : Accumulates db db') (hids : NamesResults db run ids) :
    NamesResults db' run ids := by
  intro id hid
  obtain ⟨result, hresult, hnamed, parsed, hparsed, howner⟩ := hids id hid
  exact ⟨result, h.qcResults.subset hresult, hnamed, parsed, h.parsedRecords.subset hparsed,
    howner⟩

/-- Alerts stay with their runs. -/
theorem namesAlerts (h : Accumulates db db') (hids : NamesAlerts db run ids) :
    NamesAlerts db' run ids := by
  intro id hid
  obtain ⟨alert, halert, hnamed, howner⟩ := hids id hid
  obtain ⟨moved, hmoved, same⟩ := h.alerts.exists_moved halert
  exact ⟨moved, hmoved, by rw [same.id, hnamed], by rw [same.taskRunId, howner]⟩

/-- What a response names stays. -/
theorem namesEvidence (h : Accumulates db db') {response : AgentReportReceiptResponse}
    {requestType : AgentReportRequestType} (hnames : NamesEvidence db run response requestType) :
    NamesEvidence db' run response requestType := by
  cases requestType with
  | rawFileManifest => exact h.namesFiles hnames
  | taskRunReport =>
    exact ⟨h.namesParsed hnames.1, h.namesResults hnames.2.1, h.namesAlerts hnames.2.2⟩

end Accumulates

namespace AgentReportService

/-- The identifiers of a manifest name the files that it registers. -/
theorem recordFiles_names {request : RawFileManifestRequest}
    (hrun : pg.idParam request.taskRunId = .ok (some run)) {files : List RawFileManifestEntry}
    (h : Tx.Yields pg session (recordFiles request files) db ids db') :
    NamesFiles db' run ids := by
  induction files generalizing db ids with
  | nil =>
    obtain ⟨rfl, rfl⟩ := Tx.yields_pure.mp h
    simp [NamesFiles]
  | cons file rest ih =>
    simp only [recordFiles, Tx.yields_bind] at h
    obtain ⟨id, mid, hfile, others, mid', hrest, h⟩ := h
    obtain ⟨rfl, rfl⟩ := Tx.yields_pure.mp h
    obtain ⟨stored, rfl, hstored, hrows, -⟩ := recordRawFile_yields hfile
    rw [hrun] at hstored
    cases hstored
    have hnamed : NamesFiles mid stored.taskRunId [decimal stored.id] := by
      intro id hid
      rw [List.mem_singleton.mp hid]
      exact ⟨stored, by simp [hrows], rfl, rfl⟩
    intro id hid
    rcases List.mem_cons.mp hid with rfl | hother
    · exact hrest.accumulates.namesFiles hnamed _ List.mem_cons_self
    · exact ih hrest id hother

/-- The identifiers that a report has collected name evidence of its run. -/
structure Created.Names (created : Created) (db : Database) (run : RowId) : Prop where
  parsed : NamesParsed db run created.parsedRecordIds
  results : NamesResults db run created.qcResultIds
  alerts : NamesAlerts db run created.alertIds

/-- What was collected stays. -/
theorem Created.Names.accumulated {created : Created} (h : created.Names db run)
    (haccumulates : Accumulates db db') : created.Names db' run where
  parsed := haccumulates.namesParsed h.parsed
  results := haccumulates.namesResults h.results
  alerts := haccumulates.namesAlerts h.alerts

/-- A stored rule result hangs on the parsed row that it is stored for. -/
theorem recordResult_names {record stored : QcResultRecord}
    (h : Tx.Yields pg session (QcService.recordResult record) db stored db')
    {parsed : ParsedRecordRow} (hparsed : parsed ∈ db.parsedRecords.rows)
    (hid : record.parsedRecordId = decimal parsed.id) :
    NamesResults db' parsed.taskRunId [stored.id] := by
  obtain ⟨result, rfl, hrows, owner, howner, hownerId, hgrows⟩ := recordResult_yields h
  rw [hid, pg.idParam_decimal] at hownerId
  obtain rfl := SerialTable.eq_of_key_eq hparsed howner (by simpa using hownerId)
  obtain ⟨added, hadded, hresults⟩ := hgrows.qcResults
  obtain rfl : added = [result] := List.append_cancel_left (hadded.symm.trans hrows)
  intro id hmem
  rw [List.mem_singleton.mp hmem]
  exact ⟨result, by simp [hrows], rfl, hresults result List.mem_cons_self⟩

/-- An alert is stored for the run it is raised for, or not at all. -/
theorem createAlert_names {result : QcResultRecord} {taskRunId nodeCode id : Bytes}
    (hrun : pg.idParam taskRunId = .ok (some run))
    (h : Tx.Yields pg session (AlertService.createAlert result taskRunId nodeCode) db id db') :
    NamesAlerts db' run (if id = [] then [] else [id]) := by
  unfold AlertService.createAlert at h
  split at h
  · obtain ⟨rfl, rfl⟩ := Tx.yields_pure.mp h
    simp [NamesAlerts]
  · obtain ⟨answer, mid, hinsert, h⟩ := Tx.yields_sql_bind.mp h
    cases answer with
    | none => simp at h
    | some stored =>
      obtain ⟨rfl, rfl⟩ := Tx.yields_pure.mp h
      obtain ⟨alert, rfl, howner, hrows, -⟩ := insertAlert_ok hrun hinsert
      rw [if_neg (decimal_ne_nil _)]
      intro id hid
      rw [List.mem_singleton.mp hid]
      exact ⟨alert, by simp [hrows], rfl, howner⟩

/-- Two lists of names are one. -/
theorem names_append {first second : List Bytes} {p : Bytes → Prop} (h₁ : ∀ id ∈ first, p id)
    (h₂ : ∀ id ∈ second, p id) : ∀ id ∈ first ++ second, p id := by
  intro id hid
  rcases List.mem_append.mp hid with h | h
  · exact h₁ id h
  · exact h₂ id h

/-- The rule results of a parsed row and their alerts are named. -/
theorem recordQcResults_names {request : TaskRunReportRequest}
    (hrun : pg.idParam request.taskRunId = .ok (some run)) {parsed : ParsedRecordRow}
    (hparsed : parsed ∈ db.parsedRecords.rows) (hown : parsed.taskRunId = run)
    {results : List TaskRunReportQcResult} {created final : Created}
    (hcreated : created.Names db run)
    (h : Tx.Yields pg session (recordQcResults request (decimal parsed.id) results created)
      db final db') : final.Names db' run := by
  induction results generalizing db created with
  | nil =>
    obtain ⟨rfl, rfl⟩ := Tx.yields_pure.mp h
    exact hcreated
  | cons qc rest ih =>
    simp only [recordQcResults, Tx.yields_bind] at h
    obtain ⟨stored, mid, hresult, alertId, mid', halert, h⟩ := h
    have hresults := recordResult_names hresult hparsed rfl
    have halerts := createAlert_names hrun halert
    rw [hown] at hresults
    have hkept := hcreated.accumulated (hresult.accumulates.trans halert.accumulates)
    refine ih (halert.accumulates.parsedRecords.subset
      (hresult.accumulates.parsedRecords.subset hparsed)) ?_ h
    exact ⟨hkept.parsed, names_append hkept.results (halert.accumulates.namesResults hresults),
      names_append hkept.alerts halerts⟩

/-- The parsed rows of a report and what hangs on them are named. -/
theorem recordParsedRecords_names {request : TaskRunReportRequest}
    (hrun : pg.idParam request.taskRunId = .ok (some run))
    {records : List TaskRunReportParsedRecord} {verified : List (Bytes × RawFileRecord)}
    {created final : Created} (hcreated : created.Names db run)
    (h : Tx.Yields pg session (recordParsedRecords request records verified created)
      db final db') : final.Names db' run := by
  induction records generalizing db verified created with
  | nil =>
    obtain ⟨rfl, rfl⟩ := Tx.yields_pure.mp h
    exact hcreated
  | cons parsed rest ih =>
    simp only [recordParsedRecords, Tx.yields_bind] at h
    obtain ⟨file, mid, hfile, id, mid₁, hparsed, created₁, mid₂, hresults, h⟩ := h
    obtain ⟨stored, rfl, hstored, hrows, -⟩ := recordParsedRecord_yields hparsed
    rw [hrun] at hstored
    cases hstored
    have hkept := hcreated.accumulated (hfile.accumulates.trans hparsed.accumulates)
    have hmem : stored ∈ mid₁.parsedRecords.rows := by simp [hrows]
    have hnamed : NamesParsed mid₁ stored.taskRunId [decimal stored.id] := by
      intro id hid
      rw [List.mem_singleton.mp hid]
      exact ⟨stored, hmem, rfl, rfl⟩
    have hcreated₁ : Created.Names { created with
        parsedRecordIds := created.parsedRecordIds ++ [decimal stored.id] } mid₁
        stored.taskRunId :=
      ⟨names_append hkept.parsed hnamed, hkept.results, hkept.alerts⟩
    exact ih (recordQcResults_names hrun hmem rfl hcreated₁ hresults) h

/-- A manifest that takes effect names the files of its run. -/
theorem acceptRawFileManifest_names {request : RawFileManifestRequest}
    {result : RawFileManifestResult} (hnew : result.replayed = false)
    (hrun : R.postgres.idParam request.taskRunId = .ok (some run))
    (h : Tx.Yields R.postgres session (acceptRawFileManifest R request) db result db') :
    NamesFiles db' run result.rawFileIds := by
  unfold acceptRawFileManifest at h
  split at h
  · simp at h
  simp only [Tx.yields_bind] at h
  obtain ⟨record, mid, -, claimed, mid₁, -, h⟩ := h
  cases claimed with
  | acquired receiptId =>
    simp only [Tx.yields_bind] at h
    obtain ⟨ids, mid₂, hfiles, ⟨⟩, mid₃, hcomplete, h⟩ := h
    obtain ⟨rfl, rfl⟩ := Tx.yields_pure.mp h
    exact hcomplete.accumulates.namesFiles (recordFiles_names hrun hfiles)
  | replay receipt =>
    obtain ⟨rfl, -⟩ := Tx.yields_pure.mp h
    cases hnew
  | idempotencyConflict => simp at h
  | taskRunConflict => simp at h

/-- A report that takes effect names the evidence of its run. -/
theorem acceptTaskRunReport_names {request : TaskRunReportRequest}
    {result : TaskRunReportResult} (hnew : result.replayed = false)
    (hrun : R.postgres.idParam request.taskRunId = .ok (some run))
    (h : Tx.Yields R.postgres session (acceptTaskRunReport R request) db result db') :
    NamesParsed db' run result.parsedRecordIds ∧ NamesResults db' run result.qcResultIds ∧
      NamesAlerts db' run result.alertIds := by
  unfold acceptTaskRunReport at h
  split at h
  · simp at h
  simp only [Tx.yields_bind, Tx.yields_unless_refuse] at h
  obtain ⟨record, mid, -, -, claimed, mid₁, -, h⟩ := h
  cases claimed with
  | acquired receiptId =>
    simp only [Tx.yields_bind] at h
    obtain ⟨⟨⟩, mid₂, -, created, mid₃, hrecords, ⟨⟩, mid₄, hfinish, ⟨⟩, mid₅, hcomplete, h⟩ := h
    obtain ⟨rfl, rfl⟩ := Tx.yields_pure.mp h
    have hempty : Created.Names {} mid₂ run := by
      constructor <;> simp [NamesParsed, NamesResults, NamesAlerts]
    have hnames := (recordParsedRecords_names hrun hempty hrecords).accumulated
      (hfinish.accumulates.trans hcomplete.accumulates)
    exact ⟨hnames.parsed, hnames.results, hnames.alerts⟩
  | replay receipt =>
    obtain ⟨rfl, -⟩ := Tx.yields_pure.mp h
    cases hnew
  | idempotencyConflict => simp at h
  | taskRunConflict => simp at h

end AgentReportService

/-- Raw files and alerts belong to the nodes of their runs, and receipts name evidence of theirs. -/
structure Attributed (db : Database) : Prop where
  rawFiles : ∀ file ∈ db.rawFiles.rows, db.RunOf file.nodeCode file.taskRunId
  alerts : ∀ alert ∈ db.alerts.rows, OwnedAlert db alert
  receipts : ∀ receipt ∈ db.receipts.rows, NamedReceipt db receipt

/-- The fresh schema holds nothing. -/
theorem attributed_empty : Attributed .empty := by
  constructor <;> simp [Database.empty]

/-- Whatever accumulates keeps evidence attributed when new receipts name evidence. -/
theorem Attributed.accumulated (h : Attributed db) (haccumulates : Accumulates db db')
    (hreceipts : ∀ receipt ∈ db'.receipts.rows,
      receipt ∈ db.receipts.rows ∨ NamedReceipt db' receipt) : Attributed db' where
  rawFiles := by
    intro file hfile
    obtain ⟨added, hrows, howned⟩ := haccumulates.rawFiles
    rw [hrows] at hfile
    rcases List.mem_append.mp hfile with hold | hnew
    · exact haccumulates.taskRuns (h.rawFiles file hold)
    · exact howned file hnew
  alerts := by
    intro alert halert
    rcases haccumulates.alerts.origin halert with ⟨before, hbefore, same⟩ | hfresh
    · exact (h.alerts before hbefore).moved haccumulates.taskRuns same
    · exact hfresh
  receipts := by
    intro receipt hreceipt
    rcases hreceipts receipt hreceipt with hold | hnamed
    · exact fun response hanswers =>
        haccumulates.namesEvidence (h.receipts receipt hold response hanswers)
    · exact hnamed

/-- The receipt of an accepted request names what its response names. -/
theorem Accepted.namedReceipt {claim : AgentReportReceiptClaim}
    {response : AgentReportReceiptResponse} (h : Accepted pg claim run response db db')
    (hnames : NamesEvidence db' run response claim.requestType) :
    ∀ receipt ∈ db'.receipts.rows, receipt ∈ db.receipts.rows ∨ NamedReceipt db' receipt := by
  intro receipt hreceipt
  obtain ⟨row, hnew, rfl, hrows⟩ := h.receipt
  rw [hrows] at hreceipt
  rcases List.mem_append.mp hreceipt with hold | hlast
  · exact .inl hold
  · refine .inr fun other hother => ?_
    rw [List.mem_singleton.mp hlast] at hother ⊢
    obtain rfl : other = response := hother.1.symm.trans hnew.answers.1
    rw [hnew.names.type]
    exact hnames

/-- A served call accumulates. -/
theorem Call.serve_accumulates (call : Call) (session : Session) (db : Database) :
    Accumulates db (call.serve R session db).2 := by
  rcases call.serve_cases session db with hsame | ⟨reply, -, hyields⟩
  · have hruns : (call.serve R session db).2.taskRuns.rows = db.taskRuns.rows :=
      congrArg Contents.taskRuns hsame
    refine .of_runs (fun hrun => ?_) (congrArg Contents.rawFiles hsame)
      (congrArg Contents.parsedRecords hsame) (congrArg Contents.qcResults hsame)
      (congrArg Contents.alerts hsame)
    obtain ⟨row, hrow, howner⟩ := hrun
    exact ⟨row, hruns ▸ hrow, howner⟩
  · exact hyields.accumulates

/-- A served call keeps evidence attributed. -/
theorem Call.serve_attributed (call : Call) (session : Session) (h : Attributed db) :
    Attributed (call.serve R session db).2 := by
  refine h.accumulated (call.serve_accumulates session db) ?_
  rcases call.serve_cases session db with hsame | ⟨reply, -, hyields⟩
  · have hreceipts : (call.serve R session db).2.receipts.rows = db.receipts.rows :=
      congrArg Contents.receipts hsame
    exact fun receipt hreceipt => .inl (hreceipts ▸ hreceipt)
  · revert hyields
    generalize (call.serve R session db).2 = db'
    intro hyields
    have elsewhere {db' : Database} (hsame : SameElsewhere db db') :
        ∀ receipt ∈ db'.receipts.rows, receipt ∈ db.receipts.rows ∨ NamedReceipt db' receipt :=
      fun receipt hreceipt => .inl (hsame.receipts ▸ hreceipt)
    cases call <;> simp only [transaction, Tx.yields_bind, Tx.yields_pure] at hyields <;>
      obtain ⟨result, db', hyields, -, rfl⟩ := hyields
    case start request =>
      exact elsewhere (TaskRunService.starts_of_yields
        (TaskRunService.start_starting request) hyields).elsewhere
    case trigger taskId key =>
      exact elsewhere (TaskRunService.starts_of_yields
        (TaskRunService.applyManualRun_starting _ _ _ _ _) hyields).elsewhere
    case retry taskRunId key =>
      exact elsewhere (TaskRunService.starts_of_yields
        (TaskRunService.requestRetryRun_starting _ _) hyields).elsewhere
    case setEnabled taskId enabled => exact elsewhere (setTaskEnabled_yields hyields).elsewhere
    case disposeAlert alertId acknowledge =>
      obtain ⟨alerts, rfl, -⟩ := disposeAlert_yields hyields
      exact fun receipt => .inl
    case manifest request =>
      obtain ⟨owner, response, howner, ⟨-, rfl, -⟩ | ⟨rfl, -, -, haccepted⟩⟩ :=
        AgentReportService.acceptRawFileManifest_yields hyields
      · exact fun receipt => .inl
      · exact haccepted.namedReceipt
          (AgentReportService.acceptRawFileManifest_names rfl howner.named hyields)
    case report request =>
      obtain ⟨-, owner, response, howner, ⟨-, rfl, -⟩ | ⟨rfl, -, -, haccepted⟩⟩ :=
        AgentReportService.acceptTaskRunReport_yields hyields
      · exact fun receipt => .inl
      · exact haccepted.namedReceipt
          (AgentReportService.acceptTaskRunReport_names rfl howner.named hyields)

/-- Configuration keeps evidence attributed. -/
theorem Configures.attributed (h : Configures pg db db') (hattributed : Attributed db) :
    Attributed db' := by
  refine hattributed.accumulated (.of_runs (fun hrun => ?_) (by rw [h.rawFiles])
    (by rw [h.parsedRecords]) (by rw [h.qcResults]) (by rw [h.alerts]))
    fun receipt hreceipt => .inl (h.receipts ▸ hreceipt)
  obtain ⟨row, hrow, howner⟩ := hrun
  exact ⟨row, h.taskRuns ▸ hrow, howner⟩

/-- The evidence of every reachable state is attributed. -/
theorem Reachable.attributed (h : Reachable R db) : Attributed db := by
  induction h with
  | refl => exact attributed_empty
  | tail _ step ih =>
    cases step with
    | serve call session allowed => exact call.serve_attributed session ih
    | configure configures => exact configures.attributed ih

end LabBridge.Server
