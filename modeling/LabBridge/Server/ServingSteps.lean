import LabBridge.Server.ServingWrites

/-!
# What a statement tells a request

A statement that is answered leads a request to the next stage of its protocol, and the request
then knows what that stage tells.
-/

namespace LabBridge.Server

open ByteText LabBridge.Core Storage Interaction AgentReportService ReceiptRepository

variable {R : Runtime} {reported : TaskRunStatus → Prop} {db view reached : Database}
  {serving : Serving} {call : Call} {γ : Type} {statement : Statement γ} {answer : γ}
  {rest : Tx Reply} {stage stage' : ServingStage}

/-- The only row that an appended list holds beyond the stored ones is the appended one. -/
theorem eq_of_changed_append {Row : Type} {stored after : List Row} {row added : Row}
    (hrows : after = stored ++ [added]) (hrow : row ∈ after) (hchanged : row ∉ stored) :
    row = added := by
  rw [hrows] at hrow
  exact List.mem_singleton.mp ((List.mem_append.mp hrow).resolve_left hchanged)

/-- An appended row was not stored. -/
theorem mem_changedRows_append {Row : Type} {key : Row → RowId} {clash : Row → Row → Bool}
    [DecidableEq Row] {before after : SerialTable Row key clash} {row : Row}
    (hrows : after.rows = before.rows ++ [row]) :
    row ∈ changedRows before.rows after.rows := by
  refine mem_changedRows.mpr ⟨by simp [hrows], fun hold => ?_⟩
  have hascending := after.ascending
  rw [hrows] at hascending
  exact lt_irrefl _ ((List.pairwise_append.mp hascending).2.2 row hold row (by simp))

/-- A statement that writes nothing leaves the versions of evidence as they are. -/
@[simp] theorem EvidencePatch.record_self (own : EvidencePatch) (view : Database) :
    own.record view view = own := by
  simp [EvidencePatch.record]

/-- No evidence is stored where none is changed. -/
theorem EvidencePatch.NoRows.record {own : EvidencePatch} (h : own.NoRows)
    (rawFiles : reached.rawFiles = view.rawFiles)
    (parsedRecords : reached.parsedRecords = view.parsedRecords)
    (qcResults : reached.qcResults = view.qcResults) (alerts : reached.alerts = view.alerts) :
    (own.record view reached).NoRows := by
  constructor <;> simp [EvidencePatch.record, rawFiles, parsedRecords, qcResults, alerts,
    h.rawFiles, h.parsedRecords, h.qcResults, h.alerts]

/-- A version that starts is still one of a request that creates and starts runs. -/
theorem StartsRun.start {run version : TaskRunRow} (h : StartsRun db run)
    (move : StartMove run version) : StartsRun db version := by
  rcases h with ⟨source, hsource, first⟩ | ⟨hopen, hfresh⟩
  · exact .inl ⟨source, hsource, first.trans move⟩
  · cases move with
    | stay unchanged => exact unchanged ▸ .inr ⟨hopen, hfresh⟩
    | start _ running same =>
      refine .inr ⟨by rw [running]; rfl, fun other hother => ?_⟩
      rw [same.id]
      exact hfresh other hother

/-- The versions of a request that creates and starts runs. -/
theorem startsRun_of_record (hseen : Seen serving db view) (hstarts : Starts view reached)
    (hdraws : Drawn view.taskRuns reached.taskRuns)
    (hown : ∀ version ∈ serving.own.runs, StartsRun db version) :
    ∀ version ∈ (serving.own.record view reached).runs, StartsRun db version := by
  intro version hversion
  rcases of_mem_supersede hversion with hold | ⟨hnew, -⟩
  · exact hown version hold
  · have hmoved {run : TaskRunRow} (hrun : run ∈ view.taskRuns.rows)
        (move : StartMove run version) : StartsRun db version := by
      rcases hseen.runs.origin hrun with hversion' | hstored
      · exact (hown run hversion').start move
      · exact .inl ⟨run, hstored, move⟩
    rcases hstarts.taskRuns.origin hnew with ⟨run, hrun, move⟩ | hfresh
    · exact hmoved hrun move
    · rcases hdraws.rows version hnew with ⟨old, hold, hid⟩ | hnext
      · obtain ⟨moved, hmem, move⟩ := hstarts.taskRuns.exists_moved hold
        have hkey : moved.id = old.id := by
          cases move with
          | stay unchanged => rw [unchanged]
          | start _ _ same => exact same.id
        obtain rfl := SerialTable.eq_of_key_eq hmem hnew (hkey.trans hid)
        exact hmoved hold move
      · refine .inr ⟨hfresh.isOpen, fun run hrun hid => ?_⟩
        have hbelow := db.taskRuns.below run hrun
        rw [hid, ← hseen.nextRun] at hbelow
        omega

/-- The versions of a request that switches a task. -/
theorem disableMove_of_record (hseen : Seen serving db view) (hswitches : Switches view reached)
    (hown : ∀ version ∈ serving.own.runs, ∃ run ∈ db.taskRuns.rows, DisableMove run version) :
    ∀ version ∈ (serving.own.record view reached).runs,
      ∃ run ∈ db.taskRuns.rows, DisableMove run version := by
  intro version hversion
  rcases of_mem_supersede hversion with hold | ⟨hnew, -⟩
  · exact hown version hold
  · rcases hswitches.taskRuns.origin hnew with ⟨run, hrun, move⟩ | hfresh
    · rcases hseen.runs.origin hrun with hversion' | hstored
      · obtain ⟨source, hsource, first⟩ := hown run hversion'
        exact ⟨source, hsource, first.trans move⟩
      · exact ⟨run, hstored, move⟩
    · exact hfresh.elim

/-- The alerts of a request that disposes of one. -/
theorem sameAlert_of_record (hseen : Seen serving db view)
    {alertId : Bytes} {acknowledge answer : Bool}
    {session : Session}
    (hexec : view.updateAlert R.postgres session alertId acknowledge = .ok (answer, reached))
    (hown : ∀ alert ∈ serving.evidence.alerts, ∃ stored ∈ db.alerts.rows, SameAlert stored alert) :
    ∀ alert ∈ (serving.evidence.record view reached).alerts,
      ∃ stored ∈ db.alerts.rows, SameAlert stored alert := by
  intro alert halert
  rcases of_mem_supersede halert with hold | ⟨hnew, -⟩
  · exact hown alert hold
  · obtain ⟨alerts, rfl, hmoves⟩ := updateAlert_ok hexec
    rcases hmoves.origin hnew with ⟨source, hsource, same⟩ | hfresh
    · rcases hseen.alerts.origin hsource with hversion | hstored
      · obtain ⟨stored, hstored, first⟩ := hown source hversion
        exact ⟨stored, hstored, same.id.trans first.id, same.taskRunId.trans first.taskRunId⟩
      · exact ⟨source, hstored, same⟩
    · exact hfresh.elim

/-- A claim that is acquired is among the versions. -/
theorem claims_of_acquired {claim : AgentReportReceiptClaim} {receiptId : Bytes}
    (fits : FitsColumns R.postgres claim)
    (hexec : view.insertReceipt R.postgres claim = .ok (some receiptId, reached)) :
    Claims R.postgres claim receiptId (serving.evidence.record view reached) := by
  obtain ⟨row, receipts, hid, hacquired, rfl, hrows⟩ := insertReceipt_some fits hexec
  refine ⟨row, mem_supersede.mpr (.inl (mem_changedRows_append hrows)), hid, hacquired.names,
    hacquired.run⟩

/-- A claim stays among the versions while other tables are written. -/
theorem Claims.record {claim : AgentReportReceiptClaim} {receiptId : Bytes}
    {own : EvidencePatch} (h : Claims R.postgres claim receiptId own)
    (receipts : reached.receipts = view.receipts) :
    Claims R.postgres claim receiptId (own.record view reached) := by
  obtain ⟨receipt, hreceipt, hfacts⟩ := h
  exact ⟨receipt, by simpa [EvidencePatch.record, receipts] using hreceipt, hfacts⟩

/-- A claim stays among the versions when its receipt is completed. -/
theorem Claims.complete {claim : AgentReportReceiptClaim} {claimed receiptId rawFileIds
      parsedRecordIds qcResultIds alertIds : Bytes} {answer : Option Bytes} {session : Session}
    (hseen : Seen serving db view)
    (h : Claims R.postgres claim claimed serving.evidence)
    (hexec : view.updateReceiptComplete R.postgres session receiptId rawFileIds parsedRecordIds
      qcResultIds alertIds = .ok (answer, reached)) :
    Claims R.postgres claim claimed (serving.evidence.record view reached) := by
  obtain ⟨receipt, hreceipt, rfl, hnames, hrun⟩ := h
  obtain ⟨found, hfound, hid, hsame⟩ :=
    exists_supersede ReceiptRow.id (changedRows view.receipts.rows reached.receipts.rows) hreceipt
  rcases hsame with rfl | hchanged
  · exact ⟨found, hfound, rfl, hnames, hrun⟩
  · obtain ⟨hnew, hfresh⟩ := mem_changedRows.mp hchanged
    obtain ⟨receipts, rfl, hrows⟩ := updateReceiptComplete_ok hexec
    rcases hrows found hnew with hold | ⟨old, hold, -, same⟩
    · exact absurd hold hfresh
    · obtain rfl := SerialTable.eq_of_key_eq (hseen.receipts.of_version hreceipt) hold
        (hid.symm.trans same.id)
      refine ⟨found, hfound, by rw [same.id], ⟨?_, ?_, ?_⟩, ?_⟩
      · rw [same.nodeCode]
        exact hnames.node
      · rw [same.requestType]
        exact hnames.type
      · rw [same.idempotencyKey]
        exact hnames.key
      · rw [same.taskRunId]
        exact hrun

namespace StoresRows

variable {request : TaskRunReportRequest} {receiptId : Bytes} {run : RowId}

/-- A report that stores nothing more keeps its rows. -/
theorem record (h : StoresRows R reported request receiptId db serving.evidence run)
    (rawFiles : reached.rawFiles = view.rawFiles)
    (parsedRecords : reached.parsedRecords = view.parsedRecords)
    (qcResults : reached.qcResults = view.qcResults) (alerts : reached.alerts = view.alerts)
    (claims : Claims R.postgres (reportClaim R request) receiptId
      (serving.evidence.record view reached)) :
    StoresRows R reported request receiptId db (serving.evidence.record view reached) run where
  named := h.named
  claims := claims
  isOpen := h.isOpen
  rawFiles := by simp [EvidencePatch.record, rawFiles, h.rawFiles]
  parsedRecords := by simpa [EvidencePatch.record, parsedRecords] using h.parsedRecords
  qcResults := by simpa [EvidencePatch.record, parsedRecords, qcResults] using h.qcResults
  alerts := by simpa [EvidencePatch.record, alerts] using h.alerts

/-- A parsed row that a report stores is one of its run. -/
theorem storeRow (h : StoresRows R reported request receiptId db serving.evidence run)
    {record : ParsedRecordRecord} {key : Bytes} (hrun : record.taskRunId = request.taskRunId)
    (hexec : view.insertParsedRecord R.postgres record = .ok (some key, reached)) :
    StoresRows R reported request receiptId db (serving.evidence.record view reached) run ∧
      ∃ parsed ∈ (serving.evidence.record view reached).parsedRecords,
        key = decimal parsed.id := by
  obtain ⟨hnone, -⟩ | ⟨parsed, parsedRecords, hkey, howner, rfl, hrows⟩ :=
    insertParsedRecord_stores hexec
  · cases hnone
  · have hparsed : parsed.taskRunId = run := by
      rw [hrun, h.named, Except.ok.injEq, Option.some.injEq] at howner
      exact howner.symm
    refine ⟨⟨h.named, h.claims.record rfl, h.isOpen, ?_, ?_, ?_, ?_⟩, ?_⟩
    · simp [EvidencePatch.record, h.rawFiles]
    · intro row hrow
      rcases of_mem_supersede hrow with hold | ⟨hnew, hchanged⟩
      · exact h.parsedRecords row hold
      · rwa [eq_of_changed_append hrows hnew hchanged]
    · intro result hresult
      obtain ⟨owner, howner, hid⟩ := h.qcResults result
        (by simpa [EvidencePatch.record] using hresult)
      obtain ⟨found, hfound, hsame, -⟩ := exists_supersede ParsedRecordRow.id
        (changedRows view.parsedRecords.rows parsedRecords.rows) howner
      exact ⟨found, hfound, hsame.trans hid⟩
    · simpa [EvidencePatch.record] using h.alerts
    · exact ⟨parsed, mem_supersede.mpr (.inl (mem_changedRows_append hrows)),
        Option.some.inj hkey⟩

/-- A rule result that a report stores is one of its parsed row. -/
theorem storeResult (h : StoresRows R reported request receiptId db serving.evidence run)
    {record : QcResultRecord} {key : Bytes} {answer : Option Bytes}
    (hrow : record.parsedRecordId = key)
    (howner : ∃ parsed ∈ serving.evidence.parsedRecords, key = decimal parsed.id)
    (hexec : view.insertQcResult R.postgres record = .ok (answer, reached)) :
    StoresRows R reported request receiptId db (serving.evidence.record view reached) run ∧
      ∃ parsed ∈ (serving.evidence.record view reached).parsedRecords,
        key = decimal parsed.id := by
  obtain ⟨result, qcResults, -, rfl, hrows, parsed, -, hparam, hparsed⟩ :=
    insertQcResult_stores hexec
  obtain ⟨known, hknown, rfl⟩ := howner
  rw [hrow, Postgres.idParam_decimal, Except.ok.injEq, Option.some.injEq] at hparam
  refine ⟨⟨h.named, h.claims.record rfl, h.isOpen, ?_, ?_, ?_, ?_⟩, known, ?_, rfl⟩
  · simp [EvidencePatch.record, h.rawFiles]
  · simpa [EvidencePatch.record] using h.parsedRecords
  · intro stored hstored
    rcases of_mem_supersede hstored with hold | ⟨hnew, hchanged⟩
    · simpa [EvidencePatch.record] using h.qcResults stored hold
    · refine ⟨known, by simpa [EvidencePatch.record] using hknown, ?_⟩
      rw [eq_of_changed_append hrows hnew hchanged, hparsed]
      exact hparam
  · simpa [EvidencePatch.record] using h.alerts
  · simpa [EvidencePatch.record] using hknown

/-- An alert that a report raises is one of its run. -/
theorem raiseAlert (h : StoresRows R reported request receiptId db serving.evidence run)
    {record : AlertRecord} {answer : Option Bytes} (hrun : record.taskRunId = request.taskRunId)
    (hexec : view.insertAlert R.postgres record = .ok (answer, reached)) :
    StoresRows R reported request receiptId db (serving.evidence.record view reached) run ∧
      (serving.evidence.record view reached).parsedRecords = serving.evidence.parsedRecords := by
  obtain ⟨-, rfl⟩ | ⟨alert, alerts, -, howner, rfl, hrows⟩ := insertAlert_stores hexec
  · simpa using h
  · refine ⟨⟨h.named, h.claims.record rfl, h.isOpen, ?_, ?_, ?_, ?_⟩, ?_⟩
    · simp [EvidencePatch.record, h.rawFiles]
    · simpa [EvidencePatch.record] using h.parsedRecords
    · simpa [EvidencePatch.record] using h.qcResults
    · intro stored hstored
      rcases of_mem_supersede hstored with hold | ⟨hnew, hchanged⟩
      · exact h.alerts stored hold
      · rw [eq_of_changed_append hrows hnew hchanged]
        exact howner run (hrun ▸ h.named)
    · simp [EvidencePatch.record]

end StoresRows

/-- A report that has claimed its receipt has stored nothing yet. -/
theorem StoresRows.of_noRows {request : TaskRunReportRequest} {receiptId : Bytes} {run : RowId}
    {evidence : EvidencePatch} (h : evidence.NoRows)
    (named : R.postgres.idParam request.taskRunId = .ok (some run))
    (claims : Claims R.postgres (reportClaim R request) receiptId evidence)
    (isOpen : OpenRun reported db run) :
    StoresRows R reported request receiptId db evidence run :=
  ⟨named, claims, isOpen, h.rawFiles, by simp [h.parsedRecords], by simp [h.qcResults],
    by simp [h.alerts]⟩

/-- A manifest that has claimed its receipt has stored nothing yet. -/
theorem StoresFiles.of_noRows {request : RawFileManifestRequest} {receiptId : Bytes}
    {evidence : EvidencePatch} (h : evidence.NoRows)
    (claims : Claims R.postgres (manifestClaim R request) receiptId evidence) :
    StoresFiles R request receiptId evidence :=
  ⟨claims, by simp [h.rawFiles], h.parsedRecords, h.qcResults, h.alerts⟩

/-- A file that a manifest stores is one of its run. -/
theorem StoresFiles.storeFile {request : RawFileManifestRequest} {receiptId : Bytes}
    (h : StoresFiles R request receiptId serving.evidence) {record : RawFileRecord}
    {answer : Option Bytes} (hfiles : request.files ≠ [])
    (hrun : record.taskRunId = request.taskRunId)
    (hexec : view.insertRawFile R.postgres record = .ok (answer, reached)) :
    StoresFiles R request receiptId (serving.evidence.record view reached) := by
  obtain ⟨-, rfl⟩ | ⟨file, rawFiles, -, howner, rfl, hrows⟩ := insertRawFile_stores hexec
  · simpa using h
  · refine ⟨h.claims.record rfl, ?_, ?_, ?_, ?_⟩
    · intro stored hstored
      rcases of_mem_supersede hstored with hold | ⟨hnew, hchanged⟩
      · exact h.files stored hold
      · rw [eq_of_changed_append hrows hnew hchanged]
        exact ⟨hfiles, hrun ▸ howner⟩
    · simp [EvidencePatch.record, h.parsedRecords]
    · simp [EvidencePatch.record, h.qcResults]
    · simp [EvidencePatch.record, h.alerts]

/-- A run that a request finds before it has written one is stored. -/
theorem stored_of_selectRunById (hseen : Seen serving db view) (hempty : serving.own.runs = [])
    {taskRunId : Bytes} {run : TaskRunRecord} {session : Session}
    (hexec : (Statement.selectRunById taskRunId).exec R.postgres session view =
      .ok (some run, reached)) :
    reached = view ∧ ∃ row ∈ db.taskRuns.rows, R.postgres.idParam taskRunId = .ok (some row.id) ∧
      run = Database.toTaskRunRecord R.postgres row := by
  obtain ⟨hselect, hsame⟩ := Statement.reading_eq_ok.mp hexec
  rcases selectRunById_ok hselect with hnone | ⟨row, hrow, hid, hrun⟩
  · cases hnone
  · refine ⟨hsame.symm, row, (hseen.runs.origin hrow).resolve_left ?_, hid, Option.some.inj hrun⟩
    simp [hempty]

/-- A run whose report is claimed has no other report. -/
theorem openRun_of_acquired (hserving : serving.Sound R reported db) (hseen : Seen serving db view)
    {request : TaskRunReportRequest} {row : ReceiptRow} {run : RowId}
    (hacquired : Acquired R.postgres (reportClaim R request) view row)
    (hid : R.postgres.idParam request.taskRunId = .ok (some run))
    (hfound : OpenRun reported db run ∨ HasReport db.receipts.rows run) :
    OpenRun reported db run := by
  apply hfound.resolve_right
  rintro ⟨receipt, hreceipt, htype, hrun⟩
  have hstored : receipt ∈ view.receipts.rows :=
    hseen.receipts.of_stored hreceipt fun version hversion =>
      ((hserving.receipts version hversion receipt hreceipt).1).symm
  have hsame : receipt.taskRunId = row.taskRunId := by
    have hrow := hacquired.run
    rw [show (reportClaim R request).taskRunId = request.taskRunId from rfl, hid,
      Except.ok.injEq, Option.some.injEq] at hrow
    exact hrun.trans hrow
  have hfree := hacquired.fresh receipt hstored
  rw [ReceiptRow.clash_eq_true.mpr (.inr ⟨htype, hacquired.names.type, hsame⟩)] at hfree
  cases hfree

/-- The only version that the end of a report leaves is its run, which was open. -/
theorem endsRun_of_finish (hseen : Seen serving db view) (hempty : serving.own.runs = [])
    {run : RowId} (hopen : OpenRun reported db run) {record : TaskRunRecord}
    (hid : record.id = decimal run) (ended : record.status.isTerminal = true)
    (hexec : view.updateRunFinish R.postgres record = .ok ((), reached)) :
    ∀ version ∈ (serving.own.record view reached).runs, version.id = run ∧
      ∃ row ∈ db.taskRuns.rows, EndsRun reported row version := by
  obtain ⟨change, taskRuns, rfl, hfinished, hrows⟩ := updateRunFinish_ok hid hexec
  intro version hversion
  rcases of_mem_supersede hversion with hold | ⟨hnew, hchanged⟩
  · simp [hempty] at hold
  · rw [hrows, List.mem_map] at hnew
    obtain ⟨row, hrow, rfl⟩ := hnew
    split at hchanged
    · rename_i hselected
      obtain ⟨found, hfound, hid', hstatus, hallowed⟩ := hopen
      have hstored := (hseen.runs.origin hrow).resolve_left (by simp [hempty])
      have howner : row.id = run := by simpa using hselected
      obtain rfl := SerialTable.eq_of_key_eq hfound hstored (hid'.trans howner.symm)
      rw [if_pos hselected]
      refine ⟨(hfinished _).id.trans howner, _, hstored, hstatus, hallowed, ?_,
        (hfinished _).toSameRun⟩
      rw [(hfinished _).status]
      exact ended
    · exact absurd hrow hchanged

/-- A request that has written no run writes none where the runs stay as they are. -/
theorem runs_of_record (hsame : reached.taskRuns = view.taskRuns)
    (hempty : serving.own.runs = []) : (serving.own.record view reached).runs = [] := by
  simp [Patch.record, hsame, hempty]

namespace Serving

/-- A statement that changes nothing leaves what a request knows. -/
theorem Knows.idle (h : serving.Knows R reported db call stage) (known : stage ≠ .begun)
    (hsame : reached = view) :
    (serving.proceed R.postgres view reached statement rest).Knows R reported db call stage := by
  have hown : (serving.proceed R.postgres view reached statement rest).own = serving.own := by
    rw [hsame]
    exact record_self _ _
  have hevidence : (serving.proceed R.postgres view reached statement rest).evidence =
      serving.evidence := by
    rw [hsame]
    exact EvidencePatch.record_self _ _
  have hasked : (serving.proceed R.postgres view reached statement rest).asked ≠ 0 :=
    Nat.succ_ne_zero _
  cases call with
  | manifest request => cases stage <;> simpa only [Knows, hown, hevidence] using h
  | report request =>
    cases stage with
    | begun => exact absurd rfl known
    | _ =>
      simp only [Knows, hown, hevidence] at h ⊢
      exact ⟨hasked, h.2⟩
  | _ => simpa only [Knows, hown, hevidence] using h

/-- A report that may store rows does so for its run, and has not ended it. -/
theorem Knows.storesRows {request : TaskRunReportRequest} {receiptId : Bytes}
    (h : serving.Knows R reported db (.report request) stage)
    (stores : stage.storing = some receiptId) :
    serving.own.runs = [] ∧
      ∃ run, StoresRows R reported request receiptId db serving.evidence run := by
  cases stage with
  | claimed held =>
    cases stores
    exact ⟨h.2.1, h.2.2⟩
  | parsed held last =>
    cases stores
    obtain ⟨-, hempty, owner, hstores, -⟩ := h
    exact ⟨hempty, owner, hstores⟩
  | _ => cases stores

/-- What a statement of the protocol tells a request; `hfirst` says in which states a report may
find its run. -/
theorem Knows.step (hserving : serving.Sound R reported db) (hseen : Seen serving db view)
    (hfirst : ∀ request, call = .report request → serving.asked = 0 → ∀ run,
      OwnRun R.postgres request.taskRunId request.nodeCode run db → reported run.status)
    (h : serving.Knows R reported db call stage)
    (hafter : ServingStage.After R call stage statement answer stage')
    (hexec : statement.exec R.postgres serving.session view = .ok (answer, reached)) :
    (serving.proceed R.postgres view reached statement rest).Knows R reported db call stage' := by
  have hasked : serving.asked + 1 ≠ 0 := Nat.succ_ne_zero _
  cases hafter with
  | read known isRead => exact h.idle known (isRead.exec_eq hexec)
  | refused known => exact h.idle known (insertReceipt_none hexec)
  | refuseRow known =>
    obtain ⟨-, hsame⟩ | ⟨parsed, parsedRecords, hsome, -⟩ := insertParsedRecord_stores hexec
    · exact h.idle known hsame
    · cases hsome
  | start starts isStarting =>
    have hstarts := isStarting.exec hexec
    have hboth (h : serving.evidence.NoRows ∧ ∀ version ∈ serving.own.runs,
        StartsRun db version) : (serving.evidence.record view reached).NoRows ∧
          ∀ version ∈ (serving.own.record view reached).runs, StartsRun db version :=
      ⟨h.1.record hstarts.elsewhere.rawFiles hstarts.elsewhere.parsedRecords
        hstarts.elsewhere.qcResults hstarts.elsewhere.alerts,
        startsRun_of_record hseen hstarts (Statement.exec_frame hexec).draws.runs h.2⟩
    cases call with
    | start request => exact hboth h
    | trigger taskId key => exact hboth h
    | retry taskRunId key => exact hboth h
    | _ => cases starts
  | switch isSwitching =>
    have hswitches := isSwitching.exec hexec
    exact ⟨h.1.record hswitches.elsewhere.rawFiles hswitches.elsewhere.parsedRecords
      hswitches.elsewhere.qcResults hswitches.elsewhere.alerts,
      disableMove_of_record hseen hswitches h.2⟩
  | dispose =>
    obtain ⟨alerts, hsame, -⟩ := updateAlert_ok hexec
    refine ⟨runs_of_record (by rw [hsame]) h.1, ?_, sameAlert_of_record hseen hexec h.2.2⟩
    obtain ⟨hfiles, hparsed, hresults, -⟩ := h.2.1
    constructor <;> simp_all [proceed, EvidencePatch.record]
  | claimManifest fits =>
    obtain ⟨row, receipts, -, -, hsame, -⟩ :=
      insertReceipt_some (fits_manifestClaim fits) hexec
    refine ⟨runs_of_record (by rw [hsame]) h.1, .of_noRows (h.2.record ?_ ?_ ?_ ?_)
      (claims_of_acquired (fits_manifestClaim fits) hexec)⟩ <;> rw [hsame]
  | storeFile files run =>
    refine ⟨runs_of_record ?_ h.1, h.2.storeFile files run hexec⟩
    obtain ⟨-, rfl⟩ | ⟨file, rawFiles, -, -, rfl, -⟩ := insertRawFile_stores hexec <;> rfl
  | completeManifest =>
    obtain ⟨hempty, hstores⟩ := h
    have hclaims := hstores.claims.complete hseen hexec
    obtain ⟨receipts, rfl, -⟩ := updateReceiptComplete_ok hexec
    refine ⟨runs_of_record rfl hempty, hclaims, ?_, ?_, ?_, ?_⟩
    · simpa [proceed, EvidencePatch.record] using hstores.files
    · simp [proceed, EvidencePatch.record, hstores.parsedRecords]
    · simp [proceed, EvidencePatch.record, hstores.qcResults]
    · simp [proceed, EvidencePatch.record, hstores.alerts]
  | look =>
    obtain ⟨-, hempty, hnone⟩ := h
    obtain rfl := (Statement.reading_eq_ok.mp hexec).2
    exact ⟨hasked, runs_of_record rfl hempty, hnone.record rfl rfl rfl rfl⟩
  | @findOpen request run isOpen node =>
    obtain ⟨hbegun, hempty, hnone⟩ := h
    obtain ⟨rfl, row, hrow, hid, rfl⟩ := stored_of_selectRunById hseen hempty hexec
    refine ⟨hasked, runs_of_record rfl hempty, hnone.record rfl rfl rfl rfl, row.id, hid, .inl ?_⟩
    exact ⟨row, hrow, rfl, isOpen, hfirst request rfl hbegun row ⟨hid, hrow, node⟩⟩
  | claimEnded fits =>
    obtain ⟨-, hempty, hnone⟩ := h
    obtain ⟨row, receipts, -, -, rfl, -⟩ := insertReceipt_some (fits_reportClaim fits) hexec
    exact ⟨hasked, runs_of_record rfl hempty, hnone.record rfl rfl rfl rfl⟩
  | @claimReport request receiptId fits =>
    obtain ⟨-, hempty, hnone, run, hid, hfound⟩ := h
    have hclaims : Claims R.postgres (reportClaim R request) receiptId
        (serving.evidence.record view reached) :=
      claims_of_acquired (fits_reportClaim fits) hexec
    obtain ⟨row, receipts, -, hacquired, rfl, -⟩ :=
      insertReceipt_some (fits_reportClaim fits) hexec
    exact ⟨hasked, runs_of_record rfl hempty, run,
      .of_noRows (hnone.record rfl rfl rfl rfl) hid hclaims
        (openRun_of_acquired hserving hseen hacquired hid hfound)⟩
  | storeRow stores run =>
    obtain ⟨parsed, parsedRecords, hsame⟩ : ∃ parsed parsedRecords, reached =
        { view with parsedRecords := parsedRecords } ∧
          parsedRecords.rows = view.parsedRecords.rows ++ [(parsed : ParsedRecordRow)] := by
      obtain ⟨hnone, -⟩ | ⟨parsed, parsedRecords, -, -, hsame⟩ := insertParsedRecord_stores hexec
      · cases hnone
      · exact ⟨parsed, parsedRecords, hsame⟩
    obtain ⟨hempty, owner, hstores⟩ := h.storesRows stores
    exact ⟨hasked, runs_of_record (by rw [hsame.1]) hempty, owner, hstores.storeRow run hexec⟩
  | storeResult row =>
    obtain ⟨-, hempty, owner, hstores, hkey⟩ := h
    refine ⟨hasked, runs_of_record ?_ hempty, owner, hstores.storeResult row hkey hexec⟩
    obtain ⟨result, qcResults, -, rfl, -⟩ := insertQcResult_stores hexec
    rfl
  | raiseAlert run =>
    obtain ⟨-, hempty, owner, hstores, hkey⟩ := h
    obtain ⟨hraised, hparsed⟩ := hstores.raiseAlert run hexec
    refine ⟨hasked, runs_of_record ?_ hempty, owner, hraised, ?_⟩
    · obtain ⟨-, rfl⟩ | ⟨alert, alerts, -, -, rfl, -⟩ := insertAlert_stores hexec <;> rfl
    · exact hparsed ▸ hkey
  | locate stores =>
    obtain ⟨hempty, owner, hstores⟩ := h.storesRows stores
    obtain ⟨rfl, row, -, hid, rfl⟩ := stored_of_selectRunById hseen hempty hexec
    rw [hstores.named, Except.ok.injEq, Option.some.injEq] at hid
    refine ⟨hasked, runs_of_record rfl hempty, owner,
      hstores.record rfl rfl rfl rfl (hstores.claims.record rfl), ?_⟩
    rw [hid]
    rfl
  | finish named ended =>
    obtain ⟨-, hempty, owner, hstores, hid⟩ := h
    have hends := endsRun_of_finish hseen hempty hstores.isOpen (named.trans hid) ended hexec
    obtain ⟨change, taskRuns, rfl, -⟩ := updateRunFinish_ok (named.trans hid) hexec
    exact ⟨hasked, owner, hstores.record rfl rfl rfl rfl (hstores.claims.record rfl), hends⟩
  | completeReport =>
    obtain ⟨-, owner, hstores, hends⟩ := h
    have hclaims := hstores.claims.complete hseen hexec
    obtain ⟨receipts, rfl, -⟩ := updateReceiptComplete_ok hexec
    refine ⟨hasked, owner, hstores.record rfl rfl rfl rfl hclaims, ?_⟩
    simpa [proceed, Patch.record] using hends

end Serving

end LabBridge.Server
