import LabBridge.Library.Fallible
import LabBridge.Server.SettledReports
import LabBridge.Server.StoredReports

/-!
# When an accepted report is stored as it was sent

What a new report leaves in the tables, compared with the request. The session hands its
parameters over as zero-terminated strings, so a text behind a zero byte is lost without an
error: the error summary is cut, and a cut level or result may read as `warning` or `failed`
where the request raised no alert.
-/

namespace LabBridge.Server

open ByteText Fallible LabBridge.Core Storage JsonText AgentReportService

variable {R : Runtime} {pg : Postgres} {session : Session} {db db' : Database}

/-- Documented behaviour of the columns a report is read back from. -/
structure ReadsBack (R : Runtime) : Prop where
  /-- A `VARCHAR` column keeps a text, or a beginning of it that fills the column. -/
  varchar_kept : ∀ {limit : ℕ} {value kept : Bytes}, R.postgres.varchar limit value = some kept →
    kept = value ∨ limit ≤ kept.length
  /-- A printed document that a `jsonb` column accepted is read back. -/
  document : ∀ {document : Json} {printed : Bytes} {stored : Option Bytes},
    document.Canonical → R.json.dump document = some printed →
      R.postgres.nullableJsonParam printed = .ok stored →
        ∃ read, stored = some read ∧ read ≠ [] ∧ R.json.parse read = some document

/-- A run that ended as a report says. -/
structure EndedAs (J : JsonCodec) (request : TaskRunReportRequest) (run : TaskRunRow) : Prop where
  status : run.status = request.status
  itemsTotal : run.itemsTotal = request.itemsTotal
  itemsSuccess : run.itemsSuccess = request.itemsSuccess
  itemsFailed : run.itemsFailed = request.itemsFailed
  errorSummary : run.errorSummary = request.errorSummary
  failedFiles : parseFailedFilesJson J (run.failedFiles.getD []) =
    if request.hasFailedFiles then some request.failedFiles else none

/-- The rows of a report and the identifiers it was answered with, item by item. -/
structure StoredReport (pg : Postgres) (request : TaskRunReportRequest) (run : TaskRunRow)
    (rows : List RecordRows) (result : TaskRunReportResult) (before after : Database) : Prop where
  added : Adds { before with taskRuns := after.taskRuns } after (rows.map Prod.fst)
    ((resultRows rows).map Prod.fst) (raisedAlerts (resultRows rows))
  records : List.Forall₂ (StoredRecord pg before.rawFiles.rows before.qcRules.rows run)
    request.parsedRecords rows
  parsedRecordIds : result.parsedRecordIds = rows.map fun row => decimal row.1.id
  qcResultIds : result.qcResultIds = (resultRows rows).map fun row => decimal row.1.id
  alertIds : result.alertIds = (raisedAlerts (resultRows rows)).map fun alert => decimal alert.id

/-- A report was stored faithfully: every item has its row, every stored result has an alert
exactly when it calls for one, and the run ended as the report says. -/
def FaithfulReport (R : Runtime) (request : TaskRunReportRequest) (result : TaskRunReportResult)
    (before after : Database) : Prop :=
  ∃ run rows, OwnRun R.postgres request.taskRunId request.nodeCode run before ∧
    StoredReport R.postgres request run rows result before after ∧
    (∀ row ∈ resultRows rows, row.2.isSome = row.1.callsForAlert) ∧
    ∃ ended ∈ after.taskRuns.rows, ended.id = run.id ∧ EndedAs R.json request ended

/-- No zero byte cuts what a report says: the summary holds none, and a result that calls for an
alert once its texts are cut calls for it as it was sent. -/
structure UncutReport (request : TaskRunReportRequest) : Prop where
  errorSummary : (0 : UInt8) ∉ request.errorSummary
  results : ∀ parsed ∈ request.parsedRecords, ∀ qc ∈ parsed.qcResults,
    (AlertService.isAlertLevel (cString qc.level) ||
      AlertService.isAlertLevel (cString qc.result)) = true → qc.callsForAlert = true

/-- A text arrives whole exactly when it holds no zero byte. -/
theorem cString_eq_self {value : Bytes} : cString value = value ↔ (0 : UInt8) ∉ value := by
  rw [cString, List.takeWhile_eq_self_iff]
  constructor
  · intro h hzero
    simpa using h 0 hzero
  · intro h b hb
    have hne : b ≠ 0 := fun heq => h (heq ▸ hb)
    simpa using hne

/-- What arrives is the zero-terminated string. -/
theorem eq_cString_of_textParam {value received : Bytes} (h : pg.textParam value = .ok received) :
    received = cString value := by
  rw [Postgres.textParam, accepted_eq_ok] at h
  exact pg.eq_cString_of_receive h

/-- A text that calls for an alert holds no zero byte. -/
theorem cString_of_isAlertLevel {level : Bytes} (h : AlertService.isAlertLevel level = true) :
    cString level = level := by
  simp only [AlertService.isAlertLevel, Bool.or_eq_true, beq_iff_eq] at h
  rcases h with rfl | rfl
  · decide
  · decide

/-- A stored level calls for an alert exactly when the text that arrived does. -/
theorem isAlertLevel_stored (hreads : ReadsBack R) {value kept : Bytes}
    (h : R.postgres.varcharParam 32 value = .ok kept) :
    AlertService.isAlertLevel kept = AlertService.isAlertLevel (cString value) := by
  simp only [Postgres.varcharParam, Answer.bind_eq_ok, accepted_eq_ok] at h
  obtain ⟨received, hreceived, hkept⟩ := h
  obtain rfl := eq_cString_of_textParam hreceived
  have hlong {level : Bytes} (hlevel : AlertService.isAlertLevel level = true) :
      level.length < 32 := by
    simp only [AlertService.isAlertLevel, Bool.or_eq_true, beq_iff_eq] at hlevel
    rcases hlevel with rfl | rfl
    · decide
    · decide
  apply Bool.eq_iff_iff.mpr
  constructor
  · intro hcalls
    rcases hreads.varchar_kept hkept with rfl | hfull
    · exact hcalls
    · exact absurd (hlong hcalls) (by omega)
  · intro hcalls
    rw [R.postgres.varchar_short (Nat.le_of_lt (hlong hcalls))] at hkept
    cases hkept
    exact hcalls

/-- A stored rule result calls for an alert exactly when its texts do once they are cut. -/
theorem StoredResult.callsForAlert (hreads : ReadsBack R) {rules : List QcRuleRow}
    {run : TaskRunRow} {parsed : ParsedRecordRow} {qc : TaskRunReportQcResult} {rows : ResultRows}
    (h : StoredResult R.postgres rules run parsed qc rows) :
    rows.1.callsForAlert = (AlertService.isAlertLevel (cString qc.level) ||
      AlertService.isAlertLevel (cString qc.result)) := by
  rw [QcResultRow.callsForAlert, isAlertLevel_stored hreads h.level,
    isAlertLevel_stored hreads h.result]

/-- What calls for an alert as it was sent calls for it once it is cut. -/
theorem callsForAlert_cut {qc : TaskRunReportQcResult} (h : qc.callsForAlert = true) :
    (AlertService.isAlertLevel (cString qc.level) ||
      AlertService.isAlertLevel (cString qc.result)) = true := by
  simp only [TaskRunReportQcResult.callsForAlert, Bool.or_eq_true] at h ⊢
  apply h.imp
  · intro hlevel
    rwa [cString_of_isAlertLevel hlevel]
  · intro hresult
    rwa [cString_of_isAlertLevel hresult]

/-- A stored failed file is read as it was printed. -/
theorem parseFailedFile_encodeFailedFile (file : TaskRunFailedFile) :
    parseFailedFile (encodeFailedFile file) = some file := by
  simp [parseFailedFile, encodeFailedFile, requiredString, List.lookup_cons]

/-- A failed-file list is printed as a canonical document. -/
theorem canonical_failedFiles (files : List TaskRunFailedFile) :
    (Json.arr (files.map encodeFailedFile)).Canonical := by
  rw [Json.canonical_arr]
  intro item hitem
  obtain ⟨file, -, rfl⟩ := List.mem_map.mp hitem
  apply Json.Canonical.record
  · have hkeys : Json.keysOrdered
        ["archive_raw_file_id", "message", "original_name", "source_path", "stage"] = true := by
      decide +kernel
    exact hkeys
  · simp

/-- Items that are each read as they were printed are read together. -/
theorem mapM_parseFailedFile (files : List TaskRunFailedFile) :
    (files.map encodeFailedFile).mapM parseFailedFile = some files := by
  induction files with
  | nil => rfl
  | cons file rest ih =>
    rw [List.map_cons, List.mapM_cons, parseFailedFile_encodeFailedFile, ih]
    rfl

/-- What the column of the failed files is read back as. -/
theorem parseFailedFilesJson_stored (hreads : ReadsBack R) {request : TaskRunReportRequest}
    {json : Bytes} {stored : Option Bytes}
    (hprinted : printedFailedFiles R request = some json)
    (hstored : R.postgres.nullableJsonParam json = .ok stored) :
    parseFailedFilesJson R.json (stored.getD []) =
      if request.hasFailedFiles then some request.failedFiles else none := by
  unfold printedFailedFiles at hprinted
  split at hprinted
  · rename_i hlist
    obtain ⟨read, rfl, hne, hread⟩ :=
      hreads.document (canonical_failedFiles _) hprinted hstored
    have hitems : parseStoredList R.json read =
        some (request.failedFiles.map encodeFailedFile) := by
      simp [parseStoredList, hne, hread]
    rw [if_pos hlist, parseFailedFilesJson, Option.getD_some, hitems]
    exact mapM_parseFailedFile request.failedFiles
  · rename_i hlist
    cases hprinted
    have hempty : R.postgres.nullableJsonParam [] = .ok none := by
      simp [Postgres.nullableJsonParam, R.postgres.textParam_ascii (show ∀ b ∈ [], _ by simp)]
    rw [hempty] at hstored
    cases hstored
    simp [parseFailedFilesJson, parseStoredList, hlist]

/-- The row that `finish` leaves of a run. -/
structure FinishedAs (R : Runtime) (request : TaskRunReportRequest) (run : TaskRunRow) : Prop where
  status : run.status = request.status
  itemsTotal : run.itemsTotal = request.itemsTotal
  itemsSuccess : run.itemsSuccess = request.itemsSuccess
  itemsFailed : run.itemsFailed = request.itemsFailed
  errorSummary : run.errorSummary = cString request.errorSummary
  failedFiles : ∃ json, printedFailedFiles R request = some json ∧
    R.postgres.nullableJsonParam json = .ok run.failedFiles

/-- Finishing a run writes the values of the report to it. -/
theorem finish_writes {request : TaskRunReportRequest} {run : TaskRunRow}
    (hmem : run ∈ db.taskRuns.rows)
    (hrun : R.postgres.idParam request.taskRunId = .ok (some run.id))
    (h : Tx.Yields R.postgres session (TaskRunService.finish R (finishRequest request)) db ()
      db') :
    ∃ taskRuns, db' = { db with taskRuns := taskRuns } ∧
      ∃ ended ∈ taskRuns.rows, ended.id = run.id ∧ FinishedAs R request ended := by
  simp only [TaskRunService.finish, Tx.yields_unless_refuse, Tx.yields_sql_bind,
    Statement.exec, Statement.reading_eq_ok] at h
  obtain ⟨-, -, answer, mid, ⟨hselect, rfl⟩, h⟩ := h
  rcases selectRunById_ok hselect with rfl | ⟨stored, -, hstored, rfl⟩
  · simp at h
  · have hsame : run.id = stored.id := by
      have hnamed := hrun.symm.trans hstored
      simpa using hnamed
    simp only [Tx.yields_bind, Tx.yields_sql] at h
    obtain ⟨json, mid, hprinted, h⟩ := h
    obtain ⟨hjson, rfl⟩ := printed_yields hprinted
    simp only [Statement.exec, Database.updateRunFinish, Database.toTaskRunRecord,
      Postgres.idParam_decimal, Database.changeRuns, Answer.ok_bind, Answer.bind_eq_ok,
      accepted_eq_ok] at h
    obtain ⟨finishedAt, -, errorSummary, hsummary, failedFiles, hfailed, taskRuns, hupdate, h⟩ := h
    cases h
    obtain ⟨hrows, -⟩ := SerialTable.update_eq_some hupdate
    refine ⟨taskRuns, rfl, { run with
      status := request.status
      finishedAt := finishedAt
      itemsTotal := request.itemsTotal
      itemsSuccess := request.itemsSuccess
      itemsFailed := request.itemsFailed
      errorSummary := errorSummary
      failedFiles := failedFiles }, ?_, rfl, rfl, rfl, rfl, rfl,
        eq_cString_of_textParam hsummary, json, hjson, hfailed⟩
    rw [hrows]
    refine List.mem_map.mpr ⟨run, hmem, ?_⟩
    simp [hsame, finishRequest]

/-- The checks of a report find an enabled rule for each of its rule results. -/
theorem enabledRules_of_checkReport {request : TaskRunReportRequest} {record : TaskRunRecord}
    (h : Tx.Yields R.postgres session (checkReport R request record) db () db') :
    ∀ qc ∈ request.parsedRecords.flatMap TaskRunReportParsedRecord.qcResults,
      ∃ rule ∈ db.qcRules.rows, EnabledRule R.postgres qc.qcRuleId rule := by
  rw [checkReport, Tx.yields_unless_refuse] at h
  obtain ⟨-, h⟩ := h
  split at h
  · simp at h
  · rw [Tx.yields_bind] at h
    obtain ⟨ids, mid, hrules, -⟩ := h
    exact checkRules_yields (by simp) hrules

/-- A report that takes effect is stored item by item, and its run is written. -/
theorem AgentReportService.ReportParts.stores {request : TaskRunReportRequest} {run : TaskRunRow}
    {result : TaskRunReportResult} (parts : ReportParts R session request run result db db')
    (hrun : OwnRun R.postgres request.taskRunId request.nodeCode run db) :
    (∃ rows, StoredReport R.postgres request run rows result db db') ∧
      ∃ ended ∈ db'.taskRuns.rows, ended.id = run.id ∧ FinishedAs R request ended := by
  obtain ⟨receipt, receipts, created, stored, finished, -, -, hcheck, hrecords, hfinish,
    hcomplete, rfl⟩ := parts
  obtain ⟨hvalid, -⟩ := recordParsedRecords_yields hrun.named ⟨areIds_nil, areIds_nil, areIds_nil⟩
    hrecords
  have hmem : run ∈ ({ db with receipts := receipts } : Database).taskRuns.rows := hrun.stored
  obtain ⟨rows, rfl, hstored, hadds⟩ := recordParsedRecords_adds hmem hrun.named
    (enabledRules_of_checkReport hcheck) hrecords
  have hrunStays : run ∈ stored.taskRuns.rows := by
    rw [hadds.taskRuns]
    exact hmem
  obtain ⟨taskRuns, rfl, ended, hended, hid, hwritten⟩ :=
    finish_writes hrunStays hrun.named hfinish
  obtain ⟨receipts', rfl, -⟩ :=
    ReceiptRepository.complete_yields ⟨areIds_nil, hvalid.1, hvalid.2.1, hvalid.2.2⟩ hcomplete
  refine ⟨⟨rows, ?_, hstored, ?_, ?_, ?_⟩, ended, hended, hid, hwritten⟩
  · exact {
      taskRuns := rfl
      rawFiles := hadds.rawFiles
      qcRules := hadds.qcRules
      parsedRecords := hadds.parsedRecords
      qcResults := hadds.qcResults
      alerts := hadds.alerts }
  · simp [Created.add]
  · simp [Created.add]
  · simp [Created.add]

section Rows

variable {files : List RawFileRow} {rules : List QcRuleRow} {run : TaskRunRow}
  {records : List TaskRunReportParsedRecord} {rows : List RecordRows}

/-- Every stored rule result is one of the report. -/
theorem reported_of_stored
    (h : List.Forall₂ (StoredRecord pg files rules run) records rows) {row : ResultRows}
    (hrow : row ∈ resultRows rows) : ∃ parsed ∈ records, ∃ qc ∈ parsed.qcResults, ∃ owner,
      StoredResult pg rules run owner qc row := by
  obtain ⟨stored, hstored, hmem⟩ := List.mem_flatMap.mp hrow
  obtain ⟨parsed, hparsed, hrecord⟩ := exists_left h hstored
  obtain ⟨qc, hqc, hresult⟩ := exists_left hrecord.results hmem
  exact ⟨parsed, hparsed, qc, hqc, stored.1, hresult⟩

/-- Every rule result of the report is stored. -/
theorem stored_of_reported
    (h : List.Forall₂ (StoredRecord pg files rules run) records rows)
    {parsed : TaskRunReportParsedRecord} (hparsed : parsed ∈ records)
    {qc : TaskRunReportQcResult} (hqc : qc ∈ parsed.qcResults) :
    ∃ row ∈ resultRows rows, ∃ owner, StoredResult pg rules run owner qc row := by
  obtain ⟨stored, hstored, hrecord⟩ := exists_right h hparsed
  obtain ⟨row, hrow, hresult⟩ := exists_right hrecord.results hqc
  exact ⟨row, List.mem_flatMap.mpr ⟨stored, hstored, hrow⟩, stored.1, hresult⟩

end Rows

/-- A report that was stored faithfully was not cut. -/
theorem uncut_of_faithful (hreads : ReadsBack R) {request : TaskRunReportRequest} {run : TaskRunRow}
    {result : TaskRunReportResult} (hrun : OwnRun R.postgres request.taskRunId request.nodeCode run db)
    (parts : ReportParts R session request run result db db')
    (h : FaithfulReport R request result db db') : UncutReport request := by
  obtain ⟨-, ended, hended, hid, hwritten⟩ := parts.stores hrun
  obtain ⟨run', rows, hrun', hstored, hraised, ended', hended', hid', hends⟩ := h
  have hsameRun : run'.id = run.id := by
    have hnamed := hrun'.named.symm.trans hrun.named
    simpa using hnamed
  obtain rfl := SerialTable.eq_of_key_eq hended' hended (hid'.trans (hsameRun.trans hid.symm))
  constructor
  · exact cString_eq_self.mp (hwritten.errorSummary.symm.trans hends.errorSummary)
  · intro parsed hparsed qc hqc hcut
    obtain ⟨row, hrow, owner, hresult⟩ := stored_of_reported hstored.records hparsed hqc
    rw [← hresult.raised, hraised row hrow, hresult.callsForAlert hreads, hcut]

/-- A report that was not cut is stored faithfully. -/
theorem faithful_of_uncut (hreads : ReadsBack R) {request : TaskRunReportRequest} {run : TaskRunRow}
    {result : TaskRunReportResult} (hrun : OwnRun R.postgres request.taskRunId request.nodeCode run db)
    (parts : ReportParts R session request run result db db') (h : UncutReport request) :
    FaithfulReport R request result db db' := by
  obtain ⟨⟨rows, hstored⟩, ended, hended, hid, hwritten⟩ := parts.stores hrun
  refine ⟨run, rows, hrun, hstored, ?_, ended, hended, hid, ?_⟩
  · intro row hrow
    obtain ⟨parsed, hparsed, qc, hqc, owner, hresult⟩ := reported_of_stored hstored.records hrow
    rw [hresult.raised, hresult.callsForAlert hreads]
    exact Bool.eq_iff_iff.mpr ⟨callsForAlert_cut, h.results parsed hparsed qc hqc⟩
  · obtain ⟨json, hprinted, hjson⟩ := hwritten.failedFiles
    exact {
      status := hwritten.status
      itemsTotal := hwritten.itemsTotal
      itemsSuccess := hwritten.itemsSuccess
      itemsFailed := hwritten.itemsFailed
      errorSummary := hwritten.errorSummary.trans (cString_eq_self.mpr h.errorSummary)
      failedFiles := parseFailedFilesJson_stored hreads hprinted hjson }

/-- The parts of a report that is accepted as new. -/
theorem reportParts_of_execute {request : TaskRunReportRequest} {result : TaskRunReportResult}
    (h : (acceptTaskRunReport R request).execute R.postgres session db = (.ok result, db'))
    (hnew : result.replayed = false) :
    ∃ run, OwnRun R.postgres request.taskRunId request.nodeCode run db ∧
      Nonempty (ReportParts R session request run result db db') := by
  obtain ⟨-, run, hrun, ⟨response, rfl, -⟩ | hparts⟩ :=
    acceptTaskRunReport_cases (Tx.yields_of_execute_eq h)
  · cases hnew
  · exact ⟨run, hrun, hparts⟩

/-- A report that is accepted as new is stored faithfully exactly when no zero byte cuts what it
says: its items have their rows, its alerts stand for its results, and its run ends as it says. -/
theorem report_faithful_iff (hreads : ReadsBack R) {request : TaskRunReportRequest}
    {result : TaskRunReportResult}
    (h : (acceptTaskRunReport R request).execute R.postgres session db = (.ok result, db'))
    (hnew : result.replayed = false) :
    FaithfulReport R request result db db' ↔ UncutReport request := by
  obtain ⟨run, hrun, ⟨parts⟩⟩ := reportParts_of_execute h hnew
  exact ⟨uncut_of_faithful hreads hrun parts, faithful_of_uncut hreads hrun parts⟩

/-- The concrete columns keep their texts, and a printed document is stored as it was sent. -/
theorem readsBack_reference : ReadsBack Reference.runtime where
  varchar_kept := by
    intro limit value kept h
    change (if _ then some value else none) = some kept at h
    split at h
    · exact .inl (Option.some.inj h).symm
    · cases h
  document := by
    intro document printed stored hcanonical hprinted hstored
    have hparse := Reference.runtime.json.parse_dump hcanonical hprinted
    have hprint : printed = print document := by
      change (if _ then some (print document) else none) = some printed at hprinted
      split at hprinted
      · exact (Option.some.inj hprinted).symm
      · cases hprinted
    have hwhole : cString printed = printed :=
      cString_eq_self.mpr (hprint ▸ zero_notMem_print hcanonical)
    obtain ⟨b, tail, hhead, -⟩ := print_head hcanonical
    have hne : printed ≠ [] := by simp [hprint, hhead]
    simp only [Postgres.nullableJsonParam, Answer.bind_eq_ok] at hstored
    obtain ⟨received, hreceived, hstored⟩ := hstored
    obtain rfl : received = printed := (eq_cString_of_textParam hreceived).trans hwhole
    rw [if_neg hne] at hstored
    have hread : readDocument received = some document := hparse
    simp [Reference.runtime, Reference.postgres, hread] at hstored
    exact ⟨received, hstored.symm, hne, hparse⟩

/-- A second row, whose results passed and failed. -/
def failedRow : TaskRunReportParsedRecord where
  rawFileId := text "1"
  record := {
    stationCode := text "S1"
    deviceCode := text "D2"
    recordTime := text "2024-05-01T08:00:10Z"
    payloadJson := text "\x7b\x7d" }
  qcResults := [
    { qcRuleId := text "1", level := text "info", result := text "passed", message := text "ok" },
    { qcRuleId := text "1", level := text "error", result := text "failed",
      message := text "value is out of range" }]

/-- The failed report of two rows and of a file that could not be parsed. -/
def fullReport : TaskRunReportRequest :=
  { Reference.report [Reference.warnedRow, failedRow] with
    status := .failed
    itemsTotal := 3
    itemsSuccess := 2
    itemsFailed := 1
    errorSummary := text "1 of 2 files failed"
    hasFailedFiles := true
    failedFiles := [{
      sourcePath := text "/data/b.csv"
      originalName := text "b.csv"
      stage := text "parse"
      message := text "line 2: quote is not closed"
      archiveRawFileId := [] }] }

/-- A report of rows with a warning, a failure and a failed file is stored faithfully. -/
theorem report_faithful_rows :
    FaithfulReport Reference.runtime fullReport
      ⟨[text "1", text "2"], [text "1", text "2", text "3"], [text "1", text "2"], false⟩
      (Reference.ruledAfter Reference.startedCalls)
      ((acceptTaskRunReport Reference.runtime fullReport).execute Reference.runtime.postgres
        (.first Reference.now) (Reference.ruledAfter Reference.startedCalls)).2 := by
  have hanswer : ((acceptTaskRunReport Reference.runtime fullReport).execute
      Reference.runtime.postgres (.first Reference.now) (Reference.ruledAfter Reference.startedCalls)).1 =
      .ok ⟨[text "1", text "2"], [text "1", text "2", text "3"], [text "1", text "2"], false⟩ := by
    decide +kernel
  refine (report_faithful_iff readsBack_reference (Tx.execute_of_answer hanswer) rfl).mpr
    ⟨by decide +kernel, ?_⟩
  decide +kernel

/-- A row of a report, as it arrives. -/
def rowBody (device time : String) (results : List Json) : Json :=
  .record [
    ("device_code", .str (text device)),
    ("payload_json", .str (text "\x7b\x7d")),
    ("qc_results", .arr results),
    ("raw_file_id", .str (text "1")),
    ("record_time", .str (text time)),
    ("station_code", .str (text "S1"))]

/-- A rule result of a report, as it arrives. -/
def resultBody (level result message : String) : Json :=
  .record [
    ("level", .str (text level)),
    ("message", .str (text message)),
    ("qc_rule_id", .str (text "1")),
    ("result", .str (text result))]

/-- A report whose error summary holds a zero byte, as it arrives. -/
def cutReportBody : Json :=
  .record [
    ("error_summary", .str (text "disk\x00full")),
    ("failed_files", .arr [.record [
      ("message", .str (text "line 2: quote is not closed")),
      ("original_name", .str (text "b.csv")),
      ("source_path", .str (text "/data/b.csv")),
      ("stage", .str (text "parse"))]]),
    ("finished_at", .str (text "2024-05-01T08:01:00Z")),
    ("idempotency_key", .str (text "report-1")),
    ("items_failed", .int 1),
    ("items_success", .int 2),
    ("items_total", .int 3),
    ("node_code", .str (text "lab-node")),
    ("parsed_records", .arr [
      rowBody "D1" "2024-05-01T08:00:00Z" [resultBody "warning" "failed" "value is missing"],
      rowBody "D2" "2024-05-01T08:00:10Z" [resultBody "info" "passed" "ok",
        resultBody "error" "failed" "value is out of range"]]),
    ("status", .str (text "failed")),
    ("task_run_id", .str (text "1"))]

/-- The report that such a body is. -/
def cutReport : TaskRunReportRequest :=
  { fullReport with errorSummary := text "disk\x00full" }

/-- The report is accepted as new, and its run keeps the summary up to the zero byte only. -/
theorem not_report_faithful :
    Reachable Reference.runtime (Reference.ruledAfter Reference.startedCalls) ∧
      AgentReportHttp.parseTaskRunReport Reference.jsonCpp cutReportBody = .ok cutReport ∧
      ((acceptTaskRunReport Reference.runtime cutReport).execute Reference.runtime.postgres
        (.first Reference.now) (Reference.ruledAfter Reference.startedCalls)).1 =
          .ok ⟨[text "1", text "2"], [text "1", text "2", text "3"], [text "1", text "2"], false⟩ ∧
      ¬FaithfulReport Reference.runtime cutReport
        ⟨[text "1", text "2"], [text "1", text "2", text "3"], [text "1", text "2"], false⟩
        (Reference.ruledAfter Reference.startedCalls)
        ((acceptTaskRunReport Reference.runtime cutReport).execute Reference.runtime.postgres
          (.first Reference.now) (Reference.ruledAfter Reference.startedCalls)).2 := by
  have hanswer : ((acceptTaskRunReport Reference.runtime cutReport).execute
      Reference.runtime.postgres (.first Reference.now) (Reference.ruledAfter Reference.startedCalls)).1 =
      .ok ⟨[text "1", text "2"], [text "1", text "2", text "3"], [text "1", text "2"], false⟩ := by
    decide +kernel
  refine ⟨Reference.reachable_ruledAfter _, by decide +kernel, hanswer, fun hfaithful => ?_⟩
  obtain ⟨run, hrun, ⟨parts⟩⟩ := reportParts_of_execute (Tx.execute_of_answer hanswer) rfl
  have huncut := uncut_of_faithful readsBack_reference hrun parts hfaithful
  exact huncut.errorSummary (by decide +kernel)

end LabBridge.Server
