import LabBridge.Server.Effects
import LabBridge.Server.AgentReportService

/-!
# Evidence belongs to the run it is stored for

Every insert of a raw file, parsed row, rule result or alert names a run, directly or
through the parsed row it hangs on. The loops of the acceptance services therefore only
grow the evidence of the run of their request.
-/

namespace LabBridge.Server

open ByteText LabBridge.Core Storage

variable {pg : Postgres} {session : Session} {db db' : Database}

/-- The run an insert is for is stored, under the named key and node. -/
theorem ownRun_eq_some {taskRunId : Option RowId} {nodeCode : Bytes} {run : TaskRunRow}
    (h : db.ownRun taskRunId nodeCode = some run) :
    taskRunId = some run.id ∧ run ∈ db.taskRuns.rows ∧ run.nodeCode = nodeCode := by
  obtain ⟨hfind, hnode⟩ := Option.filter_eq_some_iff.mp h
  obtain ⟨hid, hmem⟩ := find_of_param hfind
  exact ⟨hid, hmem, by simpa using hnode⟩

/-- A raw file is stored for the run that its record names, or not at all. -/
theorem insertRawFile_stores {record : RawFileRecord} {answer : Option Bytes}
    (h : db.insertRawFile pg record = .ok (answer, db')) :
    (answer = none ∧ db' = db) ∨
      ∃ file rawFiles, answer = some (decimal (file : RawFileRow).id) ∧
        pg.idParam record.taskRunId = .ok (some file.taskRunId) ∧
        db' = { db with rawFiles := rawFiles } ∧ rawFiles.rows = db.rawFiles.rows ++ [file] := by
  simp only [Database.insertRawFile, Answer.bind_eq_ok] at h
  obtain ⟨taskRunId, hid, nodeCode, -, originalName, -, fileHash, -, storagePath, -, sourceMtime,
    -, ingestStatus, -, h⟩ := h
  split at h
  · cases h
    exact .inl ⟨rfl, rfl⟩
  · rename_i run hrun
    obtain ⟨rfl, -, -⟩ := ownRun_eq_some hrun
    simp only [Answer.bind_eq_ok, stored_eq_ok] at h
    obtain ⟨⟨key, rawFiles⟩, hinsert, h⟩ := h
    obtain ⟨-, hrows, -⟩ := SerialTable.insert_eq_ok hinsert
    cases h
    exact .inr ⟨_, rawFiles, rfl, hid, rfl, hrows⟩

/-- Storing a raw file grows the evidence of its run. -/
theorem insertRawFile_ok {record : RawFileRecord} {id : Bytes}
    (h : db.insertRawFile pg record = .ok (some id, db')) :
    ∃ file, id = decimal (file : RawFileRow).id ∧
      pg.idParam record.taskRunId = .ok (some file.taskRunId) ∧
      db'.rawFiles.rows = db.rawFiles.rows ++ [file] ∧
      EvidenceGrows file.taskRunId db db' := by
  obtain ⟨hnone, -⟩ | ⟨file, rawFiles, hid, hrun, rfl, hrows⟩ := insertRawFile_stores h
  · cases hnone
  · exact ⟨file, Option.some.inj hid, hrun, hrows, { EvidenceGrows.refl db with
      rawFiles := ⟨_, hrows, by simp⟩ }⟩

/-- A parsed row is stored for the run that its record names, or not at all. -/
theorem insertParsedRecord_stores {record : ParsedRecordRecord} {answer : Option Bytes}
    (h : db.insertParsedRecord pg record = .ok (answer, db')) :
    (answer = none ∧ db' = db) ∨
      ∃ parsed parsedRecords, answer = some (decimal (parsed : ParsedRecordRow).id) ∧
        pg.idParam record.taskRunId = .ok (some parsed.taskRunId) ∧
        db' = { db with parsedRecords := parsedRecords } ∧
        parsedRecords.rows = db.parsedRecords.rows ++ [parsed] := by
  simp only [Database.insertParsedRecord, Answer.bind_eq_ok] at h
  obtain ⟨rawFileId, -, taskRunId, hid, stationCode, -, deviceCode, -, recordTime, -,
    payloadJson, -, parseStatus, -, h⟩ := h
  split at h
  · cases h
    exact .inl ⟨rfl, rfl⟩
  · rename_i file hfile
    obtain ⟨-, hown⟩ := Option.filter_eq_some_iff.mp hfile
    obtain ⟨hrun, -⟩ : some file.taskRunId = taskRunId ∧ _ := by simpa using hown
    subst hrun
    simp only [Answer.bind_eq_ok, stored_eq_ok] at h
    obtain ⟨⟨key, parsedRecords⟩, hinsert, h⟩ := h
    obtain ⟨-, hrows, -⟩ := SerialTable.insert_eq_ok hinsert
    cases h
    exact .inr ⟨_, parsedRecords, rfl, hid, rfl, hrows⟩

/-- Storing a parsed row grows the evidence of the run of its raw file. -/
theorem insertParsedRecord_ok {record : ParsedRecordRecord} {id : Bytes}
    (h : db.insertParsedRecord pg record = .ok (some id, db')) :
    ∃ parsed, id = decimal (parsed : ParsedRecordRow).id ∧
      pg.idParam record.taskRunId = .ok (some parsed.taskRunId) ∧
      db'.parsedRecords.rows = db.parsedRecords.rows ++ [parsed] ∧
      EvidenceGrows parsed.taskRunId db db' := by
  obtain ⟨hnone, -⟩ | ⟨parsed, parsedRecords, hid, hrun, rfl, hrows⟩ := insertParsedRecord_stores h
  · cases hnone
  · exact ⟨parsed, Option.some.inj hid, hrun, hrows, { EvidenceGrows.refl db with
      parsedRecords := ⟨_, hrows, by simp⟩
      qcResults := ⟨[], by simp⟩ }⟩

/-- A rule result is stored for the parsed row that its record names. -/
theorem insertQcResult_stores {record : QcResultRecord} {answer : Option Bytes}
    (h : db.insertQcResult pg record = .ok (answer, db')) :
    ∃ result qcResults, answer = some (decimal (result : QcResultRow).id) ∧
      db' = { db with qcResults := qcResults } ∧
      qcResults.rows = db.qcResults.rows ++ [result] ∧
      ∃ parsed ∈ db.parsedRecords.rows,
        pg.idParam record.parsedRecordId = .ok (some parsed.id) ∧
        result.parsedRecordId = parsed.id := by
  simp only [Database.insertQcResult, Answer.bind_eq_ok] at h
  obtain ⟨parsedRecordId, hid, qcRuleId, -, level, -, result, -, message, -, h⟩ := h
  split at h
  · rename_i parsed rule hparsed hrule
    obtain ⟨rfl, hmem⟩ := find_of_param hparsed
    simp only [Answer.bind_eq_ok, stored_eq_ok] at h
    obtain ⟨⟨key, qcResults⟩, hinsert, h⟩ := h
    obtain ⟨-, hrows, -⟩ := SerialTable.insert_eq_ok hinsert
    cases h
    exact ⟨_, qcResults, rfl, rfl, hrows, parsed, hmem, hid, rfl⟩
  · cases h

/-- Storing a rule result grows the evidence of the run of its parsed row. -/
theorem insertQcResult_ok {record : QcResultRecord} {id : Bytes}
    (h : db.insertQcResult pg record = .ok (some id, db')) :
    ∃ result, id = decimal (result : QcResultRow).id ∧
      db'.qcResults.rows = db.qcResults.rows ++ [result] ∧
      ∃ parsed ∈ db.parsedRecords.rows,
        pg.idParam record.parsedRecordId = .ok (some parsed.id) ∧
        result.parsedRecordId = parsed.id ∧ EvidenceGrows parsed.taskRunId db db' := by
  obtain ⟨result, qcResults, hid, rfl, hrows, parsed, hmem, hparam, hrow⟩ :=
    insertQcResult_stores h
  refine ⟨result, Option.some.inj hid, hrows, parsed, hmem, hparam, hrow,
    { EvidenceGrows.refl db with qcResults := ⟨_, hrows, ?_⟩ }⟩
  intro stored hstored
  rw [List.mem_singleton.mp hstored]
  exact ⟨parsed, hmem, hrow.symm, rfl⟩

/-- A text that names a key is not empty. -/
theorem nullableIdParam_of_idParam {value : Bytes} {id : Option RowId}
    (h : pg.idParam value = .ok id) : pg.nullableIdParam value = .ok (some id) := by
  simp only [Postgres.idParam, Answer.bind_eq_ok, Answer.pure_eq_ok, accepted_eq_ok] at h
  obtain ⟨received, hreceived, number, hnumber, hid⟩ := h
  have hne : received ≠ [] := by
    rintro rfl
    rw [pg.bigint_empty] at hnumber
    cases hnumber
  cases hid
  simp [Postgres.nullableIdParam, hreceived, hne, hnumber]

/-- An alert is stored, for the run that its record names if it names one, or not at all. -/
theorem insertAlert_stores {record : AlertRecord} {answer : Option Bytes}
    (h : db.insertAlert pg record = .ok (answer, db')) :
    (answer = none ∧ db' = db) ∨
      ∃ alert alerts, answer = some (decimal (alert : AlertRow).id) ∧
        (∀ run, pg.idParam record.taskRunId = .ok (some run) → alert.taskRunId = some run) ∧
        db' = { db with alerts := alerts } ∧ alerts.rows = db.alerts.rows ++ [alert] := by
  simp only [Database.insertAlert, Answer.bind_eq_ok] at h
  obtain ⟨nodeCode, -, taskRunId, hid, alertType, -, severity, -, message, -, status, -, h⟩ := h
  have hstore {node : NodeRow} {owner : Option RowId}
      (howner : ∀ run, pg.idParam record.taskRunId = .ok (some run) → owner = some run)
      (h : Database.insertAlert.store db node owner alertType severity message status =
        .ok (answer, db')) :
      ∃ alert alerts, answer = some (decimal (alert : AlertRow).id) ∧
        (∀ run, pg.idParam record.taskRunId = .ok (some run) → alert.taskRunId = some run) ∧
        db' = { db with alerts := alerts } ∧ alerts.rows = db.alerts.rows ++ [alert] := by
    simp only [Database.insertAlert.store, Answer.bind_eq_ok, stored_eq_ok] at h
    obtain ⟨⟨key, alerts⟩, hinsert, h⟩ := h
    obtain ⟨-, hrows, -⟩ := SerialTable.insert_eq_ok hinsert
    cases h
    exact ⟨_, alerts, rfl, howner, rfl, hrows⟩
  split at h
  · cases h
    exact .inl ⟨rfl, rfl⟩
  · split at h
    · refine .inr (hstore (fun run hrun => ?_) h)
      rw [nullableIdParam_of_idParam hrun] at hid
      cases hid
    · split at h
      · cases h
        exact .inl ⟨rfl, rfl⟩
      · rename_i stored hstored
        obtain ⟨hstoredId, -, -⟩ := ownRun_eq_some hstored
        refine .inr (hstore (fun run hrun => ?_) h)
        rw [nullableIdParam_of_idParam hrun] at hid
        cases hid
        exact hstoredId.symm

/-- Storing an alert for a run grows its evidence. -/
theorem insertAlert_ok {record : AlertRecord} {id : Bytes} {run : RowId}
    (hrun : pg.idParam record.taskRunId = .ok (some run))
    (h : db.insertAlert pg record = .ok (some id, db')) :
    ∃ alert, id = decimal (alert : AlertRow).id ∧ alert.taskRunId = some run ∧
      db'.alerts.rows = db.alerts.rows ++ [alert] ∧ EvidenceGrows run db db' := by
  obtain ⟨hnone, -⟩ | ⟨alert, alerts, hid, hown, rfl, hrows⟩ := insertAlert_stores h
  · cases hnone
  · refine ⟨alert, Option.some.inj hid, hown run hrun, hrows, { EvidenceGrows.refl db with
      alerts := ⟨_, hrows, ?_⟩ }⟩
    intro stored hstored
    rw [List.mem_singleton.mp hstored, hown run hrun]

/-- A registered file belongs to the run its request names. -/
theorem recordRawFile_yields {record : RawFileRecord} {id : Bytes}
    (h : Tx.Yields pg session (ResultService.recordRawFile record) db id db') :
    ∃ file, id = decimal (file : RawFileRow).id ∧
      pg.idParam record.taskRunId = .ok (some file.taskRunId) ∧
      db'.rawFiles.rows = db.rawFiles.rows ++ [file] ∧
      EvidenceGrows file.taskRunId db db' := by
  simp only [ResultService.recordRawFile, Tx.yields_unless_refuse, Tx.yields_sql_bind,
    Statement.exec, Statement.reading_eq_ok] at h
  obtain ⟨-, -, -, -, answer, mid, ⟨-, rfl⟩, h⟩ := h
  cases answer with
  | none => simp at h
  | some run =>
    simp only [Tx.yields_unless_refuse, Tx.yields_sql_bind, Statement.exec] at h
    obtain ⟨-, stored, mid, hinsert, h⟩ := h
    cases stored with
    | none => simp at h
    | some stored =>
      obtain ⟨rfl, rfl⟩ := Tx.yields_pure.mp h
      have hfile := insertRawFile_ok hinsert
      exact hfile

/-- A stored parsed row belongs to the run its request names. -/
theorem recordParsedRecord_yields {request : ParsedRecordRecord} {file : RawFileRecord}
    {id : Bytes}
    (h : Tx.Yields pg session (ResultService.recordParsedRecord request file) db id db') :
    ∃ parsed, id = decimal (parsed : ParsedRecordRow).id ∧
      pg.idParam request.taskRunId = .ok (some parsed.taskRunId) ∧
      db'.parsedRecords.rows = db.parsedRecords.rows ++ [parsed] ∧
      EvidenceGrows parsed.taskRunId db db' := by
  simp only [ResultService.recordParsedRecord, Tx.yields_unless_refuse, Tx.yields_sql_bind,
    Statement.exec] at h
  obtain ⟨-, -, -, -, answer, mid, hinsert, h⟩ := h
  cases answer with
  | none => simp at h
  | some stored =>
    obtain ⟨rfl, rfl⟩ := Tx.yields_pure.mp h
    have hparsed := insertParsedRecord_ok hinsert
    exact hparsed

/-- A stored rule result hangs on a parsed row and carries its new identifier. -/
theorem recordResult_yields {record stored : QcResultRecord}
    (h : Tx.Yields pg session (QcService.recordResult record) db stored db') :
    ∃ result, stored = { record with id := decimal (result : QcResultRow).id } ∧
      db'.qcResults.rows = db.qcResults.rows ++ [result] ∧
      ∃ parsed ∈ db.parsedRecords.rows,
        pg.idParam record.parsedRecordId = .ok (some parsed.id) ∧
        EvidenceGrows parsed.taskRunId db db' := by
  simp only [QcService.recordResult, Tx.yields_unless_refuse, Tx.yields_sql_bind,
    Statement.exec] at h
  obtain ⟨-, -, -, -, answer, mid, hinsert, h⟩ := h
  cases answer with
  | none => simp at h
  | some id =>
    obtain ⟨rfl, rfl⟩ := Tx.yields_pure.mp h
    obtain ⟨result, rfl, hrows, parsed, hmem, hparam, -, hgrows⟩ := insertQcResult_ok hinsert
    exact ⟨result, rfl, hrows, parsed, hmem, hparam, hgrows⟩

/-- An alert is stored for the run it is raised for, or not at all. -/
theorem createAlert_yields {result : QcResultRecord} {taskRunId nodeCode id : Bytes}
    {run : RowId} (hrun : pg.idParam taskRunId = .ok (some run))
    (h : Tx.Yields pg session (AlertService.createAlert result taskRunId nodeCode) db id db') :
    (id = [] ∨ ∃ key : RowId, id = decimal key) ∧ EvidenceGrows run db db' := by
  unfold AlertService.createAlert at h
  split at h
  · obtain ⟨rfl, rfl⟩ := Tx.yields_pure.mp h
    exact ⟨.inl rfl, .refl _⟩
  · obtain ⟨answer, mid, hinsert, h⟩ := Tx.yields_sql_bind.mp h
    cases answer with
    | none => simp at h
    | some stored =>
      obtain ⟨rfl, rfl⟩ := Tx.yields_pure.mp h
      obtain ⟨alert, rfl, -, -, hgrows⟩ := insertAlert_ok hrun hinsert
      exact ⟨.inr ⟨_, rfl⟩, hgrows⟩

/-- Texts that are numerals of serial keys. -/
def AreIds (ids : List Bytes) : Prop := ∀ id ∈ ids, ∃ key : RowId, id = decimal key

/-- No identifiers are identifiers. -/
@[simp] theorem areIds_nil : AreIds [] := by simp [AreIds]

/-- Two lists of identifiers make one. -/
theorem AreIds.append {first second : List Bytes} (h₁ : AreIds first) (h₂ : AreIds second) :
    AreIds (first ++ second) := by
  intro id hid
  rcases List.mem_append.mp hid with h | h
  · exact h₁ id h
  · exact h₂ id h

/-- One identifier is a list of identifiers. -/
theorem areIds_singleton (key : RowId) : AreIds [decimal key] := by
  intro id hid
  exact ⟨key, List.mem_singleton.mp hid⟩

namespace AgentReportService

/-- The files of a manifest are stored for the run it names. -/
theorem recordFiles_yields {request : RawFileManifestRequest} {run : RowId}
    (hrun : pg.idParam request.taskRunId = .ok (some run)) {files : List RawFileManifestEntry}
    {ids : List Bytes} (h : Tx.Yields pg session (recordFiles request files) db ids db') :
    AreIds ids ∧ EvidenceGrows run db db' := by
  induction files generalizing db ids with
  | nil =>
    obtain ⟨rfl, rfl⟩ := Tx.yields_pure.mp h
    exact ⟨areIds_nil, .refl _⟩
  | cons file rest ih =>
    simp only [recordFiles, Tx.yields_bind] at h
    obtain ⟨id, mid, hfile, others, mid', hrest, h⟩ := h
    obtain ⟨rfl, rfl⟩ := Tx.yields_pure.mp h
    obtain ⟨stored, rfl, hstored, -, hgrows⟩ := recordRawFile_yields hfile
    rw [hrun] at hstored
    cases hstored
    obtain ⟨hids, hothers⟩ := ih hrest
    exact ⟨(areIds_singleton stored.id).append hids, hgrows.trans hothers⟩

/-- The identifiers a report has collected so far are numerals of keys. -/
def Created.Valid (created : Created) : Prop :=
  AreIds created.parsedRecordIds ∧ AreIds created.qcResultIds ∧ AreIds created.alertIds

/-- The rule results of a parsed row are stored for its run, with their alerts. -/
theorem recordQcResults_yields {request : TaskRunReportRequest} {run : RowId}
    (hrun : pg.idParam request.taskRunId = .ok (some run)) {parsed : ParsedRecordRow}
    (hparsed : parsed ∈ db.parsedRecords.rows) (hown : parsed.taskRunId = run)
    {results : List TaskRunReportQcResult} {created final : Created} (hvalid : created.Valid)
    (h : Tx.Yields pg session (recordQcResults request (decimal parsed.id) results created)
      db final db') : final.Valid ∧ EvidenceGrows run db db' := by
  induction results generalizing db created with
  | nil =>
    obtain ⟨rfl, rfl⟩ := Tx.yields_pure.mp h
    exact ⟨hvalid, .refl _⟩
  | cons qc rest ih =>
    simp only [recordQcResults, Tx.yields_bind] at h
    obtain ⟨stored, mid, hresult, alertId, mid', halert, h⟩ := h
    obtain ⟨result, rfl, -, owner, howner, hownerId, hgrows⟩ := recordResult_yields hresult
    simp only [Postgres.idParam_decimal, Except.ok.injEq, Option.some.injEq] at hownerId
    obtain rfl := SerialTable.eq_of_key_eq hparsed howner hownerId
    rw [hown] at hgrows
    obtain ⟨hid, halertGrows⟩ := createAlert_yields hrun halert
    have hcreated : Created.Valid { created with
        qcResultIds := created.qcResultIds ++ [decimal result.id]
        alertIds := created.alertIds ++ if alertId = [] then [] else [alertId] } := by
      refine ⟨hvalid.1, hvalid.2.1.append (areIds_singleton result.id), hvalid.2.2.append ?_⟩
      rcases hid with rfl | ⟨key, rfl⟩
      · simp
      · simpa using areIds_singleton key
    obtain ⟨hfinal, hrest⟩ := ih (halertGrows.mem_parsedRecords (hgrows.mem_parsedRecords hparsed))
      hcreated h
    exact ⟨hfinal, hgrows.trans (halertGrows.trans hrest)⟩

/-- Finding the raw file of a parsed row changes nothing. -/
theorem verifyRawFile_reads (request : TaskRunReportRequest)
    (verified : List (Bytes × RawFileRecord)) (rawFileId : Bytes) :
    (verifyRawFile request verified rawFileId).Calls fun _ => Statement.IsRead := by
  unfold verifyRawFile
  split
  · trivial
  · refine Interaction.Program.Calls.bind ?_ fun answer => ?_
    · unfold ResultService.findRawFile
      split
      · trivial
      · exact Tx.calls_sql.mpr trivial
    · cases answer with
      | none => trivial
      | some file => simp only; split <;> trivial

/-- The parsed rows of a report are stored for the run it names. -/
theorem recordParsedRecords_yields {request : TaskRunReportRequest} {run : RowId}
    (hrun : pg.idParam request.taskRunId = .ok (some run))
    {records : List TaskRunReportParsedRecord} {verified : List (Bytes × RawFileRecord)}
    {created final : Created} (hvalid : created.Valid)
    (h : Tx.Yields pg session (recordParsedRecords request records verified created)
      db final db') : final.Valid ∧ EvidenceGrows run db db' := by
  induction records generalizing db verified created with
  | nil =>
    obtain ⟨rfl, rfl⟩ := Tx.yields_pure.mp h
    exact ⟨hvalid, .refl _⟩
  | cons parsed rest ih =>
    simp only [recordParsedRecords, Tx.yields_bind] at h
    obtain ⟨file, mid, hfile, id, mid₁, hparsed, created₁, mid₂, hresults, h⟩ := h
    obtain rfl := hfile.eq_of_reads (verifyRawFile_reads _ _ _)
    obtain ⟨stored, rfl, hstored, hrows, hgrows⟩ := recordParsedRecord_yields hparsed
    rw [hrun] at hstored
    cases hstored
    have hcreated : Created.Valid { created with
        parsedRecordIds := created.parsedRecordIds ++ [decimal stored.id] } :=
      ⟨hvalid.1.append (areIds_singleton stored.id), hvalid.2⟩
    obtain ⟨hvalid₁, hresultGrows⟩ := recordQcResults_yields hrun (by rw [hrows]; simp) rfl
      hcreated hresults
    obtain ⟨hfinal, hrest⟩ := ih hvalid₁ h
    exact ⟨hfinal, hgrows.trans (hresultGrows.trans hrest)⟩

end AgentReportService

end LabBridge.Server
