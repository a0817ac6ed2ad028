import LabBridge.Server.ReportStores

/-!
# The rows of an accepted report

Each item of a report becomes one row that refers to what the item names: a parsed row to a raw
file of the run, a rule result to its parsed row and to an enabled rule, and an alert to the run
and its node. The loops of the service add these rows in the order of the report.
-/

namespace LabBridge.Server

open ByteText LabBridge.Core Storage Interaction AgentReportService

variable {R : Runtime} {pg : Postgres} {session : Session} {db db' : Database}

/-- A stored rule result whose level or result is `warning` or `failed`. -/
def QcResultRow.callsForAlert (result : QcResultRow) : Bool :=
  AlertService.isAlertLevel result.level || AlertService.isAlertLevel result.result

/-- A reported rule result whose level or result is `warning` or `failed`. -/
def TaskRunReportQcResult.callsForAlert (qc : TaskRunReportQcResult) : Bool :=
  AlertService.isAlertLevel qc.level || AlertService.isAlertLevel qc.result

/-- A stored rule that an identifier names and that is enabled. -/
structure EnabledRule (pg : Postgres) (qcRuleId : Bytes) (rule : QcRuleRow) : Prop where
  named : pg.idParam qcRuleId = .ok (some rule.id)
  enabled : rule.enabled = true

/-- An alert of a run and its node for a stored rule result, with one of its texts as the
severity. -/
structure AlertFor (run : TaskRunRow) (result : QcResultRow) (alert : AlertRow) : Prop where
  taskRunId : alert.taskRunId = some run.id
  nodeCode : alert.nodeCode = run.nodeCode
  alertType : alert.alertType = text "qc_result"
  severity : alert.severity = result.level ∨ alert.severity = result.result

/-- A stored rule result with the alert that was raised for it, if any. -/
abbrev ResultRows := QcResultRow × Option AlertRow

/-- The rows of a reported rule result: the result refers to its parsed row and to an enabled
rule and holds the texts as they arrived, and an alert is raised when the report calls for one. -/
structure StoredResult (pg : Postgres) (rules : List QcRuleRow) (run : TaskRunRow)
    (parsed : ParsedRecordRow) (qc : TaskRunReportQcResult) (rows : ResultRows) : Prop where
  owner : rows.1.parsedRecordId = parsed.id
  rule : ∃ rule ∈ rules, EnabledRule pg qc.qcRuleId rule ∧ rows.1.qcRuleId = rule.id
  level : pg.varcharParam 32 qc.level = .ok rows.1.level
  result : pg.varcharParam 32 qc.result = .ok rows.1.result
  message : pg.textParam qc.message = .ok rows.1.message
  raised : rows.2.isSome = qc.callsForAlert
  alert : ∀ alert ∈ rows.2, AlertFor run rows.1 alert

/-- A stored parsed row with the rows of its rule results. -/
abbrev RecordRows := ParsedRecordRow × List ResultRows

/-- The rows of a reported parsed row: it refers to the raw file the report names, which belongs
to the run, and its rule results follow in order. -/
structure StoredRecord (pg : Postgres) (files : List RawFileRow) (rules : List QcRuleRow)
    (run : TaskRunRow) (parsed : TaskRunReportParsedRecord) (rows : RecordRows) : Prop where
  owner : rows.1.taskRunId = run.id
  file : ∃ file ∈ files, pg.idParam parsed.rawFileId = .ok (some file.id) ∧
    file.taskRunId = run.id ∧ rows.1.rawFileId = file.id
  results : List.Forall₂ (StoredResult pg rules run rows.1) parsed.qcResults rows.2

/-- The alerts raised for some rule results, in order. -/
def raisedAlerts (rows : List ResultRows) : List AlertRow := rows.filterMap Prod.snd

/-- All rule results of some parsed rows, in order. -/
def resultRows (rows : List RecordRows) : List ResultRows := rows.flatMap Prod.snd

/-- Rows were added, and nothing that they refer to changed. -/
structure Adds (before after : Database) (parsed : List ParsedRecordRow)
    (results : List QcResultRow) (alerts : List AlertRow) : Prop where
  taskRuns : after.taskRuns = before.taskRuns
  rawFiles : after.rawFiles = before.rawFiles
  qcRules : after.qcRules = before.qcRules
  parsedRecords : after.parsedRecords.rows = before.parsedRecords.rows ++ parsed
  qcResults : after.qcResults.rows = before.qcResults.rows ++ results
  alerts : after.alerts.rows = before.alerts.rows ++ alerts

/-- Adding nothing. -/
theorem Adds.refl (db : Database) : Adds db db [] [] [] := by
  constructor <;> simp

/-- Adding rows after rows. -/
theorem Adds.trans {first second third : Database} {parsed parsed' : List ParsedRecordRow}
    {results results' : List QcResultRow} {alerts alerts' : List AlertRow}
    (h₁ : Adds first second parsed results alerts)
    (h₂ : Adds second third parsed' results' alerts') :
    Adds first third (parsed ++ parsed') (results ++ results') (alerts ++ alerts') where
  taskRuns := h₂.taskRuns.trans h₁.taskRuns
  rawFiles := h₂.rawFiles.trans h₁.rawFiles
  qcRules := h₂.qcRules.trans h₁.qcRules
  parsedRecords := by rw [h₂.parsedRecords, h₁.parsedRecords, List.append_assoc]
  qcResults := by rw [h₂.qcResults, h₁.qcResults, List.append_assoc]
  alerts := by rw [h₂.alerts, h₁.alerts, List.append_assoc]

/-- A rule read by its identifier is stored under it. -/
theorem selectRule_ok {qcRuleId : Bytes} {record : QcRuleRecord}
    (h : db.selectRule pg qcRuleId = .ok (some record)) :
    ∃ rule ∈ db.qcRules.rows, pg.idParam qcRuleId = .ok (some rule.id) ∧
      record.enabled = rule.enabled := by
  simp only [Database.selectRule, Answer.bind_eq_ok, Answer.pure_eq_ok] at h
  obtain ⟨id, hid, hanswer⟩ := h
  rcases hfind : id.bind db.qcRules.find? with _ | rule
  · rw [hfind] at hanswer
    cases hanswer
  · obtain ⟨rfl, hmem⟩ := find_of_param hfind
    rw [hfind] at hanswer
    cases hanswer
    exact ⟨rule, hmem, hid, rfl⟩

/-- Storing a parsed row adds one row that refers to the named file of the named run. -/
theorem insertParsedRecord_adds {record : ParsedRecordRecord} {id : Bytes}
    (h : db.insertParsedRecord pg record = .ok (some id, db')) :
    ∃ parsed, id = decimal (parsed : ParsedRecordRow).id ∧
      pg.idParam record.taskRunId = .ok (some parsed.taskRunId) ∧
      (∃ file ∈ db.rawFiles.rows, pg.idParam record.rawFileId = .ok (some file.id) ∧
        file.taskRunId = parsed.taskRunId ∧ parsed.rawFileId = file.id) ∧
      Adds db db' [parsed] [] [] := by
  simp only [Database.insertParsedRecord, Answer.bind_eq_ok] at h
  obtain ⟨rawFileId, hfileId, taskRunId, hid, stationCode, -, deviceCode, -, recordTime, -,
    payloadJson, -, parseStatus, -, h⟩ := h
  split at h
  · cases h
  · rename_i file hfile
    obtain ⟨hfound, hown⟩ := Option.filter_eq_some_iff.mp hfile
    obtain ⟨rfl, hmem⟩ := find_of_param hfound
    obtain ⟨rfl, -⟩ : some file.taskRunId = taskRunId ∧ _ := by simpa using hown
    simp only [Answer.bind_eq_ok, stored_eq_ok] at h
    obtain ⟨⟨key, parsedRecords⟩, hinsert, h⟩ := h
    obtain ⟨-, hrows, -⟩ := SerialTable.insert_eq_ok hinsert
    cases h
    exact ⟨_, rfl, hid, ⟨file, hmem, hfileId, rfl, rfl⟩,
      { Adds.refl db with parsedRecords := hrows }⟩

/-- Storing a rule result adds one row that refers to the named parsed row and rule. -/
theorem insertQcResult_adds {record : QcResultRecord} {id : Bytes}
    (h : db.insertQcResult pg record = .ok (some id, db')) :
    ∃ result, id = decimal (result : QcResultRow).id ∧
      pg.idParam record.parsedRecordId = .ok (some result.parsedRecordId) ∧
      pg.idParam record.qcRuleId = .ok (some result.qcRuleId) ∧
      pg.varcharParam 32 record.level = .ok result.level ∧
      pg.varcharParam 32 record.result = .ok result.result ∧
      pg.textParam record.message = .ok result.message ∧ Adds db db' [] [result] [] := by
  simp only [Database.insertQcResult, Answer.bind_eq_ok] at h
  obtain ⟨parsedRecordId, hid, qcRuleId, hruleId, level, hlevel, result, hresult, message,
    hmessage, h⟩ := h
  split at h
  · rename_i parsed rule hparsed hrule
    obtain ⟨rfl, -⟩ := find_of_param hparsed
    obtain ⟨rfl, -⟩ := find_of_param hrule
    simp only [Answer.bind_eq_ok, stored_eq_ok] at h
    obtain ⟨⟨key, qcResults⟩, hinsert, h⟩ := h
    obtain ⟨-, hrows, -⟩ := SerialTable.insert_eq_ok hinsert
    cases h
    exact ⟨_, rfl, hid, hruleId, hlevel, hresult, hmessage,
      { Adds.refl db with qcResults := hrows }⟩
  · cases h

/-- Storing an alert for a run adds one alert of the run and its node. -/
theorem insertAlert_adds {record : AlertRecord} {id : Bytes} {run : TaskRunRow}
    (hmem : run ∈ db.taskRuns.rows) (hrun : pg.idParam record.taskRunId = .ok (some run.id))
    (h : db.insertAlert pg record = .ok (some id, db')) :
    ∃ alert, id = decimal (alert : AlertRow).id ∧ alert.taskRunId = some run.id ∧
      alert.nodeCode = run.nodeCode ∧ pg.varcharParam 64 record.alertType = .ok alert.alertType ∧
      pg.varcharParam 32 record.severity = .ok alert.severity ∧ Adds db db' [] [] [alert] := by
  simp only [Database.insertAlert, Answer.bind_eq_ok] at h
  obtain ⟨nodeCode, -, taskRunId, hid, alertType, htype, severity, hseverity, message, -, status, -,
    h⟩ := h
  rw [nullableIdParam_of_idParam hrun] at hid
  cases hid
  split at h
  · cases h
  · rename_i node hnode
    simp only at h
    split at h
    · cases h
    · rename_i stored hstored
      obtain ⟨hid, hstoredMem, hstoredNode⟩ := ownRun_eq_some hstored
      have hsame : run.id = stored.id := Option.some.inj hid
      obtain rfl := SerialTable.eq_of_key_eq hmem hstoredMem hsame
      simp only [Database.insertAlert.store, Answer.bind_eq_ok, stored_eq_ok] at h
      obtain ⟨⟨key, alerts⟩, hinsert, h⟩ := h
      obtain ⟨-, hrows, -⟩ := SerialTable.insert_eq_ok hinsert
      cases h
      exact ⟨_, rfl, rfl, hstoredNode.symm, htype, hseverity, { Adds.refl db with alerts := hrows }⟩

/-- Raising an alert adds one exactly when the result calls for it. -/
theorem createAlert_adds {record : QcResultRecord} {result : QcResultRow}
    {taskRunId nodeCode id : Bytes} {run : TaskRunRow} (hmem : run ∈ db.taskRuns.rows)
    (hrun : pg.idParam taskRunId = .ok (some run.id))
    (hlevel : pg.varcharParam 32 record.level = .ok result.level)
    (hresult : pg.varcharParam 32 record.result = .ok result.result)
    (h : Tx.Yields pg session (AlertService.createAlert record taskRunId nodeCode) db id db') :
    ∃ alert : Option AlertRow,
      (if id = [] then [] else [id]) = alert.toList.map (fun alert => decimal alert.id) ∧
      alert.isSome = AlertService.isAlertQcResult record ∧
      (∀ raised ∈ alert, AlertFor run result raised) ∧ Adds db db' [] [] alert.toList := by
  unfold AlertService.createAlert at h
  split at h
  · rename_i hquiet
    obtain ⟨rfl, rfl⟩ := Tx.yields_pure.mp h
    exact ⟨none, by simp, by simpa using hquiet.symm, by simp, .refl _⟩
  · rename_i hcalls
    obtain ⟨answer, mid, hinsert, h⟩ := Tx.yields_sql_bind.mp h
    cases answer with
    | none => simp at h
    | some stored =>
      obtain ⟨rfl, rfl⟩ := Tx.yields_pure.mp h
      obtain ⟨alert, rfl, howner, hnode, htype, hseverity, hadds⟩ :=
        insertAlert_adds hmem hrun hinsert
      have hcalled : AlertService.isAlertQcResult record = true := by simpa using hcalls
      have hfits : pg.varcharParam 64 (text "qc_result") = .ok (text "qc_result") :=
        pg.varcharParam_ascii (by decide +kernel) (by decide +kernel)
      have hkind : alert.alertType = text "qc_result" := Except.ok.inj (htype.symm.trans hfits)
      have hfor : AlertFor run result alert := by
        refine ⟨howner, hnode, hkind, ?_⟩
        simp only [AlertService.alertSeverity] at hseverity
        split at hseverity
        · exact .inl (Except.ok.inj (hseverity.symm.trans hlevel))
        · exact .inr (Except.ok.inj (hseverity.symm.trans hresult))
      exact ⟨some alert, by simp [decimal_ne_nil], hcalled.symm, by simpa using hfor, hadds⟩

namespace AgentReportService

/-- The rules of a report that passes their check are stored and enabled. -/
theorem checkRules_yields {checked ids : List Bytes} {results : List TaskRunReportQcResult}
    (hchecked : ∀ id ∈ checked, ∃ rule ∈ db.qcRules.rows, EnabledRule pg id rule)
    (h : Tx.Yields pg session (checkRules checked results) db ids db') :
    ∀ qc ∈ results, ∃ rule ∈ db.qcRules.rows, EnabledRule pg qc.qcRuleId rule := by
  induction results generalizing checked with
  | nil => simp
  | cons qc rest ih =>
    unfold checkRules at h
    split at h
    · rename_i hseen
      have hknown := hchecked qc.qcRuleId (by simpa using hseen)
      exact List.forall_mem_cons.mpr ⟨hknown, ih hchecked h⟩
    · rw [Tx.yields_bind] at h
      obtain ⟨answer, mid, hfind, h⟩ := h
      unfold QcService.findRule at hfind
      split at hfind
      · obtain ⟨rfl, rfl⟩ := Tx.yields_pure.mp hfind
        simp at h
      · rw [Tx.yields_sql, Statement.exec, Statement.reading_eq_ok] at hfind
        obtain ⟨hselect, rfl⟩ := hfind
        cases answer with
        | none => simp at h
        | some record =>
          simp only [Tx.yields_unless_refuse] at h
          obtain ⟨henabled, h⟩ := h
          obtain ⟨rule, hmem, hid, hsame⟩ := selectRule_ok hselect
          have hrule : ∃ rule ∈ db.qcRules.rows, EnabledRule pg qc.qcRuleId rule :=
            ⟨rule, hmem, hid, hsame ▸ by simpa using henabled⟩
          exact List.forall_mem_cons.mpr
            ⟨hrule, ih (List.forall_mem_cons.mpr ⟨hrule, hchecked⟩) h⟩

/-- The identifiers of some rows after those collected so far. -/
def Created.add (created : Created) (parsed : List ParsedRecordRow) (results : List QcResultRow)
    (alerts : List AlertRow) : Created where
  parsedRecordIds := created.parsedRecordIds ++ parsed.map fun row => decimal row.id
  qcResultIds := created.qcResultIds ++ results.map fun row => decimal row.id
  alertIds := created.alertIds ++ alerts.map fun row => decimal row.id

/-- Adding the identifiers of no rows. -/
@[simp] theorem Created.add_nil (created : Created) : created.add [] [] [] = created := by
  simp [Created.add]

/-- Adding identifiers one after another. -/
theorem Created.add_add (created : Created) (parsed parsed' : List ParsedRecordRow)
    (results results' : List QcResultRow) (alerts alerts' : List AlertRow) :
    (created.add parsed results alerts).add parsed' results' alerts' =
      created.add (parsed ++ parsed') (results ++ results') (alerts ++ alerts') := by
  simp [Created.add]

/-- Recording a rule result adds its row. -/
theorem recordResult_adds {record stored : QcResultRecord}
    (h : Tx.Yields pg session (QcService.recordResult record) db stored db') :
    ∃ result, stored = { record with id := decimal (result : QcResultRow).id } ∧
      pg.idParam record.parsedRecordId = .ok (some result.parsedRecordId) ∧
      pg.idParam record.qcRuleId = .ok (some result.qcRuleId) ∧
      pg.varcharParam 32 record.level = .ok result.level ∧
      pg.varcharParam 32 record.result = .ok result.result ∧
      pg.textParam record.message = .ok result.message ∧ Adds db db' [] [result] [] := by
  simp only [QcService.recordResult, Tx.yields_unless_refuse, Tx.yields_sql_bind,
    Statement.exec] at h
  obtain ⟨-, -, -, -, answer, mid, hinsert, h⟩ := h
  cases answer with
  | none => simp at h
  | some id =>
    obtain ⟨rfl, rfl⟩ := Tx.yields_pure.mp h
    obtain ⟨result, rfl, hrow⟩ := insertQcResult_adds hinsert
    exact ⟨result, rfl, hrow⟩

/-- The rule results of a parsed row are stored in order, each with the alert it calls for. -/
theorem recordQcResults_adds {request : TaskRunReportRequest} {run : TaskRunRow}
    (hmem : run ∈ db.taskRuns.rows) (hrun : pg.idParam request.taskRunId = .ok (some run.id))
    {parsed : ParsedRecordRow} {results : List TaskRunReportQcResult} {created final : Created}
    (hrules : ∀ qc ∈ results, ∃ rule ∈ db.qcRules.rows, EnabledRule pg qc.qcRuleId rule)
    (h : Tx.Yields pg session (recordQcResults request (decimal parsed.id) results created)
      db final db') :
    ∃ rows, final = created.add [] (rows.map Prod.fst) (raisedAlerts rows) ∧
      List.Forall₂ (StoredResult pg db.qcRules.rows run parsed) results rows ∧
      Adds db db' [] (rows.map Prod.fst) (raisedAlerts rows) := by
  induction results generalizing db created with
  | nil =>
    obtain ⟨rfl, rfl⟩ := Tx.yields_pure.mp h
    exact ⟨[], by simp [raisedAlerts], .nil, .refl _⟩
  | cons qc rest ih =>
    simp only [recordQcResults, Tx.yields_bind] at h
    obtain ⟨stored, mid, hresult, alertId, mid', halert, h⟩ := h
    obtain ⟨result, rfl, howner, hruleId, hlevel, houtcome, hmessage, hadds⟩ :=
      recordResult_adds hresult
    obtain ⟨alert, hids, hraised, hfor, halertAdds⟩ :=
      createAlert_adds (hadds.taskRuns ▸ hmem) hrun (by exact hlevel) (by exact houtcome) halert
    have hboth := hadds.trans halertAdds
    have hcollected : ({ created with
        qcResultIds := created.qcResultIds ++ [decimal result.id]
        alertIds := created.alertIds ++ if alertId = [] then [] else [alertId] } : Created) =
        created.add [] [result] alert.toList := by
      simp [Created.add, hids]
    rw [hcollected] at h
    have hrest : ∀ other ∈ rest, ∃ rule ∈ mid'.qcRules.rows, EnabledRule pg other.qcRuleId rule := by
      rw [hboth.qcRules]
      exact (List.forall_mem_cons.mp hrules).2
    obtain ⟨rows, rfl, hstored, hrestAdds⟩ := ih (hboth.taskRuns ▸ hmem) hrest h
    rw [hboth.qcRules] at hstored
    obtain ⟨rule, hrule, henabled⟩ := hrules qc (by simp)
    have hsameRule : rule.id = result.qcRuleId := by
      have hnamed := henabled.named.symm.trans hruleId
      simpa using hnamed
    have hrow : StoredResult pg db.qcRules.rows run parsed qc (result, alert) := {
      owner := by simpa using howner.symm
      rule := ⟨rule, hrule, henabled, hsameRule.symm⟩
      level := hlevel
      result := houtcome
      message := hmessage
      raised := hraised
      alert := hfor }
    have halerts : alert.toList ++ raisedAlerts rows = raisedAlerts ((result, alert) :: rows) := by
      cases alert <;> simp [raisedAlerts]
    have hall := hboth.trans hrestAdds
    simp only [List.nil_append, halerts] at hall
    refine ⟨(result, alert) :: rows, ?_, .cons hrow hstored, hall⟩
    rw [Created.add_add, halerts]
    rfl

/-- Recording a parsed row adds its row. -/
theorem recordParsedRecord_adds {request : ParsedRecordRecord} {file : RawFileRecord} {id : Bytes}
    (h : Tx.Yields pg session (ResultService.recordParsedRecord request file) db id db') :
    ∃ parsed, id = decimal (parsed : ParsedRecordRow).id ∧
      pg.idParam request.taskRunId = .ok (some parsed.taskRunId) ∧
      (∃ file ∈ db.rawFiles.rows, pg.idParam request.rawFileId = .ok (some file.id) ∧
        file.taskRunId = parsed.taskRunId ∧ parsed.rawFileId = file.id) ∧
      Adds db db' [parsed] [] [] := by
  simp only [ResultService.recordParsedRecord, Tx.yields_unless_refuse, Tx.yields_sql_bind,
    Statement.exec] at h
  obtain ⟨-, -, -, -, answer, mid, hinsert, h⟩ := h
  cases answer with
  | none => simp at h
  | some stored =>
    obtain ⟨rfl, rfl⟩ := Tx.yields_pure.mp h
    have hparsed := insertParsedRecord_adds hinsert
    exact hparsed

/-- The parsed rows of a report are stored in order with their rule results and alerts. -/
theorem recordParsedRecords_adds {request : TaskRunReportRequest} {run : TaskRunRow}
    (hmem : run ∈ db.taskRuns.rows) (hrun : pg.idParam request.taskRunId = .ok (some run.id))
    {records : List TaskRunReportParsedRecord} {verified : List (Bytes × RawFileRecord)}
    {created final : Created}
    (hrules : ∀ qc ∈ records.flatMap TaskRunReportParsedRecord.qcResults,
      ∃ rule ∈ db.qcRules.rows, EnabledRule pg qc.qcRuleId rule)
    (h : Tx.Yields pg session (recordParsedRecords request records verified created)
      db final db') :
    ∃ rows, final = created.add (rows.map Prod.fst) ((resultRows rows).map Prod.fst)
        (raisedAlerts (resultRows rows)) ∧
      List.Forall₂ (StoredRecord pg db.rawFiles.rows db.qcRules.rows run) records rows ∧
      Adds db db' (rows.map Prod.fst) ((resultRows rows).map Prod.fst)
        (raisedAlerts (resultRows rows)) := by
  induction records generalizing db verified created with
  | nil =>
    obtain ⟨rfl, rfl⟩ := Tx.yields_pure.mp h
    exact ⟨[], by simp [raisedAlerts, resultRows], .nil, .refl _⟩
  | cons parsed rest ih =>
    simp only [recordParsedRecords, Tx.yields_bind] at h
    obtain ⟨file, mid, hfile, id, mid₁, hparsed, created₁, mid₂, hresults, h⟩ := h
    obtain rfl := hfile.eq_of_reads (verifyRawFile_reads _ _ _)
    obtain ⟨row, rfl, howner, hrefers, hadds⟩ := recordParsedRecord_adds hparsed
    have hsame : row.taskRunId = run.id := by
      have hnamed := howner.symm.trans hrun
      simpa using hnamed
    rw [hsame] at hrefers
    rw [List.flatMap_cons, List.forall_mem_append] at hrules
    obtain ⟨hownRules, hrestRules⟩ := hrules
    obtain ⟨results, rfl, hstored, hresultAdds⟩ :=
      recordQcResults_adds (hadds.taskRuns ▸ hmem) hrun (hadds.qcRules ▸ hownRules) hresults
    have hboth := hadds.trans hresultAdds
    obtain ⟨rows, rfl, hstoreds, hrestAdds⟩ :=
      ih (hboth.taskRuns ▸ hmem) (hboth.qcRules ▸ hrestRules) h
    rw [hboth.rawFiles, hboth.qcRules] at hstoreds
    rw [hadds.qcRules] at hstored
    have hall := hboth.trans hrestAdds
    have hrows : resultRows ((row, results) :: rows) = results ++ resultRows rows := rfl
    refine ⟨(row, results) :: rows, ?_, .cons ⟨hsame, hrefers, hstored⟩ hstoreds, ?_⟩
    · simp [Created.add, hrows, raisedAlerts]
    · simpa [hrows, raisedAlerts] using hall

end AgentReportService

end LabBridge.Server
