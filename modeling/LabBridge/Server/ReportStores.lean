import LabBridge.Server.ReportChecks

/-!
# Storing a report obeys its checks

Each insert of a report obeys the casts and column limits listed for it: the rows it refers
to were read before and are still stored, so no foreign key and no missing row can fail.
-/

namespace LabBridge.Server

open ByteText LabBridge.Core Storage Interaction AgentReportService

variable {R : Runtime} {pg : Postgres} {session : Session} {db db' : Database} {α : Type}
  {rest : List Check}

/-- The tables a report is checked against stay as they are while it is stored. -/
structure Storing (before after : Database) : Prop where
  nodes : after.nodes = before.nodes
  taskRuns : after.taskRuns = before.taskRuns
  rawFiles : after.rawFiles = before.rawFiles
  qcRules : after.qcRules = before.qcRules
  receipts : after.receipts = before.receipts
  parsedRecords : ∀ parsed ∈ before.parsedRecords.rows, parsed ∈ after.parsedRecords.rows

namespace Storing

/-- Storing nothing. -/
theorem refl (db : Database) : Storing db db :=
  ⟨rfl, rfl, rfl, rfl, rfl, fun _ => id⟩

/-- Storing one thing after another. -/
theorem trans {first second third : Database} (h₁ : Storing first second)
    (h₂ : Storing second third) : Storing first third where
  nodes := h₂.nodes.trans h₁.nodes
  taskRuns := h₂.taskRuns.trans h₁.taskRuns
  rawFiles := h₂.rawFiles.trans h₁.rawFiles
  qcRules := h₂.qcRules.trans h₁.qcRules
  receipts := h₂.receipts.trans h₁.receipts
  parsedRecords := fun parsed h => h₂.parsedRecords parsed (h₁.parsedRecords parsed h)

/-- Raw files are read as before. -/
theorem selectRawFile_eq (h : Storing db db') (id : Bytes) :
    db'.selectRawFile pg id = db.selectRawFile pg id := by
  rw [Database.selectRawFile, Database.selectRawFile, h.rawFiles]

/-- Rules are read as before. -/
theorem selectRule_eq (h : Storing db db') (id : Bytes) :
    db'.selectRule pg id = db.selectRule pg id := by
  rw [Database.selectRule, Database.selectRule, h.qcRules]

end Storing

/-- A row of a table without unique indexes is stored unless the counter is exhausted. -/
theorem Answer.obeys_stored {Row : Type} {key : Row → RowId} {table : SerialTable Row key noClash}
    {make : RowId → Row} {keyed : ∀ id, key (make id) = id}
    {blind : ∀ id row, noClash row (make id) = noClash row (make 0)}
    {next : RowId × SerialTable Row key noClash → Answer (α × Database)}
    {post : α → Database → Prop}
    (h : ∀ id grown, table.insert make keyed blind = .ok (id, grown) →
      (next (id, grown)).Obeys rest post) :
    Answer.Obeys (stored (table.insert make keyed blind) >>= next) rest post := by
  rcases hinsert : table.insert make keyed blind with (_ | _) | ⟨id, grown⟩
  · trivial
  · obtain ⟨row, -, hclash⟩ := SerialTable.insert_eq_duplicate.mp hinsert
    cases hclash
  · exact h id grown hinsert

/-- A stored row obeys the checks on its columns. -/
theorem insertParsedRecord_obeys {record : ParsedRecordRecord} {file : RawFileRow}
    {run : TaskRunRow} (hfile : file ∈ db.rawFiles.rows)
    (hid : pg.idParam record.rawFileId = .ok (some file.id))
    (hrunId : pg.idParam record.taskRunId = .ok (some run.id))
    (hrun : run ∈ db.taskRuns.rows) (hown : file.taskRunId = run.id) :
    Answer.Obeys (db.insertParsedRecord pg record)
      (columnChecks pg record.record record.parseStatus) fun answer reached =>
        ∃ parsed : ParsedRecordRow, answer = some (decimal parsed.id) ∧
          parsed ∈ reached.parsedRecords.rows ∧ Storing db reached := by
  simp only [Database.insertParsedRecord, hid, hrunId, Answer.ok_bind]
  refine Answer.obeys_cast (Postgres.rejects_nullableVarcharParam _ _) fun station _ =>
    Answer.obeys_cast (Postgres.rejects_nullableVarcharParam _ _) fun device _ =>
    Answer.obeys_cast (Postgres.rejects_nullableTimeParam _) fun time _ =>
    Answer.obeys_cast (Postgres.rejects_jsonParam _) fun payload _ =>
    Answer.obeys_cast (Postgres.rejects_varcharParam _ _) fun status _ => ?_
  have hfound : (((some file.id).bind db.rawFiles.find?).filter fun stored =>
      some stored.taskRunId == some run.id && (db.taskRuns.find? stored.taskRunId).isSome) =
        some file := by
    simp [SerialTable.find?_key hfile, hown, SerialTable.find?_key hrun]
  rw [hfound]
  refine Answer.obeys_stored fun id grown hinsert =>
    ⟨rfl, _, ?_, SerialTable.mem_of_insert hinsert, { Storing.refl db with
      parsedRecords := fun parsed hparsed => SerialTable.mem_insert_of_mem hinsert hparsed }⟩
  rfl

/-- A stored rule result obeys the checks on its columns. -/
theorem insertQcResult_obeys {record : QcResultRecord} {parsed : ParsedRecordRow}
    {rule : QcRuleRecord} (hparsed : parsed ∈ db.parsedRecords.rows)
    (hid : record.parsedRecordId = decimal parsed.id)
    (hrule : db.selectRule pg record.qcRuleId = .ok (some rule)) :
    Answer.Obeys (db.insertQcResult pg record)
      [castCheck (pg.varcharParam 32 record.level), castCheck (pg.varcharParam 32 record.result),
        castCheck (pg.textParam record.message)] fun answer reached =>
        ∃ id : RowId, answer = some (decimal id) ∧ Storing db reached := by
  simp only [Database.selectRule, Answer.bind_eq_ok, Answer.pure_eq_ok, Except.ok.injEq] at hrule
  obtain ⟨ruleId, hruleId, hrule⟩ := hrule
  obtain ⟨row, hrow, -⟩ := Option.map_eq_some_iff.mp hrule
  simp only [Database.insertQcResult, hid, Postgres.idParam_decimal, hruleId, Answer.ok_bind]
  refine Answer.obeys_cast (Postgres.rejects_varcharParam _ _) fun level _ =>
    Answer.obeys_cast (Postgres.rejects_varcharParam _ _) fun result _ =>
    Answer.obeys_cast (Postgres.rejects_textParam _) fun message _ => ?_
  rw [hrow, show (some parsed.id).bind db.parsedRecords.find? = some parsed from
    SerialTable.find?_key hparsed]
  exact Answer.obeys_stored fun id grown _ => ⟨rfl, id, rfl, { Storing.refl db with }⟩

/-- A literal followed by a text that arrives is accepted as a text. -/
theorem textParam_append {first value received : Bytes}
    (hascii : ∀ b ∈ first, 0 < b ∧ b < 128) (h : pg.textParam value = .ok received) :
    pg.textParam (first ++ value) = .ok (first ++ received) := by
  have hreceived := accepted_eq_ok.mp h
  have hcut : cString (first ++ value) = first ++ cString value := by
    refine List.takeWhile_append_of_pos fun b hb => ?_
    simpa using (UInt8.ne_of_lt (hascii b hb).1).symm
  have hvalid : pg.validText (cString value) = true := by
    by_contra hinvalid
    rw [Postgres.receive, if_neg hinvalid] at hreceived
    cases hreceived
  rw [pg.eq_cString_of_receive hreceived, Postgres.textParam, Postgres.receive, hcut,
    if_pos (pg.validText_append (pg.validText_ascii hascii) hvalid), accepted_some]

/-- The run a request names, whose node is registered. -/
structure ServedRun (pg : Postgres) (taskRunId nodeCode : Bytes) (run : TaskRunRow)
    (db : Database) : Prop extends OwnRun pg taskRunId nodeCode run db where
  registered : ∃ node ∈ db.nodes.rows, node.nodeCode = nodeCode
  arrives : pg.textParam nodeCode = .ok nodeCode

/-- A run is served while evidence is stored for it. -/
theorem ServedRun.storing {taskRunId nodeCode : Bytes} {run : TaskRunRow}
    (hrun : ServedRun pg taskRunId nodeCode run db) (h : Storing db db') :
    ServedRun pg taskRunId nodeCode run db' where
  named := hrun.named
  stored := h.taskRuns ▸ hrun.stored
  node := hrun.node
  registered := h.nodes ▸ hrun.registered
  arrives := hrun.arrives

/-- An alert for a stored run of a registered node is never refused. -/
theorem insertAlert_obeys {record : AlertRecord} {run : TaskRunRow}
    (hrun : ServedRun pg record.taskRunId record.nodeCode run db)
    (htype : pg.varcharParam 64 record.alertType = .ok record.alertType)
    (hseverity : pg.varcharParam 32 record.severity = .ok record.severity)
    {message : Bytes} (hmessage : pg.textParam record.message = .ok message)
    (hstatus : record.status = text "open") :
    Answer.Obeys (db.insertAlert pg record) [] fun answer reached =>
      (∃ id : RowId, answer = some (decimal id)) ∧ Storing db reached := by
  obtain ⟨node, hnode, hcode⟩ := hrun.registered
  have hopen : pg.varcharParam 32 (if record.status = [] then text "open" else record.status) =
      .ok (text "open") := by
    rw [hstatus]
    exact pg.varcharParam_ascii (by decide +kernel) (by decide +kernel)
  have hfound : db.nodes.rows.find? (fun other => other.nodeCode == record.nodeCode) =
      some node := by
    refine SerialTable.find?_of_forall hnode (by simp [hcode]) fun other hother hother' => ?_
    refine SerialTable.eq_of_clash (fun left right => Bool.beq_comm) hother hnode ?_
    rw [← hcode] at hother'
    exact hother'
  have hownRun : db.ownRun (some run.id) node.nodeCode = some run := by
    simp [Database.ownRun, SerialTable.find?_key hrun.stored, hrun.node, hcode]
  simp only [Database.insertAlert, hrun.arrives, nullableIdParam_of_idParam hrun.named, htype,
    hseverity, hmessage, hopen, Answer.ok_bind, hfound, hownRun]
  exact Answer.obeys_stored fun id grown _ => ⟨rfl, ⟨id, rfl⟩, { Storing.refl db with }⟩

namespace AlertService

/-- The severity of an alert fits its column. -/
theorem varcharParam_alertSeverity (pg : Postgres) {result : QcResultRecord} (h : isAlertQcResult result = true) :
    pg.varcharParam 32 (alertSeverity result) = .ok (alertSeverity result) := by
  have hlevel : isAlertLevel (alertSeverity result) = true := by
    unfold alertSeverity
    split
    · assumption
    · simpa [isAlertQcResult, *] using h
  simp only [isAlertLevel, Bool.or_eq_true, beq_iff_eq] at hlevel
  rcases hlevel with h | h <;> rw [h] <;> exact pg.varcharParam_ascii (by decide +kernel) (by decide +kernel)

/-- The message of an alert arrives when the texts of the result do. -/
theorem textParam_alertMessage {result : QcResultRecord} {id : RowId} {message value : Bytes}
    (hid : result.id = decimal id) (hmessage : pg.textParam result.message = .ok message)
    (hresult : pg.textParam result.result = .ok value) :
    ∃ received, pg.textParam (alertMessage result) = .ok received := by
  unfold alertMessage
  split
  · exact ⟨message, hmessage⟩
  · refine ⟨_, textParam_append (fun b hb => ?_) hresult⟩
    rw [List.mem_append, List.mem_append, hid] at hb
    rcases hb with (hb | hb) | hb
    · exact (by decide +kernel : ∀ b ∈ text "qc result ", 0 < b ∧ b < 128) b hb
    · exact ascii_of_isDigit (isDigit_of_mem_decimal hb)
    · exact (by decide +kernel : ∀ b ∈ text " is ", 0 < b ∧ b < 128) b hb

/-- An alert for a result whose texts arrive is never refused. -/
theorem createAlert_obeys {result : QcResultRecord} {taskRunId nodeCode : Bytes}
    {run : TaskRunRow} {id : RowId} {message value : Bytes}
    (hrun : ServedRun pg taskRunId nodeCode run db) (hid : result.id = decimal id)
    (hmessage : pg.textParam result.message = .ok message)
    (hresult : pg.textParam result.result = .ok value) :
    Tx.Obeys pg session (createAlert result taskRunId nodeCode) db []
      fun _ reached => Storing db reached := by
  unfold createAlert
  split
  · exact Tx.obeys_pure (.refl db)
  · rename_i halert
    obtain ⟨received, hreceived⟩ := textParam_alertMessage hid hmessage hresult
    have hseverity := varcharParam_alertSeverity pg (by simpa using halert)
    have htype : pg.varcharParam 64 (text "qc_result") = .ok (text "qc_result") :=
      pg.varcharParam_ascii (by decide +kernel) (by decide +kernel)
    refine Tx.obeys_bind_free (Tx.obeys_sql (insertAlert_obeys hrun htype hseverity hreceived rfl))
      ?_
    rintro - _ reached ⟨⟨stored, rfl⟩, hstoring⟩
    exact Tx.obeys_pure hstoring

end AlertService

namespace AgentReportService

/-- Recording a rule result obeys the checks listed for it. -/
theorem recordResult_obeys {record : QcResultRecord} {parsed : ParsedRecordRow}
    {rule : QcRuleRecord} (hparsed : parsed ∈ db.parsedRecords.rows)
    (hid : record.parsedRecordId = decimal parsed.id) (hruleId : record.qcRuleId ≠ [])
    (hrule : db.selectRule pg record.qcRuleId = .ok (some rule)) :
    Tx.Obeys pg session (QcService.recordResult record) db
      [.must (record.level != []), .must (record.result != []),
        castCheck (pg.varcharParam 32 record.level), castCheck (pg.varcharParam 32 record.result),
        castCheck (pg.textParam record.message)] fun stored reached =>
        (∃ id : RowId, stored = { record with id := decimal id }) ∧ Storing db reached := by
  unfold QcService.recordResult
  rw [if_neg (by simp [hid]), if_neg hruleId]
  refine Tx.obeys_unless (by simp) fun _ => Tx.obeys_unless (by simp) fun _ => ?_
  refine Tx.obeys_bind_free (Tx.obeys_sql (insertQcResult_obeys hparsed hid hrule)) ?_
  rintro - _ reached ⟨id, rfl, hstoring⟩
  exact Tx.obeys_pure ⟨⟨id, rfl⟩, hstoring⟩

/-- A text that fits its column arrives. -/
theorem textParam_isOk_of_varcharParam {limit : ℕ} {value : Bytes}
    (h : (pg.varcharParam limit value).isOk = true) : ∃ received, pg.textParam value = .ok received := by
  rw [Postgres.varcharParam] at h
  rcases hreceived : pg.textParam value with fault | received
  · rw [hreceived] at h
    cases h
  · exact ⟨received, rfl⟩

/-- The texts of a result that passes its checks arrive. -/
theorem arrives_of_qcResultChecks {qc : TaskRunReportQcResult}
    (h : verdict (qcResultChecks pg qc) = .passes) :
    (∃ message, pg.textParam qc.message = .ok message) ∧
      ∃ result, pg.textParam qc.result = .ok result := by
  rw [verdict_eq_passes] at h
  have hmessage := h (castCheck (pg.textParam qc.message)) (by simp [qcResultChecks])
  have hresult := h (castCheck (pg.varcharParam 32 qc.result)) (by simp [qcResultChecks])
  refine ⟨?_, textParam_isOk_of_varcharParam hresult⟩
  rcases hreceived : pg.textParam qc.message with fault | received
  · rw [hreceived] at hmessage
    cases hmessage
  · exact ⟨received, rfl⟩

/-- The rule results of a parsed row are stored as listed. -/
theorem recordQcResults_obeys {request : TaskRunReportRequest} {run : TaskRunRow}
    (hrun : ServedRun pg request.taskRunId request.nodeCode run db) {parsed : ParsedRecordRow}
    (hparsed : parsed ∈ db.parsedRecords.rows) {results : List TaskRunReportQcResult}
    {created : Created} (hrules : ∀ qc ∈ results, qc.qcRuleId ≠ [] ∧
      ∃ rule, db.selectRule pg qc.qcRuleId = .ok (some rule)) :
    Tx.Obeys pg session (recordQcResults request (decimal parsed.id) results created) db
      (results.flatMap (qcResultChecks pg)) fun _ reached => Storing db reached := by
  induction results generalizing db created with
  | nil => exact Tx.obeys_pure (.refl db)
  | cons qc rest ih =>
    obtain ⟨hid, rule, hrule⟩ := hrules qc (by simp)
    rw [recordQcResults, List.flatMap_cons]
    refine Tx.obeys_bind (recordResult_obeys hparsed rfl hid hrule) ?_
    rintro hpasses stored mid ⟨⟨id, rfl⟩, hstoring⟩
    obtain ⟨⟨message, hmessage⟩, result, hresult⟩ := arrives_of_qcResultChecks hpasses
    refine Tx.obeys_bind
      (AlertService.createAlert_obeys (hrun.storing hstoring) rfl hmessage hresult) ?_
    rintro - alertId mid' hstoring'
    have hboth := hstoring.trans hstoring'
    refine (ih (hrun.storing hboth) (hboth.parsedRecords parsed hparsed) fun other hother => ?_).of_yields
      fun _ reached _ h => hboth.trans h
    rw [hboth.selectRule_eq]
    exact hrules other (List.mem_cons_of_mem _ hother)

/-- The raw files that were read for earlier rows of a report. -/
def Verified (pg : Postgres) (db : Database) (taskRunId : Bytes)
    (verified : List (Bytes × RawFileRecord)) : Prop :=
  ∀ id file, verified.lookup id = some file →
    db.selectRawFile pg id = .ok (some file) ∧ file.taskRunId = taskRunId

/-- A raw file that is read for a row is checked as listed; one that was read before passes. -/
theorem verifyRawFile_obeys {request : TaskRunReportRequest} {base : Database}
    {verified : List (Bytes × RawFileRecord)} {rawFileId : Bytes} (hid : rawFileId ≠ [])
    (hstoring : Storing base db)
    (hverified : Verified R.postgres base request.taskRunId verified) :
    Tx.Obeys R.postgres session (verifyRawFile request verified rawFileId) db
      (rawFileChecks R base request.taskRunId rawFileId) fun file reached =>
        base.selectRawFile R.postgres rawFileId = .ok (some file) ∧
          file.taskRunId = request.taskRunId ∧ reached = db := by
  rw [rawFileChecks, ← hstoring.selectRawFile_eq]
  unfold verifyRawFile
  split
  · rename_i file hlookup
    obtain ⟨hread, hown⟩ := hverified rawFileId file hlookup
    rw [← hstoring.selectRawFile_eq] at hread
    refine (Tx.obeys_pure ⟨hread, hown, rfl⟩).of_verdict_eq ?_
    simp [hread, hown, castCheck, Except.isOk, Except.toBool]
  · have hrejects : (db.selectRawFile R.postgres rawFileId).Rejects := rejects_byKey
    rw [ResultService.findRawFile, if_neg hid]
    refine Tx.obeys_read rfl hrejects fun answer hanswer => ?_
    rw [hanswer, found_ok]
    cases answer with
    | none => exact Tx.obeys_refuse rfl
    | some file =>
      refine Tx.Obeys.of_verdict_eq (Tx.obeys_unless (by simp) fun hown => ?_)
        (verdict_must_true _)
      exact Tx.obeys_pure ⟨rfl, not_not.mp hown, rfl⟩

/-- Storing a parsed row of a raw file of its run obeys the checks listed for it. -/
theorem recordParsedRecord_obeys {request : ParsedRecordRecord} {file : RawFileRecord}
    {run : TaskRunRow} {nodeCode : Bytes}
    (hrun : ServedRun pg request.taskRunId nodeCode run db) (hne : request.taskRunId ≠ [])
    (hid : request.rawFileId ≠ [])
    (hread : db.selectRawFile pg request.rawFileId = .ok (some file))
    (hown : file.taskRunId = request.taskRunId) :
    Tx.Obeys pg session (ResultService.recordParsedRecord request file) db
      (.must (request.record.payloadJson != []) ::
        columnChecks pg request.record (orDefault request.parseStatus "parsed"))
      fun id reached => ∃ parsed : ParsedRecordRow, id = decimal parsed.id ∧
        parsed ∈ reached.parsedRecords.rows ∧ Storing db reached := by
  obtain ⟨stored, hstored, hstoredId, hstoredRun⟩ := selectRawFile_ok hread
  have hrunId : stored.taskRunId = run.id := by
    have hnamed := hrun.named
    rw [← hown, hstoredRun, Postgres.idParam_decimal] at hnamed
    simpa using hnamed
  unfold ResultService.recordParsedRecord
  rw [if_neg hne, if_neg hid]
  refine Tx.obeys_unless (by simp) fun _ => ?_
  rw [if_neg (not_not.mpr hown)]
  refine Tx.obeys_bind_free
    (Tx.obeys_sql (insertParsedRecord_obeys hstored hstoredId hrun.named hrun.stored hrunId)) ?_
  rintro - _ reached ⟨parsed, rfl, hmem, hstoring⟩
  exact Tx.obeys_pure ⟨parsed, rfl, hmem, hstoring⟩

/-- The parsed rows of a report are stored as listed. -/
theorem recordParsedRecords_obeys {request : TaskRunReportRequest} {run : TaskRunRow}
    {base : Database} (hrun : ServedRun R.postgres request.taskRunId request.nodeCode run base)
    (hne : request.taskRunId ≠ []) (hstoring : Storing base db)
    {records : List TaskRunReportParsedRecord} {verified : List (Bytes × RawFileRecord)}
    {created : Created}
    (hverified : Verified R.postgres base request.taskRunId verified)
    (hids : ∀ parsed ∈ records, parsed.rawFileId ≠ [] ∧ ∀ qc ∈ parsed.qcResults,
      qc.qcRuleId ≠ [] ∧ ∃ rule, base.selectRule R.postgres qc.qcRuleId = .ok (some rule)) :
    Tx.Obeys R.postgres session (recordParsedRecords request records verified created) db
      (records.flatMap (parsedRecordChecks R base request.taskRunId))
      fun _ reached => Storing base reached := by
  induction records generalizing db verified created with
  | nil => exact Tx.obeys_pure hstoring
  | cons parsed rest ih =>
    obtain ⟨hid, hrules⟩ := hids parsed (by simp)
    rw [recordParsedRecords, List.flatMap_cons, parsedRecordChecks, List.append_assoc]
    refine Tx.obeys_bind (verifyRawFile_obeys hid hstoring hverified) ?_
    rintro - file mid ⟨hread, hown, rfl⟩
    have hreadHere := hread
    rw [← hstoring.selectRawFile_eq] at hreadHere
    rw [List.append_assoc]
    refine Tx.obeys_bind (recordParsedRecord_obeys (hrun.storing hstoring) hne hid hreadHere hown) ?_
    rintro - _ mid₁ ⟨row, rfl, hrow, hrowStoring⟩
    have hstoring₁ := hstoring.trans hrowStoring
    refine Tx.obeys_bind (recordQcResults_obeys (hrun.storing hstoring₁) hrow ?_) ?_
    · intro qc hqc
      rw [hstoring₁.selectRule_eq]
      exact hrules qc hqc
    rintro - created' mid₂ hresults
    refine ih (hstoring₁.trans hresults) ?_ fun other hother =>
      hids other (List.mem_cons_of_mem _ hother)
    intro id stored hlookup
    rw [List.lookup_cons] at hlookup
    split at hlookup
    · rename_i hsame
      cases hlookup
      rw [beq_iff_eq.mp hsame]
      exact ⟨hread, hown⟩
    · exact hverified id stored hlookup

end AgentReportService

end LabBridge.Server
