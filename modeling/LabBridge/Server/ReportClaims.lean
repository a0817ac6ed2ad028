import LabBridge.Server.Progress
import LabBridge.Server.ReportStores

/-!
# Claiming, finishing and completing obey their checks

In a sound state the node of a run is registered and every receipt is complete, so the claim
of a report is refused for its key only. Ending the run and completing the receipt meet the
casts of their columns and nothing else.
-/

namespace LabBridge.Server

open ByteText LabBridge.Core Storage Interaction ReceiptRepository AgentReportService

variable {R : Runtime} {pg : Postgres} {session : Session} {db db' : Database}

/-- The run of a request that a sound state serves. -/
theorem servedRun_of_own {taskRunId nodeCode : Bytes} {run : TaskRunRow} (hsound : Sound pg db)
    (hrun : OwnRun pg taskRunId nodeCode run db) : ServedRun pg taskRunId nodeCode run db := by
  obtain ⟨task, htask, -, hcode⟩ := hsound.runTasks run hrun.stored
  obtain ⟨node, hnode, hnodeCode⟩ := hsound.taskNodes task htask
  have hsame : node.nodeCode = nodeCode := (hnodeCode.trans hcode).trans hrun.node
  exact { hrun with
    registered := ⟨node, hnode, hsame⟩
    arrives := by rw [Postgres.textParam, ← hsame, hsound.codes node hnode, accepted_some] }

/-- The ownership check obeys the checks listed for it. -/
theorem validateTaskRunNode_obeys {taskRunId nodeCode : Bytes} (hsound : Sound R.postgres db) :
    Tx.Obeys R.postgres session (validateTaskRunNode taskRunId nodeCode) db
      (runChecks R db taskRunId nodeCode) fun record reached => reached = db ∧ taskRunId ≠ [] ∧
        ∃ run, ServedRun R.postgres taskRunId nodeCode run db ∧
          found (db.selectRunById R.postgres taskRunId) = some record := by
  have hobeys : Tx.Obeys R.postgres session (validateTaskRunNode taskRunId nodeCode) db
      (runChecks R db taskRunId nodeCode) fun record _ => taskRunId ≠ [] ∧
        found (db.selectRunById R.postgres taskRunId) = some record := by
    have hrejects : (db.selectRunById R.postgres taskRunId).Rejects := rejects_byKey
    unfold validateTaskRunNode runChecks
    refine Tx.obeys_unless (by simp) fun hid => Tx.obeys_unless (by simp) fun _ => ?_
    rw [TaskRunService.findRun, if_neg hid]
    refine Tx.obeys_read rfl hrejects fun answer hanswer => ?_
    rw [hanswer, found_ok]
    cases answer with
    | none => exact Tx.obeys_refuse rfl
    | some record =>
      refine Tx.Obeys.of_verdict_eq (Tx.obeys_unless (by simp) fun _ => ?_) (verdict_must_true _)
      exact Tx.obeys_pure ⟨hid, rfl⟩
  refine hobeys.of_yields fun record reached hyields hfacts => ?_
  obtain ⟨hid, hfound⟩ := hfacts
  obtain ⟨rfl, run, hrun, -⟩ := validateTaskRunNode_yields hyields
  exact ⟨rfl, hid, run, servedRun_of_own hsound hrun, hfound⟩

/-- No stored receipt clashes with the one of an unclaimed report. -/
theorem isUnclaimed_iff {request : TaskRunReportRequest} {run : TaskRunRow} {key : Bytes}
    (hrun : ServedRun R.postgres request.taskRunId request.nodeCode run db)
    (hkey : R.postgres.textParam request.idempotencyKey = .ok key) {row : ReceiptRow}
    (hnode : row.nodeCode = request.nodeCode) (hrow : row.taskRunId = run.id)
    (htype : row.requestType = .taskRunReport) (hrowKey : row.idempotencyKey = key) :
    isUnclaimed R db request = true ↔ ∀ other ∈ db.receipts.rows, other.clash row = false := by
  have hclash (other : ReceiptRow) : other.clash row = false ↔
      ¬(other.nodeCode = request.nodeCode ∧ other.requestType = .taskRunReport ∧
        other.idempotencyKey = key) ∧
      ¬(other.taskRunId = run.id ∧ other.requestType = .taskRunReport) := by
    rw [← Bool.not_eq_true, ReceiptRow.clash_eq_true, hnode, hrow, htype, hrowKey]
    tauto
  simp only [isUnclaimed, Database.selectReceiptByKey, Database.selectReportReceipt, hrun.arrives,
    hrun.named, hkey, Answer.ok_bind, Answer.pure_eq_ok, found_ok, Option.isNone_map,
    Bool.and_eq_true, Option.isNone_iff_eq_none, List.find?_eq_none, beq_iff_eq, hclash,
    Option.some.injEq, and_assoc, ← forall_and]

/-- A key within its limit is cast as a text. -/
theorem varcharParam_key_eq {key : Bytes} (h : key.length ≤ 128) :
    pg.varcharParam 128 key = pg.textParam key := by
  rcases hreceived : pg.textParam key with fault | received
  · simp [Postgres.varcharParam, hreceived]
  · exact varcharParam_key h hreceived

/-- A cast whose check passes gives a value. -/
theorem isOk_of_castCheck {α : Type} {answer : Answer α}
    (h : verdict [castCheck answer] = .passes) : ∃ value, answer = .ok value := by
  cases answer with
  | error fault => cases h
  | ok value => exact ⟨value, rfl⟩

/-- The read of a receipt by its key never fails for a key and node that arrive. -/
theorem selectReceiptByKey_eq (db : Database) (requestType : AgentReportRequestType)
    {nodeCode key code received : Bytes} (hnode : pg.textParam nodeCode = .ok code)
    (hkey : pg.textParam key = .ok received) :
    db.selectReceiptByKey pg nodeCode requestType key =
      .ok (found (db.selectReceiptByKey pg nodeCode requestType key)) := by
  simp [Database.selectReceiptByKey, hnode, hkey]

/-- The read of a report receipt never fails for a run that is named. -/
theorem selectReportReceipt_eq (db : Database) {taskRunId : Bytes} {run : Option RowId}
    (hid : pg.idParam taskRunId = .ok run) :
    db.selectReportReceipt pg taskRunId = .ok (found (db.selectReportReceipt pg taskRunId)) := by
  simp [Database.selectReportReceipt, hid]

/-- Claiming the receipt of an unclaimed report appends an open receipt. -/
theorem insertReceipt_obeys {request : TaskRunReportRequest} {run : TaskRunRow}
    (hrun : ServedRun R.postgres request.taskRunId request.nodeCode run db)
    (hkey : request.idempotencyKey.length ≤ 128) :
    Answer.Obeys (db.insertReceipt R.postgres (reportClaim R request))
      [castCheck (R.postgres.textParam request.idempotencyKey)] fun answer reached =>
        (answer = none ∧ reached = db ∧ isUnclaimed R db request = false) ∨
        isUnclaimed R db request = true ∧ ∃ (row : ReceiptRow) (receipts : _),
          answer = some (decimal row.id) ∧ row.response = none ∧ row ∈ receipts.rows ∧
          reached = { db with receipts := receipts } := by
  have hclaim : FitsColumns R.postgres (reportClaim R request) := fits_digest _ rfl hkey
  have hfits := hclaim.fingerprint
  have hown : db.ownRun (some run.id) request.nodeCode = some run := by
    simp [Database.ownRun, SerialTable.find?_key hrun.stored, hrun.node]
  simp only [Database.insertReceipt, reportClaim, hrun.named, hrun.arrives, Answer.ok_bind,
    varcharParam_key_eq hkey] at hfits ⊢
  refine Answer.obeys_cast (Postgres.rejects_textParam _) fun key hkeyText => ?_
  simp only [hfits, Answer.ok_bind, hown]
  split
  · rename_i id receipts hinsert
    obtain ⟨-, -, -, hfresh⟩ := SerialTable.insert_eq_ok hinsert
    have hfree : isUnclaimed R db request = true := by
      refine (isUnclaimed_iff hrun hkeyText ?_ ?_ ?_ ?_).mpr hfresh
      · exact hrun.node
      · rfl
      · rfl
      · rfl
    refine ⟨rfl, .inr ⟨hfree, _, receipts, ?_, ?_, SerialTable.mem_of_insert hinsert, rfl⟩⟩
    · rfl
    · rfl
  · rename_i hinsert
    obtain ⟨other, hother, hclash⟩ := SerialTable.insert_eq_duplicate.mp hinsert
    refine ⟨rfl, .inl ⟨rfl, rfl, Bool.eq_false_iff.mpr fun hfree => ?_⟩⟩
    refine absurd hclash (Bool.not_eq_true _ ▸ ?_)
    refine (isUnclaimed_iff hrun hkeyText ?_ ?_ ?_ ?_).mp hfree other hother
    · exact hrun.node
    · rfl
    · rfl
    · rfl
  · trivial

/-- A report whose key or run has a receipt is answered from complete receipts. -/
theorem resolveClaim_obeys {request : AgentReportReceiptClaim} {code key : Bytes}
    {run : Option RowId} (hcomplete : ∀ row ∈ db.receipts.rows, row.response.isSome = true)
    (htype : request.requestType = .taskRunReport)
    (hnode : pg.textParam request.nodeCode = .ok code)
    (hkey : pg.textParam request.idempotencyKey = .ok key)
    (hid : pg.idParam request.taskRunId = .ok run)
    (hclaimed : found (db.selectReceiptByKey pg request.nodeCode request.requestType
      request.idempotencyKey) = none →
      ∃ existing, found (db.selectReportReceipt pg request.taskRunId) = some existing) :
    Tx.Obeys pg session (resolveClaim request) db [] fun result _ =>
      ∀ id, result ≠ .acquired id := by
  unfold resolveClaim
  have hread := selectReceiptByKey_eq db request.requestType hnode hkey
  refine Tx.obeys_bind_of_yields (Tx.yields_sql.mpr (Statement.reading_eq_ok.mpr ⟨hread, rfl⟩)) ?_
  rcases hfound : found (db.selectReceiptByKey pg request.nodeCode request.requestType
    request.idempotencyKey) with _ | record
  · obtain ⟨existing, hexisting⟩ := hclaimed hfound
    have hreport := selectReportReceipt_eq db hid
    rw [hexisting] at hreport
    dsimp only
    rw [if_pos htype]
    refine Tx.obeys_bind_of_yields
      (Tx.yields_sql.mpr (Statement.reading_eq_ok.mpr ⟨hreport, rfl⟩)) ?_
    exact Tx.obeys_pure nofun
  · rw [hfound] at hread
    obtain ⟨row, hrow, -, rfl⟩ := selectReceiptByKey_ok request hread
    have hcompleted : (toReceipt (Database.toReceiptRecord row)).completed = true :=
      hcomplete row hrow
    simp only [hcompleted, Bool.not_true, Bool.false_eq_true, if_false]
    split <;> exact Tx.obeys_pure nofun

/-- A claim is acquired exactly when the report is unclaimed. -/
theorem claim_obeys {request : TaskRunReportRequest} {run : TaskRunRow}
    (hsound : Sound R.postgres db)
    (hrun : ServedRun R.postgres request.taskRunId request.nodeCode run db)
    (hkey : request.idempotencyKey.length ≤ 128) :
    Tx.Obeys R.postgres session (claim (reportClaim R request)) db
      [castCheck (R.postgres.textParam request.idempotencyKey)] fun result reached =>
        (isUnclaimed R db request = false ∧ ∀ id, result ≠ .acquired id) ∨
        isUnclaimed R db request = true ∧ ∃ (row : ReceiptRow) (receipts : _),
          result = .acquired (decimal row.id) ∧ row.response = none ∧ row ∈ receipts.rows ∧
            reached = { db with receipts := receipts } := by
  refine Tx.obeys_bind_free (Tx.obeys_sql (insertReceipt_obeys hrun hkey)) ?_
  rintro hpasses answer reached (⟨rfl, rfl, hclaimed⟩ | ⟨hfree, row, receipts, rfl, hrow⟩)
  · obtain ⟨key, hkeyText⟩ := isOk_of_castCheck hpasses
    have hcomplete : ∀ row ∈ reached.receipts.rows, row.response.isSome = true :=
      fun row hrow => (hsound.receipts row hrow).complete
    refine (resolveClaim_obeys hcomplete rfl hrun.arrives hkeyText hrun.named fun hnone => ?_).of_yields
      fun result _ _ h => .inl ⟨hclaimed, h⟩
    have hreport : (found (reached.selectReportReceipt R.postgres request.taskRunId)).isSome := by
      rw [isUnclaimed, show found (reached.selectReceiptByKey R.postgres request.nodeCode
        .taskRunReport request.idempotencyKey) = none from hnone] at hclaimed
      simpa using hclaimed
    exact Option.isSome_iff_exists.mp hreport
  · exact Tx.obeys_pure (.inr ⟨hfree, row, receipts, rfl, hrow⟩)

/-- Runs that keep their fixed columns and do not start to wait clash with no more runs. -/
theorem TaskRunRow.clash_of_moved {left right movedLeft movedRight : TaskRunRow}
    (hleft : SameRun left movedLeft) (hright : SameRun right movedRight)
    (hleftStatus : movedLeft.status = .pending → left.status = .pending)
    (hrightStatus : movedRight.status = .pending → right.status = .pending)
    (h : left.clash right = false) : movedLeft.clash movedRight = false := by
  have hleftManual : movedLeft.isManual = left.isManual := by
    rw [TaskRunRow.isManual, TaskRunRow.isManual, hleft.triggerType]
  have hrightManual : movedRight.isManual = right.isManual := by
    rw [TaskRunRow.isManual, TaskRunRow.isManual, hright.triggerType]
  refine Bool.eq_false_iff.mpr fun hclash => Bool.eq_false_iff.mp h ?_
  simp only [TaskRunRow.clash, hleft.nodeCode, hright.nodeCode, hleft.executionKey,
    hright.executionKey, hleft.taskId, hright.taskId, hleftManual, hrightManual, Bool.or_eq_true,
    Bool.and_eq_true, beq_iff_eq] at hclash ⊢
  rcases hclash with hkey | ⟨⟨htask, hwaits, hmanual⟩, hwaits', hmanual'⟩
  · exact .inl hkey
  · exact .inr ⟨⟨htask, hleftStatus hwaits, hmanual⟩, hrightStatus hwaits', hmanual'⟩

/-- A change of runs that lets none of them start to wait is never refused. -/
theorem changeRuns_obeys {selected : TaskRunRow → Bool} {change : TaskRunRow → TaskRunRow}
    {keyed : ∀ run, (change run).id = run.id} (hsame : ∀ run, SameRun run (change run))
    (hstatus : ∀ run, (change run).status ≠ .pending) :
    Answer.Obeys (db.changeRuns selected change keyed) [] fun _ reached =>
      reached.receipts = db.receipts := by
  have hmoved (run : TaskRunRow) : SameRun run (if selected run then change run else run) ∧
      ((if selected run then change run else run).status = .pending → run.status = .pending) := by
    split
    · exact ⟨hsame run, fun hpending => absurd hpending (hstatus run)⟩
    · exact ⟨.refl run, id⟩
  exact Answer.obeys_accepted (SerialTable.update_isSome fun left right h =>
    TaskRunRow.clash_of_moved (hmoved left).1 (hmoved right).1 (hmoved left).2 (hmoved right).2 h)
    fun changed => ⟨rfl, rfl⟩

/-- Ending a stored run obeys the casts of its columns. -/
theorem updateRunFinish_obeys {record : TaskRunRecord} {run : RowId}
    (hid : record.id = decimal run) (hended : record.status.isTerminal = true) :
    Answer.Obeys (db.updateRunFinish pg record)
      [castCheck (pg.nullableTimeParam record.finishedAt),
        castCheck (pg.textParam record.errorSummary),
        castCheck (pg.nullableJsonParam record.failedFilesJson)] fun _ reached =>
        reached.receipts = db.receipts := by
  simp only [Database.updateRunFinish, hid, Postgres.idParam_decimal, Answer.ok_bind]
  refine Answer.obeys_cast (Postgres.rejects_nullableTimeParam _) fun finishedAt _ =>
    Answer.obeys_cast (Postgres.rejects_textParam _) fun errorSummary _ =>
    Answer.obeys_cast (Postgres.rejects_nullableJsonParam _) fun failedFiles _ => ?_
  refine changeRuns_obeys (fun other => ⟨rfl, rfl, rfl, rfl, rfl, rfl, rfl, rfl, rfl⟩)
    fun other hpending => ?_
  rw [show record.status = .pending from hpending] at hended
  cases hended

/-- Printing a document obeys the check that it can be printed. -/
theorem printed_obeys {json : Option Bytes} :
    Tx.Obeys pg session (TaskRunRepository.printed json) db [.cast json.isSome]
      fun value reached => json = some value ∧ reached = db := by
  cases json with
  | none => exact Tx.obeys_raise rfl
  | some value => exact (Tx.obeys_pure ⟨rfl, rfl⟩).of_verdict_eq rfl

/-- Ending the run of a report obeys the checks listed for it. -/
theorem finish_obeys {request : TaskRunReportRequest} {run : TaskRunRow}
    (hrun : ServedRun R.postgres request.taskRunId request.nodeCode run db)
    (hne : request.taskRunId ≠ []) (hended : request.status.isTerminal = true) :
    Tx.Obeys R.postgres session (TaskRunService.finish R (finishRequest request)) db
      (finishChecks R request) fun _ reached => reached.receipts = db.receipts := by
  have hread : db.selectRunById R.postgres request.taskRunId =
      .ok (some (Database.toTaskRunRecord R.postgres run)) := by
    simp [Database.selectRunById, hrun.named, SerialTable.find?_key hrun.stored]
  unfold TaskRunService.finish
  rw [if_neg (show ¬(finishRequest request).taskRunId = [] from hne),
    if_neg (show ¬(!(finishRequest request).status.isTerminal) = true by simpa [finishRequest])]
  refine Tx.obeys_bind_of_yields
    (Tx.yields_sql.mpr (Statement.reading_eq_ok.mpr ⟨hread, rfl⟩)) ?_
  refine Tx.obeys_bind printed_obeys ?_
  rintro - json _ ⟨hjson, rfl⟩
  rw [show printedFailedFiles R request = some json from hjson, Option.getD_some]
  exact Tx.obeys_sql (updateRunFinish_obeys rfl hended)

/-- A receipt clashes with the same ones after its response is stored. -/
theorem ReceiptRow.clash_of_completed {selected : ReceiptRow → Bool} (response : StoredResponse)
    (left right : ReceiptRow) (h : left.clash right = false) :
    (if selected left then { left with response := some response } else left).clash
      (if selected right then { right with response := some response } else right) = false := by
  rw [← h]
  split <;> split <;> rfl

/-- Completing an open receipt never fails. -/
theorem complete_obeys {row : ReceiptRow} {response : AgentReportReceiptResponse}
    (hrow : row ∈ db.receipts.rows) (hopen : row.response = none)
    (hvalid : ValidResponse response) :
    Tx.Obeys pg session (complete (decimal row.id) response) db [] fun _ _ => True := by
  obtain ⟨hraw, hparsed, hqc, halerts⟩ := hvalid
  simp only [complete, joinIds_ids hraw, joinIds_ids hparsed, joinIds_ids hqc,
    joinIds_ids halerts, Program.ret_bind]
  have hupdated : Answer.Obeys (db.updateReceiptComplete pg session (decimal row.id)
      (stringAgg response.rawFileIds) (stringAgg response.parsedRecordIds)
      (stringAgg response.qcResultIds) (stringAgg response.alertIds)) []
      fun answer _ => answer.isSome = true := by
    simp only [Database.updateReceiptComplete, Postgres.idParam_decimal, textParam_stringAgg hraw,
      textParam_stringAgg hparsed, textParam_stringAgg hqc, textParam_stringAgg halerts,
      Answer.ok_bind]
    refine Answer.obeys_accepted (SerialTable.update_isSome (ReceiptRow.clash_of_completed _))
      fun receipts => ⟨rfl, ?_⟩
    dsimp only
    rw [Option.isSome_map, List.find?_isSome]
    exact ⟨row, hrow, by simp [hopen]⟩
  refine Tx.obeys_bind_free (Tx.obeys_sql hupdated) ?_
  rintro - (_ | id) reached hsome
  · cases hsome
  · exact Tx.obeys_pure trivial

end LabBridge.Server
