import LabBridge.Server.Progress

/-!
# Requests that meet a completed receipt

A request whose node, kind and key name a stored receipt is answered from it when the
fingerprints agree and refused when they differ. In both cases no table changes.
-/

namespace LabBridge.Server

open ByteText LabBridge.Core Storage Interaction ReceiptRepository

variable {R : Runtime} {pg : Postgres} {session : Session} {db db' : Database}

namespace ReceiptRepository

/-- The insert of a claim that names a stored receipt of its node stores nothing. -/
theorem insertReceipt_of_names {request : AgentReportReceiptClaim} {row : ReceiptRow}
    {run : RowId} (hfits : FitsColumns pg request) (hrow : row ∈ db.receipts.rows)
    (hnames : Names pg request row) (hrun : pg.idParam request.taskRunId = .ok (some run)) :
    db.insertReceipt pg request = .ok (none, db) := by
  have hkey := varcharParam_key hfits.key hnames.key
  simp only [Database.insertReceipt, hrun, hnames.node, hkey, hfits.fingerprint, Answer.ok_bind]
  split
  · rfl
  · rename_i owner howner
    obtain ⟨-, -, hnode⟩ := ownRun_eq_some howner
    split
    · rename_i hinsert
      have hfresh := (SerialTable.insert_eq_ok hinsert).2.2.2 row hrow
      simp [ReceiptRow.clash, hnode, hnames.type] at hfresh
    · rfl
    · rename_i hinsert
      refine absurd ((SerialTable.insert_eq_duplicate.mpr ⟨row, hrow, ?_⟩).symm.trans hinsert)
        (by simp)
      simp [ReceiptRow.clash, hnode, hnames.type]

/-- The read by key finds the receipt that a claim names. -/
theorem selectReceiptByKey_of_names {request : AgentReportReceiptClaim} {row : ReceiptRow}
    (hrow : row ∈ db.receipts.rows) (hnames : Names pg request row) :
    db.selectReceiptByKey pg request.nodeCode request.requestType request.idempotencyKey =
      .ok (some (Database.toReceiptRecord row)) := by
  simp only [Database.selectReceiptByKey, hnames.node, hnames.key, Answer.ok_bind,
    Answer.pure_eq_ok, Except.ok.injEq, Option.map_eq_some_iff]
  refine ⟨row, ?_, rfl⟩
  rcases hfind : db.receipts.rows.find? fun receipt => receipt.nodeCode == row.nodeCode &&
      receipt.requestType == request.requestType &&
      receipt.idempotencyKey == row.idempotencyKey with _ | found
  · exact absurd (List.find?_eq_none.mp hfind row hrow) (by simp [hnames.type])
  · have hmatch := List.find?_some hfind
    simp only [Bool.and_eq_true, beq_iff_eq] at hmatch
    have hfound : Names pg request found :=
      ⟨by rw [hmatch.1.1]; exact hnames.node, hmatch.1.2, by rw [hmatch.2]; exact hnames.key⟩
    rw [hfound.unique hnames (List.mem_of_find?_eq_some hfind) hrow] at hfind
    exact hfind

/-- A claim that names a completed receipt is answered from it, or meets a conflict when its
fingerprint is another one. -/
theorem claim_of_names (session : Session) {request : AgentReportReceiptClaim} {row : ReceiptRow}
    {run : RowId}
    (hfits : FitsColumns pg request) (hrow : row ∈ db.receipts.rows)
    (hnames : Names pg request row) (hcomplete : row.response.isSome = true)
    (hrun : pg.idParam request.taskRunId = .ok (some run)) :
    Tx.Yields pg session (claim request) db
      (if row.requestFingerprint = request.requestFingerprint then
        .replay (toReceipt (Database.toReceiptRecord row))
      else .idempotencyConflict (toReceipt (Database.toReceiptRecord row))) db := by
  refine Tx.yields_sql_bind.mpr
    ⟨none, db, insertReceipt_of_names hfits hrow hnames hrun, ?_⟩
  refine Tx.yields_sql_bind.mpr ⟨some (Database.toReceiptRecord row), db,
    Statement.reading_eq_ok.mpr ⟨selectReceiptByKey_of_names hrow hnames, rfl⟩, ?_⟩
  have hcompleted : (toReceipt (Database.toReceiptRecord row)).completed = true := hcomplete
  have hprint : (toReceipt (Database.toReceiptRecord row)).claim.requestFingerprint =
      row.requestFingerprint := rfl
  simp only [hprint, hcompleted]
  by_cases hsame : row.requestFingerprint = request.requestFingerprint
  · simp [hsame]
  · simp [hsame]

end ReceiptRepository

namespace AgentReportService

/-- The run of a request is read when its node owns it. -/
theorem validateTaskRunNode_of_own {taskRunId nodeCode : Bytes} {run : TaskRunRow}
    (hrun : OwnRun pg taskRunId nodeCode run db) (hnode : nodeCode ≠ []) :
    Tx.Yields pg session (validateTaskRunNode taskRunId nodeCode) db
      (Database.toTaskRunRecord pg run) db := by
  have hid : taskRunId ≠ [] := by
    rintro rfl
    have hempty : pg.receive [] = some [] := pg.receive_ascii (by simp)
    have hnamed := hrun.named
    simp [Postgres.idParam, Postgres.textParam, hempty, pg.bigint_empty] at hnamed
  have hselect : db.selectRunById pg taskRunId =
      .ok (some (Database.toTaskRunRecord pg run)) := by
    simp [Database.selectRunById, hrun.named, SerialTable.find?_key hrun.stored]
  simp only [validateTaskRunNode, hid, hnode, if_false, TaskRunService.findRun]
  refine Tx.yields_sql_bind.mpr ⟨some (Database.toTaskRunRecord pg run), db,
    Statement.reading_eq_ok.mpr ⟨hselect, rfl⟩, ?_⟩
  simp only [Tx.yields_unless_refuse]
  exact ⟨not_not.mpr hrun.node, Tx.yields_pure.mpr ⟨rfl, rfl⟩⟩

/-- A manifest that names a completed receipt is answered from it, or refused. -/
theorem acceptRawFileManifest_of_names {request : RawFileManifestRequest} {run : TaskRunRow}
    {row : ReceiptRow} {response : AgentReportReceiptResponse} (hfault : session.fault = none)
    (hkey : validateIdempotencyKey request.idempotencyKey = none) (hnode : request.nodeCode ≠ [])
    (hrun : OwnRun R.postgres request.taskRunId request.nodeCode run db)
    (hrow : row ∈ db.receipts.rows) (hnames : Names R.postgres (manifestClaim R request) row)
    (hanswers : Answers row response) :
    ((acceptRawFileManifest R request).execute R.postgres session db).1 =
      if row.requestFingerprint = (manifestClaim R request).requestFingerprint then
        .ok (manifestResult response true)
      else .error (.refused reusedKey) := by
  have hfits : FitsColumns R.postgres (manifestClaim R request) :=
    fits_digest _ rfl (length_le_of_validateIdempotencyKey hkey)
  have hclaim := claim_of_names session hfits hrow hnames hanswers.2 hrun.named
  rw [Tx.execute_fst_of_no_fault hfault]
  simp only [acceptRawFileManifest, hkey]
  rw [Tx.run_bind_of_yields (validateTaskRunNode_of_own hrun hnode)]
  by_cases hsame : row.requestFingerprint = (manifestClaim R request).requestFingerprint
  · rw [if_pos hsame] at hclaim ⊢
    rw [Tx.run_bind_of_yields hclaim]
    simp only [hanswers.1]
    rfl
  · rw [if_neg hsame] at hclaim ⊢
    rw [Tx.run_bind_of_yields hclaim]
    rfl

/-- A report that names a completed receipt is answered from it, or refused. -/
theorem acceptTaskRunReport_of_names {request : TaskRunReportRequest} {run : TaskRunRow}
    {row : ReceiptRow} {response : AgentReportReceiptResponse} (hfault : session.fault = none)
    (hkey : validateIdempotencyKey request.idempotencyKey = none) (hnode : request.nodeCode ≠ [])
    (hterminal : request.status.isTerminal = true)
    (hrun : OwnRun R.postgres request.taskRunId request.nodeCode run db)
    (hrow : row ∈ db.receipts.rows) (hnames : Names R.postgres (reportClaim R request) row)
    (hanswers : Answers row response) :
    ((acceptTaskRunReport R request).execute R.postgres session db).1 =
      if row.requestFingerprint = (reportClaim R request).requestFingerprint then
        .ok (reportResult response true)
      else .error (.refused reusedKey) := by
  have hfits : FitsColumns R.postgres (reportClaim R request) :=
    fits_digest _ rfl (length_le_of_validateIdempotencyKey hkey)
  have hclaim := claim_of_names session hfits hrow hnames hanswers.2 hrun.named
  rw [Tx.execute_fst_of_no_fault hfault]
  simp only [acceptTaskRunReport, hkey]
  rw [Tx.run_bind_of_yields (validateTaskRunNode_of_own hrun hnode)]
  simp only [hterminal, Bool.not_true, Bool.false_eq_true, if_false]
  by_cases hsame : row.requestFingerprint = (reportClaim R request).requestFingerprint
  · rw [if_pos hsame] at hclaim ⊢
    rw [Tx.run_bind_of_yields hclaim]
    simp only [hanswers.1]
    rfl
  · rw [if_neg hsame] at hclaim ⊢
    rw [Tx.run_bind_of_yields hclaim]
    rfl

end AgentReportService

end LabBridge.Server
