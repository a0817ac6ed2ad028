import LabBridge.Server.AgentReportHttp
import LabBridge.Server.ReportClaims
import LabBridge.Server.Reference

/-!
# When a report is settled

A report that meets no outage is answered with a result or a client error exactly when no
cast and no column limit breaks it before a refusal. Any other report ends in a storage
exception, which the agent takes for a transient fault.
-/

namespace LabBridge.Server

open ByteText LabBridge.Core Storage Interaction ReceiptRepository AgentReportService AgentReportHttp

variable {R : Runtime} {session : Session} {db : Database}

/-- The rules of a report that passes the checks before its rows are stored. -/
theorem rules_of_readChecks {request : TaskRunReportRequest} {run : TaskRunRecord}
    (h : verdict (readChecks R db request run) = .passes) :
    ∀ parsed ∈ request.parsedRecords, parsed.rawFileId ≠ [] ∧ ∀ qc ∈ parsed.qcResults,
      qc.qcRuleId ≠ [] ∧ ∃ rule, db.selectRule R.postgres qc.qcRuleId = .ok (some rule) := by
  rw [verdict_eq_passes] at h
  have hids : checkIds request = none := by
    have hholds := h (.must (checkIds request).isNone) (by simp [readChecks])
    simpa [Check.holds] using hholds
  intro parsed hparsed
  obtain ⟨hid, hqcIds⟩ := checkIds_eq_none hids parsed hparsed
  refine ⟨hid, fun qc hqc => ⟨hqcIds qc hqc, ?_⟩⟩
  have hpasses : verdict (ruleChecks R db qc) = .passes := by
    refine verdict_eq_passes.mpr fun check hcheck => h check ?_
    have hmem : check ∈ (request.parsedRecords.flatMap
        TaskRunReportParsedRecord.qcResults).flatMap (ruleChecks R db) :=
      List.mem_flatMap.mpr ⟨qc, List.mem_flatMap.mpr ⟨parsed, hparsed, hqc⟩, hcheck⟩
    simp only [readChecks, List.mem_cons, List.mem_append]
    exact .inr (.inr (.inl hmem))
  obtain ⟨rule, hrule, -⟩ := ruleChecks_passes.mp hpasses
  exact ⟨rule, hrule⟩

/-- The checks on failed files depend on the raw files only. -/
theorem failedFileChecks_receipts (receipts) {taskRunId : Bytes}
    {retryFiles : Option (List TaskRunRetryFile)} {seen : List Bytes}
    {failedFiles : List TaskRunFailedFile} :
    failedFileChecks R { db with receipts := receipts } taskRunId retryFiles seen failedFiles =
      failedFileChecks R db taskRunId retryFiles seen failedFiles := by
  induction failedFiles generalizing seen with
  | nil => rfl
  | cons failed rest ih =>
    rw [failedFileChecks, failedFileChecks, ih]
    rfl

/-- The checks after the claim do not depend on the receipts. -/
theorem acceptanceChecks_receipts (receipts) {request : TaskRunReportRequest}
    {run : TaskRunRecord} : acceptanceChecks R { db with receipts := receipts } request run =
      acceptanceChecks R db request run := by
  unfold acceptanceChecks readChecks failedFilesChecks
  rw [failedFileChecks_receipts]
  rfl

/-- A claimed report obeys the checks listed for it. -/
theorem acceptance_obeys {request : TaskRunReportRequest} {run : TaskRunRow}
    {record : TaskRunRecord} {row : ReceiptRow}
    (hrun : ServedRun R.postgres request.taskRunId request.nodeCode run db)
    (hne : request.taskRunId ≠ []) (hended : request.status.isTerminal = true)
    (hrow : row ∈ db.receipts.rows) (hopen : row.response = none) :
    Tx.Obeys R.postgres session (do
      checkReport R request record
      let created ← recordParsedRecords request request.parsedRecords [] {}
      TaskRunService.finish R (finishRequest request)
      complete (decimal row.id) {
        parsedRecordIds := created.parsedRecordIds
        qcResultIds := created.qcResultIds
        alertIds := created.alertIds }
      pure (reportResult {
        parsedRecordIds := created.parsedRecordIds
        qcResultIds := created.qcResultIds
        alertIds := created.alertIds } false)) db
      (acceptanceChecks R db request record) fun _ _ => True := by
  refine Tx.obeys_bind (checkReport_obeys hrun.named hne) ?_
  rintro hpasses ⟨⟩ reached rfl
  have hrules := rules_of_readChecks hpasses
  have hverified : Verified R.postgres reached request.taskRunId [] := by simp [Verified]
  have hnone : Created.Valid {} := ⟨areIds_nil, areIds_nil, areIds_nil⟩
  refine Tx.obeys_bind ((recordParsedRecords_obeys hrun hne (.refl reached) hverified
    hrules).of_yields fun created stored hyields hstoring =>
      And.intro hstoring (recordParsedRecords_yields hrun.named hnone hyields).1) ?_
  rintro - created stored ⟨hstoring, hvalid⟩
  refine Tx.obeys_bind_free (finish_obeys (hrun.storing hstoring) hne hended) ?_
  rintro - ⟨⟩ finished hreceipts
  have hstored : row ∈ finished.receipts.rows := by
    rw [hreceipts, hstoring.receipts]
    exact hrow
  refine Tx.obeys_bind_free (complete_obeys hstored hopen
    ⟨areIds_nil, hvalid.1, hvalid.2.1, hvalid.2.2⟩) ?_
  rintro - ⟨⟩ reached -
  exact Tx.obeys_pure trivial

/-- A report is settled exactly when none of its checks breaks it. -/
theorem acceptTaskRunReport_settles {request : TaskRunReportRequest}
    (hsound : Sound R.postgres db) (hended : request.status.isTerminal = true) :
    Tx.Settles R.postgres session (acceptTaskRunReport R request) db
      (reportChecks R db request) := by
  unfold acceptTaskRunReport reportChecks
  split
  · rename_i hkey
    rw [hkey]
    exact Tx.settles_of_isSettled trivial (by simp)
  rename_i hkey
  refine Tx.Settles.of_verdict_eq ?_ (by rw [hkey])
  refine Tx.settles_bind (validateTaskRunNode_obeys hsound) ?_
  rintro record reached ⟨rfl, hne, run, hrun, hfound⟩
  rw [hfound, Option.map_some, Option.getD_some]
  simp only [hended, Bool.not_true, Bool.false_eq_true, if_false]
  change Tx.Settles R.postgres session _ reached ([castCheck _] ++ (.must _ :: _))
  refine Tx.settles_bind (claim_obeys hsound hrun (length_le_of_validateIdempotencyKey hkey)) ?_
  rintro result reached' (⟨hclaimed, hother⟩ | ⟨hfree, row, receipts, rfl, hopen, hrow, rfl⟩)
  · rw [hclaimed]
    cases result with
    | acquired id => exact absurd rfl (hother id)
    | replay receipt => exact Tx.settles_of_isSettled trivial (by simp)
    | idempotencyConflict receipt => exact Tx.settles_of_isSettled trivial (by simp)
    | taskRunConflict receipt => exact Tx.settles_of_isSettled trivial (by simp)
  · rw [hfree]
    have hserved : ServedRun R.postgres request.taskRunId request.nodeCode run
        { reached with receipts := receipts } := { hrun with }
    refine (acceptance_obeys hserved hne hended hrow hopen).settles.of_verdict_eq ?_
    rw [acceptanceChecks_receipts receipts]
    rfl

/-- A settled call is answered with a code that ends the delivery, any other one with a
transient fault. -/
theorem isSettled_iff_not_transient {α : Type} {outcome : Except Stop α} :
    IsSettled outcome ↔ isTransient (responseCode 200 outcome) = false := by
  rcases outcome with (failure | fault | message) | result
  · simp [IsSettled, responseCode, isTransient_errorCode]
  · simp [IsSettled, responseCode, isTransient]
  · simp [IsSettled, responseCode, isTransient]
  · simp [IsSettled, responseCode, isTransient]

/-- What the executor answers to a report without an outage. -/
theorem execute_settles {α : Type} {tx : Tx α} {checks : List Check}
    (h : Tx.Settles R.postgres session tx db checks)
    (houtage : (tx.execute R.postgres session db).1 ≠ .error (.failed .outage)) :
    IsSettled (tx.execute R.postgres session db).1 ↔ verdict checks ≠ .broken := by
  rcases Tx.execute_fst_eq R.postgres session tx db with hfault | hsame
  · exact absurd hfault houtage
  · rw [hsame] at houtage ⊢
    exact h houtage

/-- Every report that the HTTP layer accepts ends, where the database does not fail by itself,
in a result or a client error exactly when no cast or column limit breaks it before a refusal.
Every other report is answered with a fault that the agent takes for a transient one. -/
theorem reports_settled_iff {J : JsonCpp} {body : JsonText.Json} {request : TaskRunReportRequest}
    (hdb : Reachable R db) (hparse : parseTaskRunReport J body = .ok request)
    (houtage : ((acceptTaskRunReport R request).execute R.postgres session db).1 ≠
      .error (.failed .outage)) :
    (IsSettled ((acceptTaskRunReport R request).execute R.postgres session db).1 ∧
      isTransient (responseCode 200
        ((acceptTaskRunReport R request).execute R.postgres session db).1) = false) ↔
      verdict (reportChecks R db request) ≠ .broken := by
  rw [← isSettled_iff_not_transient, and_self]
  exact execute_settles (acceptTaskRunReport_settles hdb.sound (parseTaskRunReport_ok hparse)) houtage

/-- A report of one row with the given record time, as it arrives. -/
def reportBody (recordTime : String) : JsonText.Json :=
  .record [
    ("finished_at", .str (text "2024-05-01T08:01:00Z")),
    ("idempotency_key", .str (text "report-1")),
    ("node_code", .str (text "lab-node")),
    ("parsed_records", .arr [.record [
      ("payload_json", .str (text "[]")),
      ("raw_file_id", .str (text "1")),
      ("record_time", .str (text recordTime))]]),
    ("status", .str (text "succeeded")),
    ("task_run_id", .str (text "1"))]

/-- The row that such a report carries. -/
def reportedRow (recordTime : String) : TaskRunReportParsedRecord where
  rawFileId := text "1"
  record := {
    stationCode := []
    deviceCode := []
    recordTime := text recordTime
    payloadJson := text "[]" }
  qcResults := []

/-- A report with a time that the database reads is settled. -/
theorem reports_settled_site :
    verdict (reportChecks Reference.runtime
      (Reference.after [.start Reference.scheduledStart, .manifest (Reference.manifest "files-1")])
      (Reference.report [reportedRow "2024-05-01T08:00:00Z"])) ≠ .broken := by
  have hparse : parseTaskRunReport Reference.jsonCpp (reportBody "2024-05-01T08:00:00Z") =
      .ok (Reference.report [reportedRow "2024-05-01T08:00:00Z"]) := by
    decide +kernel
  have hanswer : ((acceptTaskRunReport Reference.runtime
      (Reference.report [reportedRow "2024-05-01T08:00:00Z"])).execute Reference.runtime.postgres
        (.first Reference.now) (Reference.after
          [.start Reference.scheduledStart, .manifest (Reference.manifest "files-1")])).1 =
      .ok ⟨[text "1"], [], [], false⟩ := by
    decide +kernel
  refine (reports_settled_iff (Reference.reachable_after _) hparse (by rw [hanswer]; nofun)).mp ?_
  rw [hanswer]
  exact ⟨trivial, rfl⟩

/-- A report whose row has a record time that is no time is accepted by the HTTP layer and
ends in a storage exception. -/
theorem not_reports_settled :
    Reachable Reference.runtime (Reference.after
        [.start Reference.scheduledStart, .manifest (Reference.manifest "files-1")]) ∧
      parseTaskRunReport Reference.jsonCpp (reportBody "n/a") =
        .ok (Reference.report [reportedRow "n/a"]) ∧
      ((acceptTaskRunReport Reference.runtime (Reference.report [reportedRow "n/a"])).execute
          Reference.postgres (.first Reference.now) (Reference.after
            [.start Reference.scheduledStart, .manifest (Reference.manifest "files-1")])).1 =
        .error (.failed .rejected) :=
  ⟨Reference.reachable_after _, by decide +kernel, by decide +kernel⟩

end LabBridge.Server
