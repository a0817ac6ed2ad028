import LabBridge.Server.Acceptance
import LabBridge.Server.Obeys

/-!
# The checks a report passes

Every check that a report meets, in the order of the source: the refusals of the service,
and the casts and column limits of the database. All of them are computed from the request
and the tables before the call. The second half shows that the reading part of the service
makes exactly the checks listed for it.
-/

namespace LabBridge.Server

open ByteText LabBridge.Core Storage Interaction AgentReportService

/-- What a read finds. -/
def found {α : Type} : Answer (Option α) → Option α
  | .ok answer => answer
  | .error _ => none

@[simp] theorem found_ok {α : Type} (answer : Option α) : found (.ok answer) = answer := rfl

section Lists

variable (R : Runtime) (db : Database)

/-- The checks on the run of a request: it exists and belongs to the node. -/
def runChecks (taskRunId nodeCode : Bytes) : List Check :=
  let run := db.selectRunById R.postgres taskRunId
  [.must (taskRunId != []), .must (nodeCode != []), castCheck run, .must (found run).isSome,
    .must ((found run).any fun run => run.nodeCode == nodeCode)]

/-- No receipt is stored under the key of a report or for its run. -/
def isUnclaimed (request : TaskRunReportRequest) : Bool :=
  (found (db.selectReceiptByKey R.postgres request.nodeCode .taskRunReport
      request.idempotencyKey)).isNone &&
    (found (db.selectReportReceipt R.postgres request.taskRunId)).isNone

/-- The checks of `claim`. -/
def claimChecks (request : TaskRunReportRequest) : List Check :=
  [castCheck (R.postgres.textParam request.idempotencyKey), .must (isUnclaimed R db request)]

/-- The checks on the rule of a result: it exists and is enabled. -/
def ruleChecks (qc : TaskRunReportQcResult) : List Check :=
  let rule := db.selectRule R.postgres qc.qcRuleId
  [castCheck rule, .must (found rule).isSome, .must ((found rule).any QcRuleRecord.enabled)]

/-- The inputs a retry run was created with, if any. -/
def storedRetryFiles (taskRunId : Bytes) : Option (List TaskRunRetryFile) :=
  (found (db.selectRetryFiles R.postgres taskRunId)).bind (parseRetryFilesJson R.json)

/-- The checks on the archive reference of a failed file. -/
def archiveChecks (taskRunId : Bytes) (archiveTarget : Option TaskRunRetryFile)
    (failed : TaskRunFailedFile) : List Check :=
  let rawFile := db.selectRawFile R.postgres failed.archiveRawFileId
  if failed.archiveRawFileId = [] then [.must archiveTarget.isNone]
  else
    [castCheck rawFile, .must (((found rawFile).any fun file => file.taskRunId == taskRunId) ||
      archiveTarget.any fun file => file.archiveRawFileId == failed.archiveRawFileId)]

/-- The checks on the failed files of a report. -/
def failedFileChecks (taskRunId : Bytes) (retryFiles : Option (List TaskRunRetryFile)) :
    List Bytes → List TaskRunFailedFile → List Check
  | _, [] => []
  | seen, failed :: rest =>
    let target := (retryFiles.getD []).find? fun file => file.sourcePath == failed.sourcePath
    let archiveTarget := target.filter fun file => file.inputType == text "archive"
    .must (retryFiles.isNone || target.isSome) :: .must (!seen.contains failed.sourcePath) ::
      (archiveChecks R db taskRunId archiveTarget failed ++
        failedFileChecks taskRunId retryFiles (failed.sourcePath :: seen) rest)

/-- The checks of `validate_failed_files`. -/
def failedFilesChecks (request : TaskRunReportRequest) : List Check :=
  if request.hasFailedFiles then
    .must (request.status != .succeeded || request.failedFiles == []) ::
      failedFileChecks R db request.taskRunId (storedRetryFiles R db request.taskRunId) []
        request.failedFiles
  else []

/-- The checks on the run and the rules of a claimed report. -/
def readChecks (request : TaskRunReportRequest) (run : TaskRunRecord) : List Check :=
  .must (!run.status.isTerminal) :: .must (checkIds request).isNone ::
    ((request.parsedRecords.flatMap TaskRunReportParsedRecord.qcResults).flatMap
      (ruleChecks R db) ++ failedFilesChecks R db request)

/-- The checks on a rule result of a parsed row. -/
def qcResultChecks (pg : Postgres) (qc : TaskRunReportQcResult) : List Check :=
  [.must (qc.level != []), .must (qc.result != []), castCheck (pg.varcharParam 32 qc.level),
    castCheck (pg.varcharParam 32 qc.result), castCheck (pg.textParam qc.message)]

/-- The checks on the raw file that a parsed row names. -/
def rawFileChecks (taskRunId rawFileId : Bytes) : List Check :=
  let file := db.selectRawFile R.postgres rawFileId
  [castCheck file, .must (found file).isSome,
    .must ((found file).any fun file => file.taskRunId == taskRunId)]

/-- The checks on the columns of a parsed row. -/
def columnChecks (pg : Postgres) (record : ParsedRecord) (parseStatus : Bytes) : List Check :=
  [castCheck (pg.nullableVarcharParam 64 record.stationCode),
    castCheck (pg.nullableVarcharParam 64 record.deviceCode),
    castCheck (pg.nullableTimeParam record.recordTime),
    castCheck (pg.jsonParam record.payloadJson),
    castCheck (pg.varcharParam 32 parseStatus)]

/-- The checks on a parsed row. -/
def parsedRecordChecks (taskRunId : Bytes) (parsed : TaskRunReportParsedRecord) : List Check :=
  rawFileChecks R db taskRunId parsed.rawFileId ++
    (.must (parsed.record.payloadJson != []) ::
      columnChecks R.postgres parsed.record (orDefault parsed.parseStatus "parsed") ++
        parsed.qcResults.flatMap (qcResultChecks R.postgres))

/-- The failed-file list as `finish` prints it. -/
def printedFailedFiles (request : TaskRunReportRequest) : Option Bytes :=
  if request.hasFailedFiles then toFailedFilesJson R.json request.failedFiles else some []

/-- The checks of `finish`. -/
def finishChecks (request : TaskRunReportRequest) : List Check :=
  [.cast (printedFailedFiles R request).isSome,
    castCheck (R.postgres.nullableTimeParam request.finishedAt),
    castCheck (R.postgres.textParam request.errorSummary),
    castCheck (R.postgres.nullableJsonParam ((printedFailedFiles R request).getD []))]

/-- The checks of a report after its receipt was claimed. -/
def acceptanceChecks (request : TaskRunReportRequest) (run : TaskRunRecord) : List Check :=
  readChecks R db request run ++
    (request.parsedRecords.flatMap (parsedRecordChecks R db request.taskRunId) ++
      finishChecks R request)

/-- Every check that `accept_task_run_report` makes on a report that ends its run, in the
order of the source. -/
def reportChecks (request : TaskRunReportRequest) : List Check :=
  .must (validateIdempotencyKey request.idempotencyKey).isNone ::
    (runChecks R db request.taskRunId request.nodeCode ++ (claimChecks R db request ++
      ((found (db.selectRunById R.postgres request.taskRunId)).map
        (acceptanceChecks R db request)).getD []))

end Lists

variable {R : Runtime} {session : Session} {db : Database}

/-- A read by key fails by its cast only. -/
theorem rejects_byKey {α : Type} {pg : Postgres} {id : Bytes} {read : Option RowId → α} :
    Answer.Rejects (do let key ← pg.idParam id; pure (read key) : Answer α) :=
  (Postgres.rejects_idParam id).bind fun _ => Answer.rejects_pure _

/-- A rule that was read and is enabled passes its checks. -/
theorem ruleChecks_passes {qc : TaskRunReportQcResult} :
    verdict (ruleChecks R db qc) = .passes ↔
      ∃ rule, db.selectRule R.postgres qc.qcRuleId = .ok (some rule) ∧ rule.enabled = true := by
  unfold ruleChecks
  rcases db.selectRule R.postgres qc.qcRuleId with fault | _ | rule
  · simp [castCheck, Except.isOk, Except.toBool]
  · simp [castCheck, Except.isOk, Except.toBool]
  · cases h : rule.enabled <;> simp [castCheck, Except.isOk, Except.toBool, h]

namespace AgentReportService

/-- The rules of a report are checked as listed. -/
theorem checkRules_obeys {checked : List Bytes} {results : List TaskRunReportQcResult}
    (hids : ∀ qc ∈ results, qc.qcRuleId ≠ [])
    (hchecked : ∀ qc : TaskRunReportQcResult, qc.qcRuleId ∈ checked →
      verdict (ruleChecks R db qc) = .passes) :
    Tx.Obeys R.postgres session (checkRules checked results) db
      (results.flatMap (ruleChecks R db)) fun _ reached => reached = db := by
  induction results generalizing checked with
  | nil => exact Tx.obeys_pure rfl
  | cons qc rest ih =>
    have hrest : ∀ other ∈ rest, other.qcRuleId ≠ [] :=
      fun other hother => hids other (List.mem_cons_of_mem _ hother)
    have hrejects : (db.selectRule R.postgres qc.qcRuleId).Rejects := rejects_byKey
    rw [List.flatMap_cons, checkRules]
    split
    · rename_i hseen
      refine (ih hrest hchecked).of_verdict_eq ?_
      rw [verdict_append, hchecked qc (by simpa using hseen), Verdict.passes_andThen]
    · rw [QcService.findRule, if_neg (hids qc (by simp))]
      refine Tx.obeys_read rfl hrejects fun answer hanswer => ?_
      rw [hanswer, found_ok]
      cases answer with
      | none => exact Tx.obeys_refuse rfl
      | some rule =>
        refine Tx.Obeys.of_verdict_eq (Tx.obeys_unless (by simp)
          fun henabled => ih hrest fun other hother => ?_) (verdict_must_true _)
        rcases List.mem_cons.mp hother with hsame | hother
        · exact ruleChecks_passes.mpr ⟨rule, hsame ▸ hanswer, by simpa using henabled⟩
        · exact hchecked other hother

/-- The retry files of a run are read without a check beyond the cast of its identifier. -/
theorem findRetryFiles_obeys {taskRunId : Bytes} {run : RowId}
    (hrun : R.postgres.idParam taskRunId = .ok (some run)) (hid : taskRunId ≠ []) :
    Tx.Obeys R.postgres session (TaskRunService.findRetryFiles R taskRunId) db [] fun answer reached =>
      answer = storedRetryFiles R db taskRunId ∧ reached = db := by
  rw [TaskRunService.findRetryFiles, if_neg hid, TaskRunRepository.findRetryFiles]
  have hread : db.selectRetryFiles R.postgres taskRunId =
      .ok ((db.taskRuns.find? run).map fun run => run.retryFiles.getD []) := by
    simp [Database.selectRetryFiles, hrun]
  have hpasses : verdict [castCheck (db.selectRetryFiles R.postgres taskRunId)] = .passes := by
    rw [hread]
    rfl
  have hrejects : (db.selectRetryFiles R.postgres taskRunId).Rejects := rejects_byKey
  refine (Tx.obeys_read rfl hrejects fun stored hstored => ?_).of_verdict_eq hpasses.symm
  rw [storedRetryFiles, hstored]
  cases stored <;> exact Tx.obeys_pure ⟨rfl, rfl⟩

/-- The failed files of a report are checked as listed. -/
theorem checkFailedFiles_obeys {taskRunId : Bytes}
    {retryFiles : Option (List TaskRunRetryFile)} {seen : List Bytes}
    {failedFiles : List TaskRunFailedFile} :
    Tx.Obeys R.postgres session (checkFailedFiles taskRunId retryFiles seen failedFiles) db
      (failedFileChecks R db taskRunId retryFiles seen failedFiles)
      fun _ reached => reached = db := by
  induction failedFiles generalizing seen with
  | nil => exact Tx.obeys_pure rfl
  | cons failed rest ih =>
    rw [checkFailedFiles, failedFileChecks]
    refine Tx.obeys_unless ?_ fun _ => Tx.obeys_unless (by simp) fun _ => ?_
    · cases retryFiles <;> simp
    unfold archiveChecks
    split
    · refine Tx.obeys_unless ?_ fun _ => ih
      cases Option.filter _ _ <;> simp
    · rename_i harchive
      have hrejects : (db.selectRawFile R.postgres failed.archiveRawFileId).Rejects :=
        rejects_byKey
      rw [ResultService.findRawFile, if_neg harchive]
      refine Tx.obeys_read rfl hrejects fun answer hanswer => ?_
      rw [hanswer, found_ok]
      dsimp only
      split
      · rename_i hallowed
        rw [hallowed]
        exact ih
      · rename_i hother
        rw [Bool.eq_false_iff.mpr hother]
        split <;> exact Tx.obeys_refuse rfl

/-- The identifiers of a report that passes their check are not empty. -/
theorem checkIds_eq_none {request : TaskRunReportRequest} (h : checkIds request = none) :
    ∀ parsed ∈ request.parsedRecords,
      parsed.rawFileId ≠ [] ∧ ∀ qc ∈ parsed.qcResults, qc.qcRuleId ≠ [] := by
  intro parsed hparsed
  have hparsed := List.findSome?_eq_none_iff.mp h parsed hparsed
  split at hparsed
  · cases hparsed
  · rename_i hid
    split at hparsed
    · cases hparsed
    · rename_i hqc
      exact ⟨hid, by simpa using hqc⟩

/-- A claimed report is checked as listed before anything but its receipt is written. -/
theorem checkReport_obeys {request : TaskRunReportRequest} {run : TaskRunRecord} {id : RowId}
    (hid : R.postgres.idParam request.taskRunId = .ok (some id)) (hne : request.taskRunId ≠ []) :
    Tx.Obeys R.postgres session (checkReport R request run) db (readChecks R db request run)
      fun _ reached => reached = db := by
  unfold checkReport readChecks
  refine Tx.obeys_unless (by simp) fun _ => ?_
  split
  · rename_i hcheck
    rw [hcheck]
    exact Tx.obeys_refuse rfl
  · rename_i hcheck
    rw [hcheck]
    have hids := checkIds_eq_none hcheck
    refine Tx.Obeys.of_verdict_eq (Tx.obeys_bind (checkRules_obeys ?_ (by simp)) ?_)
      (verdict_must_true _)
    · intro qc hqc
      obtain ⟨parsed, hparsed, hqc⟩ := List.mem_flatMap.mp hqc
      exact (hids parsed hparsed).2 qc hqc
    · rintro - _ reached rfl
      unfold failedFilesChecks
      split
      · unfold validateFailedFiles
        refine Tx.obeys_unless ?_ fun _ => ?_
        · by_cases h : request.status = .succeeded <;> simp [h]
        refine Tx.obeys_bind (findRetryFiles_obeys hid hne) ?_
        rintro - _ _ ⟨rfl, rfl⟩
        exact checkFailedFiles_obeys
      · exact Tx.obeys_pure rfl

end AgentReportService

end LabBridge.Server
