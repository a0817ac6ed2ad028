import LabBridge.Agent.CsvParser
import LabBridge.Agent.ErrorSummary
import LabBridge.Agent.QueueTables
import LabBridge.Library.Sha256

/-!
# Building the report of a job

A report goes through the planned files in their order. A file without a valid archive counts as
not parsed; of any other the archived copy is parsed, each of its records is checked by the rules
of the task, and a file with an error is listed as failed.
-/

namespace LabBridge.Agent

open ByteText JsonText LabBridge.Core

/-! ## Quality rules -/

/-- The outcome of a check: whether the record passes, and what is said about it. -/
structure QcCheckResult where
  pass : Bool
  message : Bytes

/-- `looks_like_datetime`. -/
def looksLikeDatetime (value : Bytes) : Bool :=
  value.length == 19 && value.zipIdx.all fun entry =>
    if entry.2 = 4 ∨ entry.2 = 7 then entry.1 == byte '-'
    else if entry.2 = 10 then entry.1 == byte ' '
    else if entry.2 = 13 ∨ entry.2 = 16 then entry.1 == byte ':'
    else decide (IsDigit entry.1)

/-- `RequiredFieldsRule::check`. -/
def checkRequiredFields (record : ParsedRecord) : QcCheckResult :=
  if record.stationCode.isEmpty || record.deviceCode.isEmpty || record.recordTime.isEmpty then
    ⟨false, text "station_code, device_code and record_time are required"⟩
  else ⟨true, text "required fields are present"⟩

/-- `BasicTimestampRule::check`. -/
def checkBasicTimestamp (record : ParsedRecord) : QcCheckResult :=
  if looksLikeDatetime record.recordTime then ⟨true, text "record_time format is valid"⟩
  else ⟨false, text "record_time must match yyyy-mm-dd hh:mm:ss"⟩

/-- `run_rule`. -/
def runRule (config : QcRuleConfig) (record : ParsedRecord) : TaskRunReportQcResult :=
  let checked := if config.ruleType = text "required_fields" then checkRequiredFields record
    else checkBasicTimestamp record
  ⟨config.id, if checked.pass then text "pass" else text "failed",
    if checked.pass then text "passed" else text "failed", checked.message⟩

/-! ## Reports -/

/-- `make_manifest_idempotency_key`. -/
def makeManifestIdempotencyKey (nodeCode taskRunId : Bytes) : Bytes :=
  Sha256.sha256Hex (text "manifest\n" ++ nodeCode ++ text "\n" ++ taskRunId)

/-- `make_report_idempotency_key`. -/
def makeReportIdempotencyKey (nodeCode taskRunId : Bytes) : Bytes :=
  Sha256.sha256Hex (text "report\n" ++ nodeCode ++ text "\n" ++ taskRunId)

/-- A report in the making: its counts and records, its errors, its failed files, and the outcome
of every file so far. -/
structure ReportDraft where
  itemsTotal : ℤ := 0
  itemsSuccess : ℤ := 0
  itemsFailed : ℤ := 0
  parsedRecords : List TaskRunReportParsedRecord := []
  errors : ErrorSummary := {}
  failures : List TaskRunReportFailedFile := []
  parsedWithoutErrors : List Bool := []

/-- A file that never got a valid archive takes no part in parsing. -/
def PendingFilePlan.unparsed (file : PendingFilePlan) : Bool :=
  !file.errorDetail.isEmpty || file.rawFileId.isEmpty

/-- A parse without any error. -/
def ParseResult.clean (parsed : ParseResult) : Bool :=
  parsed.failure.isNone && parsed.errors.isEmpty

/-- The failure of a parsed file; its archive is the one of this run. -/
def parseFailed (file : PendingFilePlan) (message : Bytes) : TaskRunReportFailedFile :=
  ⟨file.sourcePath, file.originalName, text "parse", message, file.rawFileId⟩

/-- The report entry of a record with the results of the rules. -/
def reportedRecord (rules : List QcRuleConfig) (file : PendingFilePlan) (record : ParsedRecord) :
    TaskRunReportParsedRecord where
  rawFileId := file.rawFileId
  record := record
  qcResults := rules.map fun rule => runRule rule record

/-- A draft after a parsed file. -/
def ReportDraft.add (draft : ReportDraft) (rules : List QcRuleConfig) (file : PendingFilePlan)
    (parsed : ParseResult) : ReportDraft :=
  let outcomes := draft.parsedWithoutErrors ++ [parsed.clean]
  match parsed.failure with
  | some message =>
    { draft with
      itemsTotal := draft.itemsTotal + 1
      itemsFailed := draft.itemsFailed + 1
      errors := draft.errors.add (file.originalName ++ text ": " ++ message)
      failures := draft.failures ++ [parseFailed file message]
      parsedWithoutErrors := outcomes }
  | none =>
    { itemsTotal := draft.itemsTotal + (parsed.records.length + parsed.errors.length)
      itemsSuccess := draft.itemsSuccess + parsed.records.length
      itemsFailed := draft.itemsFailed + parsed.errors.length
      parsedRecords := draft.parsedRecords ++ parsed.records.map (reportedRecord rules file)
      errors := parsed.errors.foldl
        (fun errors error => errors.add (file.originalName ++ text ": " ++ error)) draft.errors
      -- the first of the errors stands for the file
      failures := draft.failures ++ (parsed.errors.head?.map (parseFailed file)).toList
      parsedWithoutErrors := outcomes }

section Reports

variable (J : Nlohmann) (content : Bytes → Option Bytes)

/-- One file of a report. -/
def reportFile (rules : List QcRuleConfig) (draft : ReportDraft) (file : PendingFilePlan) :
    Except AgentError ReportDraft :=
  if file.unparsed then
    .ok { draft with parsedWithoutErrors := draft.parsedWithoutErrors ++ [false] }
  else do
    let parsed ← parseCsv J (content file.archivePath)
    pure (draft.add rules file parsed)

/-- The draft of a job before its files: what failed before is part of the errors. -/
def startedDraft (job : RecoveredJob) : ReportDraft where
  errors := job.fileFailures.foldl
    (fun errors failed => errors.add (failed.originalName ++ text ": " ++ failed.message)) {}
  failures := job.fileFailures

/-- The draft of a job. -/
def draftReport (job : RecoveredJob) : Except AgentError ReportDraft :=
  job.files.foldlM (reportFile J content job.task.qcRules) (startedDraft job)

/-- The report of a job from its draft. -/
def reportOf (job : RecoveredJob) (finishedAt : Bytes) (draft : ReportDraft) :
    TaskRunReportRequest where
  taskRunId := job.taskRunId
  nodeCode := job.task.nodeCode
  idempotencyKey := makeReportIdempotencyKey job.task.nodeCode job.taskRunId
  status := if draft.errors.total = 0 ∧ draft.failures = [] then .succeeded else .failed
  finishedAt := finishedAt
  itemsTotal := draft.itemsTotal
  itemsSuccess := draft.itemsSuccess
  itemsFailed := draft.itemsFailed
  errorSummary := draft.errors.text
  parsedRecords := draft.parsedRecords
  hasFailedFiles := true
  failedFiles := draft.failures

end Reports

/-- The report of a job whose collection has failed as a whole. -/
def collectionFailureReport (job : RecoveredJob) (finishedAt error : Bytes) :
    TaskRunReportRequest where
  taskRunId := job.taskRunId
  nodeCode := job.task.nodeCode
  idempotencyKey := makeReportIdempotencyKey job.task.nodeCode job.taskRunId
  status := .failed
  finishedAt := finishedAt
  itemsTotal := 1
  itemsFailed := 1
  errorSummary := error
  hasFailedFiles := true
  failedFiles := if job.hasFileFailures then job.fileFailures else []

/-! ## Outcomes -/

variable {J : Nlohmann} {content : Bytes → Option Bytes}

/-- The outcome of a planned file: its archived copy is there and parses without an error. -/
def parsedCleanly (J : Nlohmann) (content : Bytes → Option Bytes) (file : PendingFilePlan) : Bool :=
  !file.unparsed && match parseCsv J (content file.archivePath) with
    | .ok parsed => parsed.clean
    | .error _ => false

/-- A file adds its outcome behind those before it. -/
theorem reportFile_outcomes {rules : List QcRuleConfig} {draft next : ReportDraft}
    {file : PendingFilePlan} (h : reportFile J content rules draft file = .ok next) :
    next.parsedWithoutErrors = draft.parsedWithoutErrors ++ [parsedCleanly J content file] := by
  unfold reportFile at h
  unfold parsedCleanly
  by_cases hunparsed : file.unparsed = true
  · rw [if_pos hunparsed] at h
    cases h
    rw [hunparsed]
    rfl
  · rw [if_neg hunparsed] at h
    obtain ⟨parsed, hparsed, h⟩ := Fallible.bind_eq_ok.mp h
    cases h
    rw [(Bool.not_eq_true _).mp hunparsed, hparsed, ReportDraft.add]
    cases hfailure : parsed.failure <;> rfl

/-- The outcomes of a draft are those of the files in their order. -/
theorem draftReport_outcomes {job : RecoveredJob} {draft : ReportDraft}
    (h : draftReport J content job = .ok draft) :
    draft.parsedWithoutErrors = job.files.map (parsedCleanly J content) := by
  have hfold : ∀ (files : List PendingFilePlan) (start : ReportDraft),
      files.foldlM (reportFile J content job.task.qcRules) start = .ok draft →
        draft.parsedWithoutErrors =
          start.parsedWithoutErrors ++ files.map (parsedCleanly J content) := by
    intro files
    induction files with
    | nil =>
      intro start h
      cases h
      rw [List.map_nil, List.append_nil]
    | cons file rest ih =>
      intro start h
      rw [List.foldlM_cons, Fallible.bind_eq_ok] at h
      obtain ⟨next, hnext, hrest⟩ := h
      rw [ih next hrest, reportFile_outcomes hnext, List.append_assoc]
      rfl
  exact hfold job.files (startedDraft job) h

end LabBridge.Agent
