import LabBridge.Server.Acceptance

/-!
# The texts of refusals

A start, a manifest or a report that is refused answers with one of a few fixed texts. None of them
holds a value of a stored row.
-/

namespace LabBridge.Server

open ByteText LabBridge.Core Interaction

/-- The texts that starts, manifests and reports are refused with. -/
def refusalTexts : List String :=
  ["node_code is required", "task_id is required", "execution_key is required",
    "scheduled_for must be empty for manual task runs",
    "started_at must be an RFC 3339 UTC timestamp",
    "execution_key does not match an accepted manual task run", "task is not found",
    "task run is not found", "execution_key must not exceed 128 characters",
    "trigger_type must be scheduled", "scheduled_for must be an RFC 3339 UTC timestamp",
    "task is disabled", "task does not belong to node",
    "execution_key was already used for a different scheduled run", "idempotency_key is required",
    "idempotency_key must not exceed 128 characters", "task_run_id is required",
    "task run does not belong to node", "original_name is required", "storage_path is required",
    "idempotency_key was already used for a different request",
    "task run already has a completed report", "finish status must be succeeded or failed",
    "task run is already finished", "raw_file_id is required", "qc_rule_id is required",
    "qc rule is not found", "qc rule is disabled", "succeeded task runs cannot carry failed files",
    "failed files must come from the fixed retry list",
    "failed files must be unique by source_path",
    "archive retry target must keep its archive reference",
    "failed file archive reference does not belong to the task run",
    "failed file archive reference is not allowed for this report", "raw file is not found",
    "raw file does not belong to task run", "payload_json is required",
    "parsed_record_id is required", "level is required", "result is required"]

/-- A failure with a fixed text. -/
def Fixed (failure : Failure) : Prop := ∃ known ∈ refusalTexts, failure.message = text known

/-- A stop that refuses with a fixed text or is an exception. -/
def FixedStop : Stop → Prop
  | .refused failure => Fixed failure
  | _ => True

/-- A transaction whose refusals have fixed texts. -/
abbrev Discreet {α : Type} (tx : Tx α) : Prop := tx.Stops FixedStop

variable {R : Runtime} {pg : Postgres} {session : Session} {db : Database} {α β : Type}

/-- A refusal of a discreet transaction has a fixed text. -/
theorem Discreet.refused {tx : Tx α} (h : Discreet tx) {failure : Failure}
    (hrefused : (tx.execute pg session db).1 = .error (.refused failure)) : Fixed failure := by
  rcases Tx.execute_fst_eq pg session tx db with hfault | hrun
  · rw [hfault] at hrefused
    cases hrefused
  · rw [hrun] at hrefused
    refine h.run_error (fun statement state stop hstop => ?_) hrefused
    unfold handler at hstop
    split at hstop
    · cases hstop
    · cases hstop
      trivial

/-- A guarded body is discreet when its refusal and what lies behind it are. -/
theorem discreet_unless {condition : Prop} [Decidable condition] {failure : Failure} {tx : Tx α}
    (hfixed : Fixed failure) (h : Discreet tx) :
    Discreet (if condition then refuse failure else tx : Tx α) := by
  split
  · exact hfixed
  · exact h

/-- A branching body is discreet when its branches are. -/
theorem discreet_ite {condition : Prop} [Decidable condition] {yes no : Tx α}
    (hyes : Discreet yes) (hno : Discreet no) :
    Discreet (if condition then yes else no : Tx α) := by
  split
  · exact hyes
  · exact hno

/-- A statement is discreet when what follows it is. -/
theorem discreet_sql {statement : Statement α} {next : α → Tx β}
    (h : ∀ answer, Discreet (next answer)) : Discreet (sql statement >>= next) := h

/-- A fixed text is known. -/
theorem fixed_invalid {known : String} (h : known ∈ refusalTexts) :
    Fixed (.invalid (text known)) := ⟨known, h, rfl⟩

/-- A fixed text of a missing object is known. -/
theorem fixed_notFound {known : String} (h : known ∈ refusalTexts) :
    Fixed (.notFound (text known)) := ⟨known, h, rfl⟩

/-- A fixed text of a conflict is known. -/
theorem fixed_conflict {known : String} (h : known ∈ refusalTexts) :
    Fixed (.conflict (text known)) := ⟨known, h, rfl⟩

namespace TaskRunService

open TaskRunRepository

/-- A manual start is discreet. -/
theorem startManual_discreet (request : StartTaskRunRequest) : Discreet (startManual request) := by
  refine discreet_unless (fixed_invalid (by simp [refusalTexts])) ?_
  refine discreet_unless (fixed_invalid (by simp [refusalTexts])) ?_
  refine discreet_unless (fixed_invalid (by simp [refusalTexts])) ?_
  refine discreet_sql fun answer => ?_
  cases answer with
  | none => exact fixed_conflict (by simp [refusalTexts])
  | some run =>
    refine discreet_unless (fixed_conflict (by simp [refusalTexts])) ?_
    refine discreet_ite trivial (discreet_sql fun found => ?_)
    refine discreet_unless (fixed_notFound (by simp [refusalTexts])) ?_
    refine discreet_sql fun locked => ?_
    cases locked with
    | none => exact fixed_notFound (by simp [refusalTexts])
    | some locked => exact discreet_ite trivial (discreet_sql fun _ => trivial)

/-- The checks of a scheduled start have fixed texts. -/
theorem checkScheduled_fixed {request : StartTaskRunRequest} {failure : Failure}
    (h : checkScheduled request = some failure) : Fixed failure := by
  unfold checkScheduled at h
  split_ifs at h
  all_goals
    obtain rfl := Option.some.inj h
    exact fixed_invalid (by simp [refusalTexts])

/-- A scheduled start is discreet. -/
theorem startScheduled_discreet (request : StartTaskRunRequest) :
    Discreet (startScheduled request) := by
  unfold startScheduled
  split
  · rename_i failure hfailure
    apply checkScheduled_fixed
    split at hfailure
    · exact hfailure
    · cases hfailure
  · refine discreet_sql fun answer => ?_
    cases answer with
    | none => exact fixed_notFound (by simp [refusalTexts])
    | some task =>
      refine discreet_unless (fixed_conflict (by simp [refusalTexts])) ?_
      refine discreet_unless (fixed_conflict (by simp [refusalTexts])) (discreet_ite ?_ ?_)
      · refine Program.Stops.bind (discreet_sql fun id => ?_) fun id => trivial
        cases id <;> trivial
      · refine Program.Stops.bind (discreet_sql fun id => ?_) fun started =>
          discreet_unless (fixed_conflict (by simp [refusalTexts])) trivial
        cases id with
        | some id => trivial
        | none =>
          refine discreet_sql fun existing => ?_
          cases existing <;> trivial

/-- A start is discreet. -/
theorem start_discreet (request : StartTaskRunRequest) : Discreet (start request) := by
  refine discreet_unless (fixed_invalid (by simp [refusalTexts])) ?_
  refine discreet_unless (fixed_invalid (by simp [refusalTexts])) ?_
  exact discreet_ite (startManual_discreet request) (startScheduled_discreet request)

/-- Finishing a run is discreet. -/
theorem finish_discreet (request : FinishTaskRunRequest) : Discreet (finish R request) := by
  refine discreet_unless (fixed_invalid (by simp [refusalTexts])) ?_
  refine discreet_unless (fixed_invalid (by simp [refusalTexts])) ?_
  refine discreet_sql fun answer => ?_
  cases answer with
  | none => exact fixed_notFound (by simp [refusalTexts])
  | some run =>
    refine Program.Stops.bind ?_ fun json => discreet_sql fun _ => trivial
    unfold printed
    split <;> trivial

end TaskRunService

namespace ReceiptRepository

/-- Claiming a receipt is discreet. -/
theorem claim_discreet (request : AgentReportReceiptClaim) : Discreet (claim request) := by
  refine discreet_sql fun inserted => ?_
  cases inserted with
  | some id => trivial
  | none =>
    refine discreet_sql fun found => ?_
    cases found with
    | some record => exact discreet_ite trivial (discreet_ite trivial trivial)
    | none =>
      refine discreet_ite (discreet_sql fun existing => ?_) trivial
      cases existing <;> trivial

/-- Joining identifiers is discreet. -/
theorem joinIds_discreet (ids : List Bytes) : ∀ joined, Discreet (joinIds ids joined) := by
  induction ids with
  | nil => exact fun _ => trivial
  | cons id rest ih => exact fun joined => discreet_ite trivial (discreet_ite trivial (ih _))

/-- Completing a receipt is discreet. -/
theorem complete_discreet (receiptId : Bytes) (response : AgentReportReceiptResponse) :
    Discreet (complete receiptId response) := by
  refine Program.Stops.bind (joinIds_discreet _ _) fun _ => ?_
  refine Program.Stops.bind (joinIds_discreet _ _) fun _ => ?_
  refine Program.Stops.bind (joinIds_discreet _ _) fun _ => ?_
  refine Program.Stops.bind (joinIds_discreet _ _) fun _ => discreet_sql fun updated => ?_
  cases updated <;> trivial

end ReceiptRepository

namespace AgentReportService

/-- The key check has fixed texts. -/
theorem validateIdempotencyKey_fixed {key : Bytes} {failure : Failure}
    (h : validateIdempotencyKey key = some failure) : Fixed failure := by
  unfold validateIdempotencyKey at h
  split_ifs at h
  all_goals
    obtain rfl := Option.some.inj h
    exact fixed_invalid (by simp [refusalTexts])

/-- The ownership check is discreet. -/
theorem validateTaskRunNode_discreet (taskRunId nodeCode : Bytes) :
    Discreet (validateTaskRunNode taskRunId nodeCode) := by
  refine discreet_unless (fixed_invalid (by simp [refusalTexts])) ?_
  refine discreet_unless (fixed_invalid (by simp [refusalTexts])) ?_
  refine Program.Stops.bind (discreet_ite trivial fun _ => trivial) fun answer => ?_
  cases answer with
  | none => exact fixed_notFound (by simp [refusalTexts])
  | some run => exact discreet_unless (fixed_conflict (by simp [refusalTexts])) trivial

/-- Registering a file is discreet. -/
theorem recordRawFile_discreet (record : RawFileRecord) :
    Discreet (ResultService.recordRawFile record) := by
  refine discreet_unless (fixed_invalid (by simp [refusalTexts])) ?_
  refine discreet_unless (fixed_invalid (by simp [refusalTexts])) ?_
  refine discreet_unless (fixed_invalid (by simp [refusalTexts])) ?_
  refine discreet_unless (fixed_invalid (by simp [refusalTexts])) ?_
  refine discreet_sql fun answer => ?_
  cases answer with
  | none => exact fixed_notFound (by simp [refusalTexts])
  | some run =>
    refine discreet_unless (fixed_conflict (by simp [refusalTexts])) (discreet_sql fun id => ?_)
    cases id <;> trivial

/-- Registering files is discreet. -/
theorem recordFiles_discreet (request : RawFileManifestRequest)
    (files : List RawFileManifestEntry) : Discreet (recordFiles request files) := by
  induction files with
  | nil => trivial
  | cons file rest ih =>
    exact Program.Stops.bind (recordRawFile_discreet _) fun id =>
      Program.Stops.bind ih fun ids => trivial

/-- A manifest is discreet. -/
theorem acceptRawFileManifest_discreet (request : RawFileManifestRequest) :
    Discreet (acceptRawFileManifest R request) := by
  unfold acceptRawFileManifest
  split
  · exact validateIdempotencyKey_fixed (by assumption)
  · refine Program.Stops.bind (validateTaskRunNode_discreet _ _) fun _ => ?_
    refine Program.Stops.bind (ReceiptRepository.claim_discreet _) fun claimed => ?_
    cases claimed with
    | acquired receiptId =>
      exact Program.Stops.bind (recordFiles_discreet _ _) fun _ =>
        Program.Stops.bind (ReceiptRepository.complete_discreet _ _) fun _ => trivial
    | replay receipt => trivial
    | idempotencyConflict receipt => exact fixed_conflict (by simp [refusalTexts])
    | taskRunConflict receipt => exact fixed_conflict (by simp [refusalTexts])

/-- The identifier checks of a report have fixed texts. -/
theorem checkIds_fixed {request : TaskRunReportRequest} {failure : Failure}
    (h : checkIds request = some failure) : Fixed failure := by
  obtain ⟨parsed, -, h⟩ := List.exists_of_findSome?_eq_some h
  split_ifs at h
  all_goals
    obtain rfl := Option.some.inj h
    exact fixed_invalid (by simp [refusalTexts])

/-- The rule checks of a report are discreet. -/
theorem checkRules_discreet (checked : List Bytes) (results : List TaskRunReportQcResult) :
    Discreet (checkRules checked results) := by
  induction results generalizing checked with
  | nil => trivial
  | cons qc rest ih =>
    refine discreet_ite (ih _) (Program.Stops.bind ?_ fun answer => ?_)
    · exact discreet_ite trivial fun _ => trivial
    · cases answer with
      | none => exact fixed_notFound (by simp [refusalTexts])
      | some rule => exact discreet_unless (fixed_conflict (by simp [refusalTexts])) (ih _)

/-- Reading a raw file is discreet. -/
theorem findRawFile_discreet (rawFileId : Bytes) :
    Discreet (ResultService.findRawFile rawFileId) := discreet_ite trivial fun _ => trivial

/-- The checks on failed files are discreet. -/
theorem checkFailedFiles_discreet (taskRunId : Bytes)
    (retryFiles : Option (List TaskRunRetryFile)) (seen : List Bytes)
    (failedFiles : List TaskRunFailedFile) :
    Discreet (checkFailedFiles taskRunId retryFiles seen failedFiles) := by
  induction failedFiles generalizing seen with
  | nil => trivial
  | cons failed rest ih =>
    refine discreet_unless (fixed_invalid (by simp [refusalTexts])) ?_
    refine discreet_unless (fixed_invalid (by simp [refusalTexts])) (discreet_ite ?_ ?_)
    · exact discreet_unless (fixed_conflict (by simp [refusalTexts])) (ih _)
    · exact Program.Stops.bind (findRawFile_discreet _) fun rawFile =>
        discreet_ite (ih _) (discreet_ite (fixed_conflict (by simp [refusalTexts]))
          (fixed_conflict (by simp [refusalTexts])))

/-- The checks of a report are discreet. -/
theorem checkReport_discreet (request : TaskRunReportRequest) (run : TaskRunRecord) :
    Discreet (checkReport R request run) := by
  refine discreet_unless (fixed_conflict (by simp [refusalTexts])) ?_
  split
  · exact checkIds_fixed (by assumption)
  · refine Program.Stops.bind (checkRules_discreet _ _) fun _ => discreet_ite ?_ trivial
    refine discreet_unless (fixed_invalid (by simp [refusalTexts])) (Program.Stops.bind ?_ fun _ =>
      checkFailedFiles_discreet _ _ _ _)
    refine discreet_ite trivial (discreet_sql fun stored => ?_)
    cases stored <;> trivial

/-- Storing a parsed row is discreet. -/
theorem recordParsedRecord_discreet (request : ParsedRecordRecord) (file : RawFileRecord) :
    Discreet (ResultService.recordParsedRecord request file) := by
  refine discreet_unless (fixed_invalid (by simp [refusalTexts])) ?_
  refine discreet_unless (fixed_invalid (by simp [refusalTexts])) ?_
  refine discreet_unless (fixed_invalid (by simp [refusalTexts])) ?_
  refine discreet_unless (fixed_conflict (by simp [refusalTexts])) ?_
  refine discreet_sql fun id => ?_
  cases id <;> trivial

/-- Storing a rule result is discreet. -/
theorem recordResult_discreet (record : QcResultRecord) :
    Discreet (QcService.recordResult record) := by
  refine discreet_unless (fixed_invalid (by simp [refusalTexts])) ?_
  refine discreet_unless (fixed_invalid (by simp [refusalTexts])) ?_
  refine discreet_unless (fixed_invalid (by simp [refusalTexts])) ?_
  refine discreet_unless (fixed_invalid (by simp [refusalTexts])) ?_
  refine discreet_sql fun id => ?_
  cases id <;> trivial

/-- Raising an alert is discreet. -/
theorem createAlert_discreet (result : QcResultRecord) (taskRunId nodeCode : Bytes) :
    Discreet (AlertService.createAlert result taskRunId nodeCode) := by
  refine discreet_ite trivial (discreet_sql fun id => ?_)
  cases id <;> trivial

/-- Storing the rule results of a parsed row is discreet. -/
theorem recordQcResults_discreet (request : TaskRunReportRequest) (parsedRecordId : Bytes)
    (results : List TaskRunReportQcResult) (created : Created) :
    Discreet (recordQcResults request parsedRecordId results created) := by
  induction results generalizing created with
  | nil => trivial
  | cons qc rest ih =>
    exact Program.Stops.bind (recordResult_discreet _) fun stored =>
      Program.Stops.bind (createAlert_discreet _ _ _) fun alertId => ih _

/-- Finding the raw file of a parsed row is discreet. -/
theorem verifyRawFile_discreet (request : TaskRunReportRequest)
    (verified : List (Bytes × RawFileRecord)) (rawFileId : Bytes) :
    Discreet (verifyRawFile request verified rawFileId) := by
  unfold verifyRawFile
  split
  · trivial
  · refine Program.Stops.bind (findRawFile_discreet _) fun answer => ?_
    cases answer with
    | none => exact fixed_notFound (by simp [refusalTexts])
    | some file => exact discreet_unless (fixed_conflict (by simp [refusalTexts])) trivial

/-- Storing the parsed rows of a report is discreet. -/
theorem recordParsedRecords_discreet (request : TaskRunReportRequest)
    (records : List TaskRunReportParsedRecord) (verified : List (Bytes × RawFileRecord))
    (created : Created) : Discreet (recordParsedRecords request records verified created) := by
  induction records generalizing verified created with
  | nil => trivial
  | cons parsed rest ih =>
    exact Program.Stops.bind (verifyRawFile_discreet _ _ _) fun file =>
      Program.Stops.bind (recordParsedRecord_discreet _ _) fun id =>
        Program.Stops.bind (recordQcResults_discreet _ _ _ _) fun created => ih _ _

/-- A report is discreet. -/
theorem acceptTaskRunReport_discreet (request : TaskRunReportRequest) :
    Discreet (acceptTaskRunReport R request) := by
  unfold acceptTaskRunReport
  split
  · exact validateIdempotencyKey_fixed (by assumption)
  · refine Program.Stops.bind (validateTaskRunNode_discreet _ _) fun run => ?_
    refine discreet_unless (fixed_invalid (by simp [refusalTexts])) ?_
    refine Program.Stops.bind (ReceiptRepository.claim_discreet _) fun claimed => ?_
    cases claimed with
    | acquired receiptId =>
      exact Program.Stops.bind (checkReport_discreet _ _) fun _ =>
        Program.Stops.bind (recordParsedRecords_discreet _ _ _ _) fun created =>
          Program.Stops.bind (TaskRunService.finish_discreet _) fun _ =>
            Program.Stops.bind (ReceiptRepository.complete_discreet _ _) fun _ => trivial
    | replay receipt => trivial
    | idempotencyConflict receipt => exact fixed_conflict (by simp [refusalTexts])
    | taskRunConflict receipt => exact fixed_conflict (by simp [refusalTexts])

end AgentReportService

end LabBridge.Server
