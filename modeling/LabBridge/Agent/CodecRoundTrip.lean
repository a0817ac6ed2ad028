import LabBridge.Agent.ExecutionRequestCodec
import LabBridge.Library.Fallible
import Mathlib.Tactic.MkIffOfInductiveProp

/-!
# What reading a persisted request accepts

A task, a start or a list of retry inputs that was persisted reads back as itself exactly when
the fields that reading requires are not empty and its numbers are in range. `Persistable` names
these conditions. What is persisted of a manifest or a report is a canonical document.
-/

namespace LabBridge.Agent

open ByteText JsonText Fallible LabBridge.Core

variable {J : Nlohmann}

/-- A text field of a record reads as the value it was given, when it may be empty or is not. -/
theorem requiredString_record {fields : List (String × Json)} {field : String}
    {allowEmpty : Bool} {value : Bytes} :
    requiredString (.record fields) field allowEmpty = .ok value ↔
      fields.lookup field = some (.str value) ∧ (allowEmpty = true ∨ value ≠ []) := by
  unfold requiredString
  rw [Json.field?_record]
  split
  · rename_i stored hfield
    rw [hfield]
    by_cases hallowed : (allowEmpty || !stored.isEmpty) = true
    · simp only [hallowed, if_true, Except.ok.injEq, Option.some.injEq, Json.str.injEq]
      constructor
      · rintro rfl
        exact ⟨rfl, by simpa using hallowed⟩
      · exact fun h => h.1
    · simp only [hallowed, Option.some.injEq, Json.str.injEq]
      constructor
      · intro h
        cases h
      · rintro ⟨rfl, h⟩
        exact absurd (by simpa using h) hallowed
  · rename_i hfield
    constructor
    · intro h
      cases h
    · rintro ⟨h, -⟩
      exact absurd h (hfield value)

/-- A truth value of a record reads as it is. -/
theorem requiredBoolean_record {fields : List (String × Json)} {field : String} {value : Bool} :
    requiredBoolean (.record fields) field = .ok value ↔
      fields.lookup field = some (.bool value) := by
  rw [requiredBoolean, Json.field?_record]
  split
  · simp [*]
  · rename_i hother
    simpa using hother value

/-- An array of a record reads as its items. -/
theorem requiredArray_record {fields : List (String × Json)} {field : String} {items : List Json} :
    requiredArray (.record fields) field = .ok items ↔
      fields.lookup field = some (.arr items) := by
  rw [requiredArray, Json.field?_record]
  split
  · simp [*]
  · simp_all

/-- An object of a record reads as itself. -/
theorem requiredObject_record {fields inner : List (String × Json)} {field : String}
    (h : fields.lookup field = some (.record inner)) :
    requiredObject (.record fields) field = .ok (.record inner) := by
  rw [requiredObject, Json.field?_record, h]
  rfl

/-- An integer of a record reads as itself when a `long long` can hold it. -/
theorem requiredNonNegativeLong_record {fields : List (String × Json)} {field : String}
    {value : ℤ} :
    requiredNonNegativeLong (.record fields) field = .ok value ↔
      fields.lookup field = some (.int value) ∧ 0 ≤ value ∧ value < 2 ^ 63 := by
  rw [requiredNonNegativeLong, Json.field?_record]
  split
  · split
    · simp only [Except.ok.injEq]
      grind
    · grind
  · simp_all

/-- The text of a source type reads back. -/
@[simp] theorem decodeSourceType_encode (type : SourceType) :
    decodeSourceType (encodeSourceType type) = .ok type := by
  cases type <;> decide +kernel

/-- The text of a source type is not empty. -/
@[simp] theorem encodeSourceType_ne_nil (type : SourceType) : encodeSourceType type ≠ [] := by
  cases type <;> decide +kernel

/-- A printed payload parses back as the record it was printed from. -/
theorem parsePayload_dumped {fields : List (String × Json)} {stored : Bytes}
    (hcanonical : (Json.record fields).Canonical)
    (hversion : fields.lookup "codec_version" = some (.int codecVersion))
    (h : J.dumped (.record fields) = .ok stored) :
    parsePayload J stored = .ok (.record fields) := by
  have hparse := J.parse_dump hcanonical (J.dumped_eq_ok.mp h)
  have hstated : statedVersion (.record fields) = some codecVersion := by
    simp only [statedVersion, Json.field?_record, hversion]
    decide
  rw [parsePayload, hparse]
  simp only [Json.record] at hstated ⊢
  rw [if_pos hstated]

/-! ## Rules and tasks -/

/-- A rule that reads back: it has an identifier, a kind and a name. -/
@[mk_iff] structure PersistableRule (rule : QcRuleConfig) : Prop where
  id : rule.id ≠ []
  ruleType : rule.ruleType ≠ []
  name : rule.name ≠ []

/-- A persisted rule reads back exactly when it is persistable. -/
theorem decodeQcRule_encode (rule : QcRuleConfig) :
    decodeQcRule (encodeQcRule rule) = .ok rule ↔ PersistableRule rule := by
  simp [decodeQcRule, encodeQcRule, bind_eq_ok, map_eq_ok, requiredString_record, List.lookup_cons,
    persistableRule_iff]

/-- A data source that reads back. -/
@[mk_iff] structure PersistableSource (source : DataSourceConfig) : Prop where
  id : source.id ≠ []
  nodeCode : source.nodeCode ≠ []
  name : source.name ≠ []

/-- A persisted data source reads back exactly when it is persistable. -/
theorem decodeDataSource_encode (source : DataSourceConfig) :
    decodeDataSource (encodeDataSource source) = .ok source ↔ PersistableSource source := by
  simp [decodeDataSource, encodeDataSource, bind_eq_ok, map_eq_ok, requiredString_record,
    List.lookup_cons, persistableSource_iff]

/-- A task that reads back: none of its names is empty, nor those of its source and rules. -/
@[mk_iff] structure PersistableTask (task : TaskConfig) : Prop where
  id : task.id ≠ []
  nodeCode : task.nodeCode ≠ []
  dataSourceId : task.dataSourceId ≠ []
  name : task.name ≠ []
  taskType : task.taskType ≠ []
  scheduleExpr : task.scheduleExpr ≠ []
  parserType : task.parserType ≠ []
  dataSource : PersistableSource task.dataSource
  qcRules : ∀ rule ∈ task.qcRules, PersistableRule rule

/-- The persisted object of a task is canonical. -/
theorem canonical_taskConfigJson (task : TaskConfig) : (taskConfigJson task).Canonical := by
  have hrule : ∀ rule : QcRuleConfig, (encodeQcRule rule).Canonical := fun rule =>
    .record (by simp only [List.map_cons, List.map_nil]; decide +kernel) (by simp)
  have hsource : (encodeDataSource task.dataSource).Canonical :=
    .record (by simp only [List.map_cons, List.map_nil]; decide +kernel) (by simp)
  refine .record (by simp only [List.map_cons, List.map_nil]; decide +kernel) ?_
  simp [hsource, hrule, codecVersion, Json.canonical_int]

/-- A persisted task reads back exactly when it is persistable. -/
theorem decodeTaskConfig_encode {task : TaskConfig} {stored : Bytes}
    (h : encodeTaskConfig J task = .ok stored) :
    decodeTaskConfig J stored = .ok task ↔ PersistableTask task := by
  have hparse : parsePayload J stored = .ok (taskConfigJson task) :=
    parsePayload_dumped (canonical_taskConfigJson task) rfl h
  have hsource : requiredObject (taskConfigJson task) "data_source" =
      .ok (encodeDataSource task.dataSource) := requiredObject_record rfl
  simp only [decodeTaskConfig, bind_eq_ok, pure_eq_ok, hparse, hsource, Except.ok.injEq,
    exists_eq_left']
  cases task
  simp [-List.mapM_map, taskConfigJson, requiredString_record, requiredBoolean_record,
    requiredArray_record, List.lookup_cons, mapM_map_eq_ok, decodeDataSource_encode,
    decodeQcRule_encode, persistableTask_iff]

/-! ## Starts -/

/-- A start that reads back. Only a scheduled one needs a slot. -/
@[mk_iff] structure PersistableStart (request : StartTaskRunRequest) : Prop where
  nodeCode : request.nodeCode ≠ []
  taskId : request.taskId ≠ []
  executionKey : request.executionKey ≠ []
  startedAt : request.startedAt ≠ []
  triggerType : request.triggerType = text "scheduled" ∧ request.scheduledFor ≠ [] ∨
    request.triggerType = text "manual" ∨ request.triggerType = text "retry"

/-- The trigger of a record is accepted when it is one of the three. -/
theorem decodeTriggerType_record {fields : List (String × Json)} {stored value : Bytes}
    (h : fields.lookup "trigger_type" = some (.str stored)) :
    decodeTriggerType (.record fields) = .ok value ↔ stored = value ∧
      (value = text "scheduled" ∨ value = text "manual" ∨ value = text "retry") := by
  have hscheduled : text "scheduled" ≠ [] := by decide +kernel
  have hmanual : text "manual" ≠ [] := by decide +kernel
  have hretry : text "retry" ≠ [] := by decide +kernel
  simp only [decodeTriggerType, bind_eq_ok, requiredString_record, h, check_eq_ok, pure_eq_ok]
  grind

/-- The persisted object of a start is canonical. -/
theorem canonical_encodeStartTaskRunRequestJson (request : StartTaskRunRequest) :
    (encodeStartTaskRunRequestJson request).Canonical := by
  refine .record (by simp only [List.map_cons, List.map_nil]; decide +kernel) ?_
  simp [codecVersion, Json.canonical_int]

/-- A persisted start reads back exactly when it is persistable. -/
theorem decodeStartTaskRunRequest_encode {request : StartTaskRunRequest} {stored : Bytes}
    (h : encodeStartTaskRunRequest J request = .ok stored) :
    decodeStartTaskRunRequest J stored = .ok request ↔ PersistableStart request := by
  have hparse : parsePayload J stored = .ok (encodeStartTaskRunRequestJson request) :=
    parsePayload_dumped (canonical_encodeStartTaskRunRequestJson request) rfl h
  have htrigger (value : Bytes) :
      decodeTriggerType (encodeStartTaskRunRequestJson request) = .ok value ↔ _ :=
    decodeTriggerType_record rfl
  simp only [decodeStartTaskRunRequest, bind_eq_ok, pure_eq_ok, hparse, htrigger,
    Except.ok.injEq, exists_eq_left']
  have hmanual : text "manual" ≠ text "scheduled" := by decide +kernel
  have hretry : text "retry" ≠ text "scheduled" := by decide +kernel
  cases request
  simp only [encodeStartTaskRunRequestJson, requiredString_record, persistableStart_iff]
  simp [List.lookup_cons]
  grind

/-! ## Manifests -/

/-- The persisted object of a manifest with sizes of 64 bits is canonical. -/
theorem canonical_encodeRawFileManifestRequestJson {request : RawFileManifestRequest}
    (hsizes : ∀ file ∈ request.files, -(2 ^ 63) ≤ file.sizeBytes ∧ file.sizeBytes < 2 ^ 63) :
    (encodeRawFileManifestRequestJson request).Canonical := by
  have hentry : ∀ file ∈ request.files, (encodeManifestEntry file).Canonical := by
    intro file hfile
    refine .record (by simp only [List.map_cons, List.map_nil]; decide +kernel) ?_
    simpa [Json.canonical_int] using hsizes file hfile
  refine .record (by simp only [List.map_cons, List.map_nil]; decide +kernel) ?_
  simpa [codecVersion, Json.canonical_int] using hentry

/-! ## Reports -/

/-- The range of a counter. -/
def FitsInt (value : ℤ) : Prop := -(2 ^ 31) ≤ value ∧ value < 2 ^ 31

/-- The counters of a report are `int` values. -/
structure Counted (request : TaskRunReportRequest) : Prop where
  itemsTotal : FitsInt request.itemsTotal
  itemsSuccess : FitsInt request.itemsSuccess
  itemsFailed : FitsInt request.itemsFailed

/-- The persisted object of a counted report is canonical. -/
theorem canonical_reportJson {request : TaskRunReportRequest} (counted : Counted request)
    (status : Bytes) : (reportJson request status).Canonical := by
  have hresult : ∀ result : TaskRunReportQcResult, (encodeQcResult result).Canonical := fun _ =>
    .record (by simp only [List.map_cons, List.map_nil]; decide +kernel) (by simp)
  have hrecord : ∀ parsed : TaskRunReportParsedRecord, (encodeParsedRecord parsed).Canonical :=
    fun _ => .record (by simp only [List.map_cons, List.map_nil]; decide +kernel) (by simp [hresult])
  have hfailed : ∀ failed : TaskRunReportFailedFile, (encodeFailedFile failed).Canonical :=
    fun _ => .record (by simp only [List.map_cons, List.map_nil]; decide +kernel) (by simp)
  have htotal := counted.itemsTotal
  have hsuccess := counted.itemsSuccess
  have hfailures := counted.itemsFailed
  simp only [FitsInt] at htotal hsuccess hfailures
  unfold reportJson
  cases request.hasFailedFiles
  all_goals
    refine .record ?_ ?_
    · simp only [if_true, if_false, Bool.false_eq_true, List.map_cons, List.map_append,
        List.map_nil]
      decide +kernel
    · simp [hrecord, hfailed, codecVersion, Json.canonical_int]
      omega

/-! ## Retry inputs -/

/-- A retry input that reads back. -/
@[mk_iff] structure PersistableRetryFile (file : RetryFileInput) : Prop where
  inputType : file.inputType = text "archive" ∨ file.inputType = text "source"
  sourcePath : file.sourcePath ≠ []
  originalName : file.originalName ≠ []
  sizeBytes : 0 ≤ file.sizeBytes ∧ file.sizeBytes < 2 ^ 63

/-- A persisted retry input reads back exactly when it is persistable. -/
theorem decodeRetryFile_encode (file : RetryFileInput) :
    decodeRetryFile (encodeRetryFile file) = .ok file ↔ PersistableRetryFile file := by
  have hversion : statedVersion (encodeRetryFile file) = some codecVersion := by
    simp only [statedVersion, encodeRetryFile, Json.field?_record]
    simp [List.lookup_cons, codecVersion]
  have harchive : text "archive" ≠ [] := by decide +kernel
  have hsource : text "source" ≠ [] := by decide +kernel
  simp only [decodeRetryFile, hversion, bind_eq_ok, pure_eq_ok, check_eq_ok]
  cases file
  simp only [encodeRetryFile, requiredString_record, requiredNonNegativeLong_record,
    persistableRetryFile_iff]
  simp [List.lookup_cons]
  grind

/-- The persisted retry inputs are canonical when their sizes have 64 bits. -/
theorem canonical_retryFiles {retryFiles : List RetryFileInput}
    (hsizes : ∀ file ∈ retryFiles, -(2 ^ 63) ≤ file.sizeBytes ∧ file.sizeBytes < 2 ^ 63) :
    (Json.arr (retryFiles.map encodeRetryFile)).Canonical := by
  rw [Json.canonical_arr, List.forall_mem_map]
  intro file hfile
  refine .record (by simp only [List.map_cons, List.map_nil]; decide +kernel) ?_
  simpa [Json.canonical_int, codecVersion] using hsizes file hfile

/-- Persisted retry inputs read back exactly when each is persistable. -/
theorem decodeRetryFiles_encode {retryFiles : List RetryFileInput} {stored : Bytes}
    (hsizes : ∀ file ∈ retryFiles, -(2 ^ 63) ≤ file.sizeBytes ∧ file.sizeBytes < 2 ^ 63)
    (h : encodeRetryFiles J retryFiles = .ok stored) :
    decodeRetryFiles J stored = .ok retryFiles ↔
      ∀ file ∈ retryFiles, PersistableRetryFile file := by
  have hprinted := J.dumped_eq_ok.mp h
  have hparse := J.parse_dump (canonical_retryFiles hsizes) hprinted
  rw [decodeRetryFiles, if_neg (J.dump_ne_nil hprinted), hparse]
  simp only [mapM_map_eq_ok, decodeRetryFile_encode]

end LabBridge.Agent
