import LabBridge.Agent.ControlPlaneClient
import LabBridge.Library.Fallible
import LabBridge.Server.NodeConfigurations
import LabBridge.Wire.Reference

/-!
# A configuration over the wire

The server prints what a node is told with the stored documents in it, and the agent takes the
response apart, drops what it cannot use and joins the tasks with their data sources and rules.
Nothing that is told is dropped: every stored document can be printed, and the agent is handed each
told task as it is stored.
-/

namespace LabBridge

open ByteText JsonText LabBridge.Core Server Storage

variable {R : Runtime} (wire : Wire R)

/-- A stored document as the agent keeps it, up to how numbers are written. -/
def HandedConfig (stored handed : Bytes) : Prop :=
  ∃ document received, R.json.parse stored = some document ∧ document.Arrives received ∧
    wire.agent.dump received = some handed

/-- The text of an empty configuration. -/
def Wire.emptyObject : Bytes := (wire.agent.dump (.obj [])).getD []

/-- A data source as the agent keeps it. -/
def sourceConfig (source : DataSourceRow) (configJson : Bytes) : DataSourceConfig where
  id := decimal source.id
  nodeCode := source.nodeCode
  type := source.sourceType
  name := source.name
  configJson := configJson

/-- A rule as the agent keeps it. -/
def ruleConfig (binding : TaskQcRuleBinding) : QcRuleConfig where
  id := binding.qcRuleId
  ruleType := binding.ruleType
  name := binding.name
  configJson := wire.emptyObject

/-- A task as the agent keeps it. -/
def taskConfig (task : TaskRow) (dataSource : DataSourceConfig) (qcRules : List QcRuleConfig) :
    TaskConfig where
  id := decimal task.id
  nodeCode := task.nodeCode
  dataSourceId := decimal task.dataSourceId
  name := task.name
  taskType := task.taskType
  scheduleExpr := task.scheduleExpr
  parserType := task.parserType
  qcProfile := task.qcProfile
  enabled := true
  dataSource := dataSource
  qcRules := qcRules

/-- A task that is handed to the agent as it is stored, with its data source and some rules. -/
def HandedTask (db : Database) (task : TaskRow) (rules : List TaskQcRuleBinding)
    (handed : TaskConfig) : Prop :=
  ∃ source ∈ db.dataSources.rows, source.id = task.dataSourceId ∧ ∃ configJson,
    HandedConfig wire source.configJson configJson ∧
      handed = taskConfig task (sourceConfig source configJson) (rules.map (ruleConfig wire))

/-- An input of a waiting run as the agent keeps it. -/
def retryInput (file : TaskRunRetryFile) : Agent.RetryFileInput where
  inputType := file.inputType
  sourcePath := file.sourcePath
  originalName := file.originalName
  archiveRawFileId := file.archiveRawFileId
  storagePath := file.storagePath
  sizeBytes := file.sizeBytes
  fileHash := file.fileHash
  sourceMtime := file.sourceMtime

/-- A waiting run as the agent keeps it. -/
def waitingRun (pending : PendingExecutionRecord) : Agent.PendingExecution where
  taskRunId := pending.taskRunId
  taskId := pending.taskId
  executionKey := pending.executionKey
  triggerType := pending.triggerType
  requestedAt := pending.requestedAt
  retryFiles := pending.retryFiles.map retryInput

/-- An archived input has the path and the digest of its copy. -/
def isReadableInput (file : TaskRunRetryFile) : Bool :=
  file.inputType != text "archive" || (file.storagePath != [] && file.fileHash != [])

/-- A configuration that is handed to the agent: every told task as it is stored, with all of its
rules or none, kept tasks with all of them, and every waiting run whose inputs can be read. -/
structure HandedOver (kept : RowId → Prop) (result : AgentConfigResult) (db : Database)
    (pulled : Agent.PulledAgentConfig) : Prop where
  node : pulled.node = ⟨result.node.nodeCode, result.node.name, result.node.agentVersion⟩ ∧
    pulled.status = result.node.status ∧ pulled.lastHeartbeatAt = result.node.lastHeartbeatAt
  ids : pulled.tasks.map TaskConfig.id = result.enabledTasks.map fun projected => projected.task.id
  tasks : ∀ handed ∈ pulled.tasks, ∃ task ∈ db.tasks.rows, task.nodeCode = result.node.nodeCode ∧
    (HandedTask wire db task (db.ruleBindings task) handed ∨ HandedTask wire db task [] handed)
  complete : ∀ task ∈ db.tasks.rows, kept task.id → task.nodeCode = result.node.nodeCode →
    ∃ handed ∈ pulled.tasks, HandedTask wire db task (db.ruleBindings task) handed
  pending : pulled.pendingExecutions = (result.pendingExecutions.filter fun pending =>
    pending.retryFiles.all isReadableInput).map waitingRun

variable {wire} {db : Database}

/-! ## Stored documents -/

/-- A text that holds an object is parsed as it. -/
theorem parse_of_parseJsonObject {stored : Bytes} {document : Json}
    (h : parseJsonObject R stored = some document) :
    R.json.parse stored = some document ∧ ∃ fields, document = .obj fields := by
  unfold parseJsonObject at h
  split at h
  · rename_i fields hparse
    cases h
    exact ⟨hparse, fields, rfl⟩
  · cases h

/-- A stored object is printed as it was parsed, up to how numbers are written. -/
theorem storedJsonObject_of_parse {stored : Bytes} {document : Json}
    (h : parseJsonObject R stored = some document) (shallow : document.depth ≤ wire.readDepth) :
    ∃ fields, AgentControlHttp.storedJsonObject wire.read stored = some (.obj fields) ∧
      document.Arrives (.obj fields) ∧ (Json.obj fields).Ordered := by
  obtain ⟨hparse, fields, rfl⟩ := parse_of_parseJsonObject h
  obtain ⟨found, hread, harrives, hordered⟩ := wire.read_parse hparse shallow
  obtain ⟨values, rfl⟩ := harrives.obj_eq
  exact ⟨values, by simp only [AgentControlHttp.storedJsonObject, hread], harrives, hordered⟩

/-- The config of an executable source is an object. -/
theorem parseJsonObject_of_isCsvSource {stored : Bytes} (h : isCsvSource R stored = true) :
    ∃ document, parseJsonObject R stored = some document := by
  unfold isCsvSource at h
  cases hparse : parseJsonObject R stored with
  | none =>
    rw [hparse] at h
    cases h
  | some document => exact ⟨document, rfl⟩

/-- The config of an executable rule is the empty object. -/
theorem parseJsonObject_of_isEmptyObject {stored : Bytes} (h : isEmptyObject R stored = true) :
    parseJsonObject R stored = some (.obj []) := by
  unfold isEmptyObject at h
  split at h
  · assumption
  · cases h

/-- The empty object arrives as it is. -/
theorem arrives_emptyObject {received : Json} (h : (Json.obj []).Arrives received) :
    received = .obj [] := by
  cases h with
  | @obj _ arrived keys each =>
    cases arrived with
    | nil => rfl
    | cons field rest => cases keys

variable (wire) in
/-- What arrives of an object is printed, when it is UTF-8. -/
theorem dump_eq_some {received : Json} (h : received.utf8 = true) :
    ∃ printed, wire.agent.dump received = some printed :=
  Option.isSome_iff_exists.mp ((wire.agent.dump_isSome received).trans h)

/-- The text of an empty configuration is the printed empty object. -/
theorem dump_emptyObject : wire.agent.dump (.obj []) = some wire.emptyObject := by
  obtain ⟨printed, hprinted⟩ := dump_eq_some wire (show (Json.obj []).utf8 = true from rfl)
  rw [Wire.emptyObject, hprinted, Option.getD_some]

variable (wire) in
/-- The config of an entry is printed. -/
theorem entryConfig_of_lookup {fields : List (String × Json)} {arrived : Json}
    (h : (Json.record fields).Arrives arrived) (utf8 : arrived.utf8 = true)
    {values : List (Bytes × Json)} (hconfig : fields.lookup "config" = some (.obj values)) :
    ∃ received printed, (Json.obj values).Arrives received ∧
      wire.agent.dump received = some printed ∧
        Agent.entryConfig wire.agent arrived = some printed := by
  obtain ⟨received, hfound, harrives⟩ := h.field_of_lookup "config" hconfig
  obtain ⟨config, rfl⟩ := harrives.obj_eq
  obtain ⟨printed, hprinted⟩ := dump_eq_some wire (Json.utf8_of_field? utf8 hfound)
  exact ⟨.obj config, printed, harrives, hprinted, by simp only [Agent.entryConfig, hfound, hprinted]⟩

/-- A text of a response is read. -/
theorem toOption_responseString (status : ℕ) {object : Json} {field : String} {value : Bytes}
    (h : object.field? field = some (.str value)) :
    (Agent.responseString status object field).toOption = some value := by
  rw [responseString_of_field h]
  rfl

/-! ## Data sources -/

/-- A data source that a node is told, as the agent reads it. -/
def ReadSource (wire : Wire R) (source : DataSourceRecord) (found : Agent.SourceProjection) : Prop :=
  found.id = source.id ∧ found.nodeCode = source.nodeCode ∧
    found.sourceType = sourceTypeToStorage source.sourceType ∧ found.name = source.name ∧
      HandedConfig wire source.configJson found.configJson

/-- A data source that a node is told is printed, and what arrives of it is read. -/
theorem readSource_printed {source : DataSourceRecord} {document : Json}
    (h : parseJsonObject R source.configJson = some document)
    (shallow : document.depth ≤ wire.readDepth) (status : ℕ) :
    ∃ printed, AgentControlHttp.dataSourceJson wire.read source = some printed ∧
      printed.Ordered ∧ ∀ arrived, printed.Arrives arrived → arrived.utf8 = true →
        ∃ found, Agent.readSource wire.agent status arrived = some found ∧
          ReadSource wire source found := by
  obtain ⟨fields, hstored, harrives, hordered⟩ := storedJsonObject_of_parse h shallow
  have hprinted : AgentControlHttp.dataSourceJson wire.read source = some (.record [
      ("config", .obj fields),
      ("id", .str source.id),
      ("name", .str source.name),
      ("node_code", .str source.nodeCode),
      ("source_type", .str (sourceTypeToStorage source.sourceType))]) := by
    rw [AgentControlHttp.dataSourceJson, hstored]
    rfl
  refine ⟨_, hprinted, ?_, fun arrived hdocument hutf8 => ?_⟩
  · apply Json.Ordered.record
    · simp only [List.map_cons, List.map_nil]
      decide
    · simpa using hordered
  · obtain ⟨received, config, hreceived, hdump, hentry⟩ :=
      entryConfig_of_lookup wire hdocument hutf8 rfl
    have hid := toOption_responseString status (hdocument.str_of_lookup "id" rfl)
    have hcode := toOption_responseString status
      (hdocument.str_of_lookup "node_code" rfl)
    have htype := toOption_responseString status
      (hdocument.str_of_lookup "source_type" rfl)
    have hname := toOption_responseString status (hdocument.str_of_lookup "name" rfl)
    refine ⟨⟨source.id, source.nodeCode, sourceTypeToStorage source.sourceType, source.name,
      config⟩, ?_, rfl, rfl, rfl, rfl, ?_⟩
    · simp only [Agent.readSource, hentry, hid, hcode, htype, hname]
      rfl
    · exact ⟨document, received, (parse_of_parseJsonObject h).1, harrives.trans hreceived, hdump⟩

/-! ## Rules -/

/-- A rule that a node is told, as the agent reads it. -/
def readRule (wire : Wire R) (binding : TaskQcRuleBinding) : Agent.QcProjection where
  id := binding.qcRuleId
  taskId := binding.taskId
  ruleType := binding.ruleType
  name := binding.name
  configJson := wire.emptyObject

variable (wire) in
/-- A rule without configuration is printed, and what arrives of it is read. -/
theorem readRule_printed {binding : TaskQcRuleBinding}
    (h : isEmptyObject R binding.ruleConfigJson = true)
    (status : ℕ) :
    ∃ printed, AgentControlHttp.qcRuleJson wire.read binding = some printed ∧
      printed.Ordered ∧ ∀ arrived, printed.Arrives arrived → arrived.utf8 = true →
        Agent.readRule wire.agent status arrived = some (readRule wire binding) := by
  have hshallow : (Json.obj []).depth ≤ wire.readDepth :=
    le_trans (by decide) wire.report_shallow
  obtain ⟨fields, hstored, harrives, hordered⟩ :=
    storedJsonObject_of_parse (parseJsonObject_of_isEmptyObject h) hshallow
  cases arrives_emptyObject harrives
  have hprinted : AgentControlHttp.qcRuleJson wire.read binding = some (.record [
      ("config", .obj []),
      ("id", .str binding.qcRuleId),
      ("name", .str binding.name),
      ("rule_type", .str binding.ruleType),
      ("task_id", .str binding.taskId)]) := by
    rw [AgentControlHttp.qcRuleJson, hstored]
    rfl
  refine ⟨_, hprinted, ?_, fun arrived hdocument hutf8 => ?_⟩
  · apply Json.Ordered.record
    · simp only [List.map_cons, List.map_nil]
      decide +kernel
    · simpa using hordered
  · obtain ⟨received, config, hreceived, hdump, hentry⟩ :=
      entryConfig_of_lookup wire hdocument hutf8 rfl
    rw [arrives_emptyObject hreceived, dump_emptyObject] at hdump
    cases hdump
    have hid := toOption_responseString status (hdocument.str_of_lookup "id" rfl)
    have htask := toOption_responseString status
      (hdocument.str_of_lookup "task_id" rfl)
    have htype := toOption_responseString status
      (hdocument.str_of_lookup "rule_type" rfl)
    have hname := toOption_responseString status (hdocument.str_of_lookup "name" rfl)
    simp only [Agent.readRule, hentry, hid, htask, htype, hname]
    rfl

/-! ## Lists of a response -/

/-- A list that is printed item by item arrives, and every item is kept. -/
theorem kept_of_arrives {α β : Type} {items : List α} {documents : List Json}
    {arrived : List Json} {found : α → β → Prop} {keep : Json → Option β} {print : α → Option Json}
    (printed : items.mapM print = some documents)
    (arrives : List.Forall₂ Json.Arrives documents arrived)
    (utf8 : (Json.arr arrived).utf8 = true)
    (each : ∀ item ∈ items, ∀ document, print item = some document → ∀ received,
      document.Arrives received → received.utf8 = true →
        ∃ value, keep received = some value ∧ found item value) :
    List.Forall₂ found items (arrived.filterMap keep) := by
  rw [Json.utf8_arr, List.all_eq_true] at utf8
  have hitems : List.Forall₂ (fun item received => ∃ document, print item = some document ∧
      document.Arrives received) items arrived :=
    Json.forall₂_trans (fun hprint harrives => ⟨_, hprint, harrives⟩)
      (Fallible.mapM_eq_some.mp printed) arrives
  apply Fallible.forall₂_filterMap hitems
  rintro item hitem received hreceived ⟨document, hprint, harrives⟩
  exact each item hitem document hprint received harrives (utf8 received hreceived)

/-- The last entry under a key that is there. -/
theorem lastWith_eq_some {α : Type} (key : α → Bytes) {entries : List α} {entry : α}
    (h : entry ∈ entries) : ∃ last ∈ entries, key last = key entry ∧
      Agent.lastWith key entries (key entry) = some last := by
  have hfound : (entries.reverse.find? fun other => key other == key entry).isSome = true :=
    List.find?_isSome.mpr ⟨entry, List.mem_reverse.mpr h, beq_self_eq_true _⟩
  obtain ⟨last, hlast⟩ := Option.isSome_iff_exists.mp hfound
  exact ⟨last, List.mem_reverse.mp (List.mem_of_find?_eq_some hlast),
    by simpa using List.find?_some hlast, hlast⟩

/-- Two numerals with a line break behind the first determine both. -/
theorem decimal_lines_inj {first second left right : ℕ}
    (h : decimal first ++ text "\n" ++ decimal second = decimal left ++ text "\n" ++ decimal right) :
    first = left ∧ second = right := by
  have hnone (n : ℕ) : (10 : UInt8) ∉ decimal n := fun hmem =>
    absurd (isDigit_of_mem_decimal hmem) (by decide)
  rw [show text "\n" = [10] by decide, List.append_assoc, List.append_assoc] at h
  have htake := congrArg (List.takeWhile fun b => b != 10) h
  have hlead (n : ℕ) (rest : Bytes) :
      (decimal n ++ ([10] ++ rest)).takeWhile (fun b => b != 10) = decimal n := by
    rw [List.takeWhile_append_of_pos fun b hb => by
      simpa using fun heq : b = 10 => hnone n (heq ▸ hb)]
    simp
  rw [hlead, hlead] at htake
  have hfirst := decimal_inj.mp htake
  subst hfirst
  exact ⟨rfl, by simpa using h⟩

/-! ## Tasks -/

/-- A rule that is told is a stored rule that can be run. -/
def StoredRule (R : Runtime) (db : Database) (binding : TaskQcRuleBinding) : Prop :=
  ∃ taskId : RowId, ∃ rule ∈ db.qcRules.rows, rule.Executable R ∧
    binding.taskId = decimal taskId ∧ binding.qcRuleId = decimal rule.id ∧
      binding.ruleType = rule.ruleType ∧ binding.name = rule.name ∧
        binding.ruleConfigJson = rule.ruleConfigJson

/-- The rules of a task that can be executed can be run. -/
theorem storedRule_of_mem {task : TaskRow} (h : ExecutableTask R db task)
    {binding : TaskQcRuleBinding} (hbinding : binding ∈ db.ruleBindings task) :
    StoredRule R db binding := by
  obtain ⟨bound, hbound, hselected⟩ := List.mem_filterMap.mp hbinding
  obtain ⟨rule, hrule, rfl⟩ := Option.map_eq_some_iff.mp hselected
  obtain ⟨own, hown, hid, hexecutable⟩ := h.rules bound hbound
  obtain ⟨hfound, -⟩ := Option.filter_eq_some_iff.mp hrule
  rw [← hid, SerialTable.find?_key hown] at hfound
  cases hfound
  exact ⟨task.id, rule, hown, hexecutable, rfl, rfl, rfl, rfl, rfl⟩

/-- Rules that are told under one key are read as one. -/
theorem readRule_eq_of_key {left right : TaskQcRuleBinding} (hleft : StoredRule R db left)
    (hright : StoredRule R db right)
    (hkey : (readRule wire left).key = (readRule wire right).key) :
    readRule wire left = readRule wire right := by
  obtain ⟨leftTask, leftRule, hleftMem, -, hleftId, hleftRule, hleftType, hleftName, -⟩ := hleft
  obtain ⟨rightTask, rightRule, hrightMem, -, hrightId, hrightRule, hrightType, hrightName, -⟩ :=
    hright
  simp only [Agent.QcProjection.key, readRule, hleftId, hrightId, hleftRule, hrightRule] at hkey
  obtain ⟨htask, hrule⟩ := decimal_lines_inj hkey
  have hsame : leftRule = rightRule :=
    SerialTable.eq_of_key_eq hleftMem hrightMem (Fin.ext hrule)
  subst hsame
  simp only [readRule, hleftId, hrightId, hleftRule, hrightRule, hleftType, hrightType, hleftName,
    hrightName, htask]

/-- A rule that a task refers to is found as it is told. -/
theorem readRuleReference_told {bindings : List TaskQcRuleBinding}
    (stored : ∀ binding ∈ bindings, StoredRule R db binding) (status : ℕ)
    {binding : TaskQcRuleBinding} (hbinding : binding ∈ bindings) :
    Agent.readRuleReference status (bindings.map (readRule wire)) binding.taskId
      (.str binding.qcRuleId) = .ok (ruleConfig wire binding) := by
  obtain ⟨last, hlast, hkey, hfound⟩ := lastWith_eq_some Agent.QcProjection.key
    (List.mem_map_of_mem (f := readRule wire) hbinding)
  obtain ⟨other, hother, rfl⟩ := List.mem_map.mp hlast
  rw [readRule_eq_of_key (stored other hother) (stored binding hbinding) hkey] at hfound
  obtain ⟨-, rule, -, ⟨-, hsupported, -⟩, -, -, htype, -⟩ := stored binding hbinding
  have hsupports : Agent.supportsRule (readRule wire binding).ruleType = true := by
    change Agent.supportsRule binding.ruleType = true
    rw [htype]
    exact hsupported
  have hwanted : Agent.lastWith Agent.QcProjection.key (bindings.map (readRule wire))
      (binding.taskId ++ text "\n" ++ binding.qcRuleId) = some (readRule wire binding) := hfound
  simp only [Agent.readRuleReference, hwanted]
  exact if_pos hsupports

/-- The data source of a told task is found as it is stored. -/
theorem readTaskSource_told {result : AgentConfigResult} {projected : ManagementTaskResult}
    {task : TaskRow} (told : ToldTask R result projected db task)
    (readable : ∀ source ∈ result.dataSources, ∃ row ∈ db.dataSources.rows,
      source = Database.toDataSourceRecord row)
    {sources : List Agent.SourceProjection}
    (found : List.Forall₂ (ReadSource wire) result.dataSources sources) (status : ℕ) :
    ∃ source ∈ db.dataSources.rows, source.id = task.dataSourceId ∧ ∃ configJson,
      HandedConfig wire source.configJson configJson ∧
        Agent.readTaskSource status task.nodeCode sources (decimal task.dataSourceId) =
          .ok (sourceConfig source configJson) := by
  obtain ⟨source, hsource, hid, hcode, ⟨-, htype, -⟩, htold⟩ := told.source
  obtain ⟨entry, hentry, hread⟩ := Fallible.exists_right found htold
  obtain ⟨last, hlast, hkey, hlastWith⟩ := lastWith_eq_some Agent.SourceProjection.id hentry
  obtain ⟨record, hrecord, hlastRead⟩ := Fallible.exists_left found hlast
  obtain ⟨row, hrow, rfl⟩ := readable record hrecord
  have hsame : row = source := by
    apply SerialTable.eq_of_key_eq hrow hsource
    have hids : decimal row.id = decimal source.id :=
      hlastRead.1.symm.trans (hkey.trans hread.1)
    exact Fin.ext (decimal_inj.mp hids)
  subst hsame
  obtain ⟨hlastId, hlastCode, hlastType, hlastName, hconfig⟩ := hlastRead
  refine ⟨row, hsource, hid, last.configJson, hconfig, ?_⟩
  have hwanted : entry.id = decimal task.dataSourceId := by
    rw [hread.1, ← hid]
    rfl
  rw [hwanted] at hlastWith
  unfold Agent.readTaskSource
  rw [hlastWith]
  have hlocal : last.nodeCode = task.nodeCode ∧ last.sourceType = text "local_directory" := by
    refine ⟨hlastCode.trans hcode, hlastType.trans ?_⟩
    change sourceTypeToStorage row.sourceType = _
    rw [htype]
    rfl
  have hconfigured : (⟨last.id, last.nodeCode, .localDirectory, last.name, last.configJson⟩ :
      DataSourceConfig) = sourceConfig row last.configJson := by
    rw [hlastId, hlastCode, hlastName, sourceConfig, htype]
    rfl
  exact (if_pos hlocal).trans (congrArg Except.ok hconfigured)

/-- A task that is told is handed to the agent as it is stored, with the rules that are told for
it. -/
theorem readTask_told {result : AgentConfigResult} {projected : ManagementTaskResult}
    {task : TaskRow} (executable : ExecutableTask R db task)
    (told : ToldTask R result projected db task)
    (readable : ∀ source ∈ result.dataSources, ∃ row ∈ db.dataSources.rows,
      source = Database.toDataSourceRecord row)
    (stored : ∀ binding ∈ result.taskQcRules, StoredRule R db binding)
    {sources : List Agent.SourceProjection}
    (found : List.Forall₂ (ReadSource wire) result.dataSources sources) (status : ℕ)
    {arrived : Json} (h : (AgentControlHttp.taskJson projected).Arrives arrived) :
    ∃ handed, Agent.readTask status task.nodeCode sources (result.taskQcRules.map (readRule wire))
        arrived = .ok handed ∧
      HandedTask wire db task (result.rulesFor projected.task) handed := by
  obtain ⟨source, hsource, hid, configJson, hconfig, htaskSource⟩ :=
    readTaskSource_told told readable found status
  have hrecord := told.record
  have hreferences : (projected.qcRuleIds.map Json.str).mapM
      (Agent.readRuleReference status (result.taskQcRules.map (readRule wire)) projected.task.id) =
        .ok ((result.rulesFor projected.task).map (ruleConfig wire)) := by
    rw [Fallible.mapM_eq_ok, told.ruleIds, List.map_map, List.forall₂_map_left_iff,
      List.forall₂_map_right_iff, List.forall₂_same]
    intro binding hbinding
    obtain ⟨hmem, htask⟩ := List.mem_filter.mp hbinding
    rw [← beq_iff_eq.mp htask]
    exact readRuleReference_told stored status hmem
  refine ⟨_, ?_, source, hsource, hid, configJson, hconfig, rfl⟩
  have hids : Agent.responseString status arrived "id" = .ok projected.task.id :=
    responseString_of_field (h.str_of_lookup "id" rfl)
  have hcode : Agent.responseString status arrived "node_code" = .ok projected.task.nodeCode :=
    responseString_of_field (h.str_of_lookup "node_code" rfl)
  have hsourceId : Agent.responseString status arrived "data_source_id" =
      .ok projected.task.dataSourceId :=
    responseString_of_field (h.str_of_lookup "data_source_id" rfl)
  have hname : Agent.responseString status arrived "name" = .ok projected.task.name :=
    responseString_of_field (h.str_of_lookup "name" rfl)
  have htype : Agent.responseString status arrived "task_type" = .ok projected.task.taskType :=
    responseString_of_field (h.str_of_lookup "task_type" rfl)
  have hschedule : Agent.responseString status arrived "schedule_expr" =
      .ok projected.task.scheduleExpr :=
    responseString_of_field (h.str_of_lookup "schedule_expr" rfl)
  have hparser : Agent.responseString status arrived "parser_type" =
      .ok projected.task.parserType :=
    responseString_of_field (h.str_of_lookup "parser_type" rfl)
  have hprofile : Agent.responseString status arrived "qc_profile" = .ok projected.task.qcProfile :=
    responseString_of_field (h.str_of_lookup "qc_profile" rfl)
  have henabled : Agent.responseBoolean status arrived "enabled" = .ok projected.task.enabled :=
    responseBoolean_of_field (h.bool_of_lookup "enabled" rfl)
  have hlist : Agent.ruleReferences status arrived = .ok (projected.qcRuleIds.map .str) := by
    rw [Agent.ruleReferences, texts_of_lookup h "qc_rule_ids" rfl]
  simp only [Agent.readTask, hids, hcode, hsourceId, hname, htype, hschedule, hparser, hprofile,
    henabled, hlist, Fallible.ok_bind, hrecord, Database.toTaskRecord]
  rw [hrecord] at hreferences
  simp only [Database.toTaskRecord] at hreferences
  simp [executable.taskType, executable.parserType, htaskSource, Fallible.ok_bind, hreferences, taskConfig]

/-! ## Waiting runs -/

/-- The inputs of a waiting run that were stored by the server. -/
def StoredInputs (pending : PendingExecutionRecord) : Prop :=
  (pending.triggerType = text "manual" ∨ pending.triggerType = text "retry") ∧
    ∀ file ∈ pending.retryFiles,
      (file.inputType = text "archive" ∨ file.inputType = text "source") ∧ 0 ≤ file.sizeBytes

/-- An input that is read from the tables is an archived file or a source file. -/
theorem parseRetryFile_eq_some {item : Json} {file : TaskRunRetryFile}
    (h : parseRetryFile item = some file) :
    (file.inputType = text "archive" ∨ file.inputType = text "source") ∧ 0 ≤ file.sizeBytes := by
  unfold parseRetryFile at h
  simp only [Option.bind_eq_bind, Option.bind_eq_some_iff] at h
  obtain ⟨inputType, -, h⟩ := h
  by_cases hunknown : inputType ≠ text "archive" ∧ inputType ≠ text "source"
  · rw [if_pos hunknown] at h
    cases h
  · rw [if_neg hunknown] at h
    simp only [Option.bind_eq_some_iff] at h
    obtain ⟨_, -, _, -, _, -, _, -, size, hsize, _, -, _, -, h⟩ := h
    cases h
    refine ⟨by tauto, ?_⟩
    unfold requiredSize at hsize
    split at hsize
    · split at hsize
      · cases hsize
        assumption
      · cases hsize
    · cases hsize

/-- The inputs of a run that an operator asked for are stored inputs. -/
theorem storedInputs_of_run {run : TaskRunRow} (manual : run.isManual = true) :
    StoredInputs (AgentControlService.toPendingExecution R
      (Database.toPendingExecutionRow R.postgres run)) := by
  have htrigger : run.triggerType = text "manual" ∨ run.triggerType = text "retry" := by
    simpa [TaskRunRow.isManual] using manual
  refine ⟨htrigger, ?_⟩
  · intro file hfile
    change file ∈ (parseRetryFilesJson R.json (run.retryFiles.getD [])).getD [] at hfile
    cases hparse : parseRetryFilesJson R.json (run.retryFiles.getD []) with
    | none =>
      rw [hparse] at hfile
      cases hfile
    | some files =>
      rw [hparse, Option.getD_some] at hfile
      obtain ⟨items, -, hitems⟩ := Option.bind_eq_some_iff.mp hparse
      obtain ⟨item, -, hitem⟩ := Fallible.exists_left (Fallible.mapM_eq_some.mp hitems) hfile
      exact parseRetryFile_eq_some hitem

/-- A text of an entry is read. -/
theorem stringOrEmpty_of_field {object : Json} {field : String} {value : Bytes}
    (h : object.field? field = some (.str value)) : Agent.stringOrEmpty object field = value := by
  simp only [Agent.stringOrEmpty, h]

/-- What arrives of an input is read when it has what its type needs. -/
theorem toOption_readRetryFile {file : TaskRunRetryFile}
    (type : file.inputType = text "archive" ∨ file.inputType = text "source")
    (size : 0 ≤ file.sizeBytes ∧ file.sizeBytes < 2 ^ 63) (status : ℕ) {arrived : Json}
    (h : (AgentControlHttp.retryFileJson file).Arrives arrived) :
    (Agent.readRetryFile status arrived).toOption =
      if isReadableInput file then some (retryInput file) else none := by
  have hsize : Agent.sizeOrZero arrived = file.sizeBytes := by
    obtain ⟨received, hfound, harrives⟩ := h.field_of_lookup "size_bytes" rfl
    rw [harrives.int_eq ⟨by omega, size.2⟩] at hfound
    simp only [Agent.sizeOrZero, hfound, size.1, if_true]
    exact Int.bmod_eq_of_le (by omega) (by omega)
  have htype := h.str_of_lookup "input_type" rfl
  have hpath : Agent.responseString status arrived "source_path" = .ok file.sourcePath :=
    responseString_of_field (h.str_of_lookup "source_path" rfl)
  have hname : Agent.responseString status arrived "original_name" = .ok file.originalName :=
    responseString_of_field (h.str_of_lookup "original_name" rfl)
  have harchive : Agent.stringOrEmpty arrived "archive_raw_file_id" = file.archiveRawFileId :=
    stringOrEmpty_of_field (h.str_of_lookup "archive_raw_file_id" rfl)
  have hstorage : Agent.stringOrEmpty arrived "storage_path" = file.storagePath :=
    stringOrEmpty_of_field (h.str_of_lookup "storage_path" rfl)
  have hhash : Agent.stringOrEmpty arrived "file_hash" = file.fileHash :=
    stringOrEmpty_of_field (h.str_of_lookup "file_hash" rfl)
  have hmtime : Agent.stringOrEmpty arrived "source_mtime" = file.sourceMtime :=
    stringOrEmpty_of_field (h.str_of_lookup "source_mtime" rfl)
  have hknown : ¬(file.inputType ≠ text "archive" ∧ file.inputType ≠ text "source") := by tauto
  simp only [Agent.readRetryFile, htype, hpath, hname, harchive, hstorage, hhash, hmtime, hsize,
    Fallible.ok_bind, pure_bind, hknown, if_false]
  by_cases hmissing : file.inputType = text "archive" ∧ (file.storagePath = [] ∨ file.fileHash = [])
  · have hunreadable : isReadableInput file = false := by
      obtain ⟨hkind, hmissing⟩ := hmissing
      rcases hmissing with hmissing | hmissing <;> simp [isReadableInput, hkind, hmissing]
    rw [if_pos hmissing, hunreadable]
    rfl
  · have hreadable : isReadableInput file = true := by
      simp [isReadableInput]
      tauto
    rw [if_neg hmissing, hreadable]
    rfl

/-- What arrives of a waiting run is read when each of its inputs is. -/
theorem toOption_readPendingExecution {pending : PendingExecutionRecord}
    (stored : StoredInputs pending) (sizes : ∀ file ∈ pending.retryFiles, file.sizeBytes < 2 ^ 63)
    (status : ℕ) {arrived : Json}
    (h : (AgentControlHttp.pendingExecutionJson pending).Arrives arrived) :
    (Agent.readPendingExecution status arrived).toOption =
      if pending.retryFiles.all isReadableInput then some (waitingRun pending) else none := by
  have hrun : Agent.responseString status arrived "task_run_id" = .ok pending.taskRunId :=
    responseString_of_field (h.str_of_lookup "task_run_id" rfl)
  have htask : Agent.responseString status arrived "task_id" = .ok pending.taskId :=
    responseString_of_field (h.str_of_lookup "task_id" rfl)
  have hkey : Agent.responseString status arrived "execution_key" = .ok pending.executionKey :=
    responseString_of_field (h.str_of_lookup "execution_key" rfl)
  have htrigger : Agent.responseString status arrived "trigger_type" = .ok pending.triggerType :=
    responseString_of_field (h.str_of_lookup "trigger_type" rfl)
  have hrequested : Agent.responseString status arrived "requested_at" = .ok pending.requestedAt :=
    responseString_of_field (h.str_of_lookup "requested_at" rfl)
  obtain ⟨files, hfiles, hitems⟩ := h.arr_of_lookup "retry_files" rfl
  have hinputs : (Agent.readRetryFiles status arrived).toOption =
      if pending.retryFiles.all isReadableInput then some (pending.retryFiles.map retryInput)
      else none := by
    simp only [Agent.readRetryFiles, hfiles]
    apply Fallible.toOption_mapM (List.forall₂_map_left_iff.mp hitems)
    intro file hfile received hreceived
    obtain ⟨htype, hsize⟩ := stored.2 file hfile
    exact toOption_readRetryFile htype ⟨hsize, sizes file hfile⟩ status hreceived
  have hknown : ¬(pending.triggerType ≠ text "manual" ∧ pending.triggerType ≠ text "retry") := by
    have htype := stored.1
    tauto
  simp only [Agent.readPendingExecution, hrun, htask, hkey, htrigger, hrequested, Fallible.ok_bind, hknown,
    if_false, Fallible.toOption_bind, hinputs]
  cases pending.retryFiles.all isReadableInput <;> rfl

/-! ## Whole configurations -/

/-- The node of a configuration is ordered. -/
theorem ordered_nodeJson (node : NodeRecord) : (AgentControlHttp.nodeJson node).Ordered := by
  apply Json.Ordered.record
  · simp only [List.map_cons, List.map_nil]
    decide
  · simp

/-- A task of a configuration is ordered. -/
theorem ordered_taskJson (projected : ManagementTaskResult) :
    (AgentControlHttp.taskJson projected).Ordered := by
  apply Json.Ordered.record
  · simp only [List.map_cons, List.map_nil]
    decide
  · simp [ordered_stringArray]

/-- A waiting run of a configuration is ordered. -/
theorem ordered_pendingExecutionJson (pending : PendingExecutionRecord) :
    (AgentControlHttp.pendingExecutionJson pending).Ordered := by
  have hfile (file : TaskRunRetryFile) : (AgentControlHttp.retryFileJson file).Ordered := by
    apply Json.Ordered.record
    · simp only [List.map_cons, List.map_nil]
      decide
    · simp
  apply Json.Ordered.record
  · simp only [List.map_cons, List.map_nil]
    decide
  · simp [hfile]

/-- The documents of a printed list are ordered when those of its items are. -/
theorem ordered_of_mapM {α : Type} {items : List α} {documents : List Json}
    {print : α → Option Json} (printed : items.mapM print = some documents)
    (each : ∀ item ∈ items, ∀ document, print item = some document → document.Ordered) :
    (Json.arr documents).Ordered := by
  refine Json.ordered_arr.mpr fun document hdocument => ?_
  obtain ⟨item, hitem, hprint⟩ := Fallible.exists_left (Fallible.mapM_eq_some.mp printed) hdocument
  exact each item hitem document hprint

/-- The status of a node is read as it is. -/
theorem readNodeStatus_statusText (status : ℕ) (value : NodeStatus) :
    Agent.readNodeStatus status (statusText value) = .ok value := by
  cases value with
  | online => rfl
  | offline => rfl

/-- The documents that a configuration is printed with are shallow enough to be read. -/
def ShallowSources (wire : Wire R) (db : Database) : Prop :=
  ∀ source ∈ db.dataSources.rows, ∀ document, R.json.parse source.configJson = some document →
    document.depth ≤ wire.readDepth

variable {kept : RowId → Prop} {result : AgentConfigResult}

/-- Every data source that is told can be printed and read. -/
theorem printableSource (truthful : TruthfulResult R kept result db)
    (shallow : ShallowSources wire db) {source : DataSourceRecord}
    (hsource : source ∈ result.dataSources) : ∃ document,
      parseJsonObject R source.configJson = some document ∧ document.depth ≤ wire.readDepth := by
  obtain ⟨row, hrow, -, ⟨-, -, hcsv⟩, rfl⟩ := truthful.config.sources source hsource
  obtain ⟨document, hdocument⟩ := parseJsonObject_of_isCsvSource hcsv
  exact ⟨document, hdocument, shallow row hrow document (parse_of_parseJsonObject hdocument).1⟩

/-- Every rule that is told is a stored one. -/
theorem storedRule_of_told (truthful : TruthfulResult R kept result db)
    {binding : TaskQcRuleBinding} (hbinding : binding ∈ result.taskQcRules) :
    StoredRule R db binding := by
  obtain ⟨projected, hprojected, hrule⟩ := truthful.config.rules binding hbinding
  obtain ⟨task, htold, hrules | hrules⟩ := truthful.config.tasks projected hprojected
  · rw [hrules] at hrule
    exact storedRule_of_mem (truthful.executable.tasks task htold.stored) hrule
  · rw [hrules] at hrule
    cases hrule

/-- A stored rule has no configuration. -/
theorem StoredRule.isEmptyObject {binding : TaskQcRuleBinding} (h : StoredRule R db binding) :
    isEmptyObject R binding.ruleConfigJson = true := by
  obtain ⟨-, rule, -, ⟨-, -, hempty⟩, -, -, -, -, hconfig⟩ := h
  rw [hconfig]
  exact hempty

/-- The fields of a printed configuration. -/
def configFields (result : AgentConfigResult) (sources rules : List Json) :
    List (String × Json) := [
  ("data_sources", .arr sources),
  ("node", AgentControlHttp.nodeJson result.node),
  ("pending_executions", .arr (result.pendingExecutions.map AgentControlHttp.pendingExecutionJson)),
  ("qc_rules", .arr rules),
  ("tasks", .arr (result.enabledTasks.map AgentControlHttp.taskJson))]

/-- What a node is told is printed. -/
theorem configFields_of_truthful (truthful : TruthfulResult R kept result db)
    (shallow : ShallowSources wire db) :
    ∃ sources rules, result.dataSources.mapM (AgentControlHttp.dataSourceJson wire.read) =
        some sources ∧
      result.taskQcRules.mapM (AgentControlHttp.qcRuleJson wire.read) = some rules ∧
        (Json.record (configFields result sources rules)).Ordered := by
  have hsource (source : DataSourceRecord) (h : source ∈ result.dataSources) :
      ∃ printed, AgentControlHttp.dataSourceJson wire.read source = some printed ∧
        printed.Ordered := by
    obtain ⟨document, hdocument, hdepth⟩ := printableSource truthful shallow h
    obtain ⟨printed, hprinted, hordered, -⟩ := readSource_printed hdocument hdepth 200
    exact ⟨printed, hprinted, hordered⟩
  have hrule (binding : TaskQcRuleBinding) (h : binding ∈ result.taskQcRules) :
      ∃ printed, AgentControlHttp.qcRuleJson wire.read binding = some printed ∧
        printed.Ordered := by
    obtain ⟨printed, hprinted, hordered, -⟩ :=
      readRule_printed wire (storedRule_of_told truthful h).isEmptyObject 200
    exact ⟨printed, hprinted, hordered⟩
  obtain ⟨sources, hsources⟩ := Fallible.exists_mapM_eq_some fun source h =>
    (hsource source h).imp fun _ hprinted => hprinted.1
  obtain ⟨rules, hrules⟩ := Fallible.exists_mapM_eq_some fun binding h =>
    (hrule binding h).imp fun _ hprinted => hprinted.1
  have hsourcesOrdered : (Json.arr sources).Ordered :=
    ordered_of_mapM hsources fun source h document hdocument => by
      obtain ⟨printed, hprinted, hordered⟩ := hsource source h
      exact Option.some_inj.mp (hprinted.symm.trans hdocument) ▸ hordered
  have hrulesOrdered : (Json.arr rules).Ordered :=
    ordered_of_mapM hrules fun binding h document hdocument => by
      obtain ⟨printed, hprinted, hordered⟩ := hrule binding h
      exact Option.some_inj.mp (hprinted.symm.trans hdocument) ▸ hordered
  refine ⟨sources, rules, hsources, hrules, ?_⟩
  apply Json.Ordered.record
  · simp only [configFields, List.map_cons, List.map_nil]
    decide
  · simp [configFields, ordered_nodeJson, ordered_taskJson, ordered_pendingExecutionJson]
    exact ⟨Json.ordered_arr.mp hsourcesOrdered, Json.ordered_arr.mp hrulesOrdered⟩

/-- What arrives of a list that is told is a list of the response. -/
theorem responseArray_of_lookup {fields : List (String × Json)} {received : Json}
    (h : (Json.record fields).Arrives received) (utf8 : received.utf8 = true) (key : String)
    {items : List Json} (hitems : fields.lookup key = some (.arr items)) :
    ∃ arrived, Agent.responseArray received key = some arrived ∧
      List.Forall₂ Json.Arrives items arrived ∧ (Json.arr arrived).utf8 = true := by
  obtain ⟨arrived, hfound, harrives⟩ := h.arr_of_lookup key hitems
  exact ⟨arrived, by simp only [Agent.responseArray, hfound], harrives,
    Json.utf8_of_field? utf8 hfound⟩

/-- The data sources that arrive are read as they are told. -/
theorem sources_handed (truthful : TruthfulResult R kept result db)
    (shallow : ShallowSources wire db) {sources arrived : List Json}
    (printed : result.dataSources.mapM (AgentControlHttp.dataSourceJson wire.read) = some sources)
    (arrives : List.Forall₂ Json.Arrives sources arrived) (utf8 : (Json.arr arrived).utf8 = true)
    (status : ℕ) :
    List.Forall₂ (ReadSource wire) result.dataSources
      (arrived.filterMap (Agent.readSource wire.agent status)) := by
  apply kept_of_arrives printed arrives utf8
  intro source hsource document hdocument received hreceived hutf8
  obtain ⟨config, hconfig, hdepth⟩ := printableSource truthful shallow hsource
  obtain ⟨printed, hprinted, -, hread⟩ := readSource_printed hconfig hdepth status
  cases Option.some_inj.mp (hprinted.symm.trans hdocument)
  exact hread received hreceived hutf8

/-- The rules that arrive are read as they are told. -/
theorem rules_handed (truthful : TruthfulResult R kept result db) {rules arrived : List Json}
    (printed : result.taskQcRules.mapM (AgentControlHttp.qcRuleJson wire.read) = some rules)
    (arrives : List.Forall₂ Json.Arrives rules arrived) (utf8 : (Json.arr arrived).utf8 = true)
    (status : ℕ) :
    arrived.filterMap (Agent.readRule wire.agent status) =
      result.taskQcRules.map (readRule wire) := by
  have hread : List.Forall₂ (fun binding found => found = readRule wire binding)
      result.taskQcRules (arrived.filterMap (Agent.readRule wire.agent status)) := by
    apply kept_of_arrives printed arrives utf8
    intro binding hbinding document hdocument received hreceived hutf8
    obtain ⟨printed, hprinted, -, hread⟩ :=
      readRule_printed wire (storedRule_of_told truthful hbinding).isEmptyObject status
    cases Option.some_inj.mp (hprinted.symm.trans hdocument)
    exact ⟨_, hread received hreceived hutf8, rfl⟩
  have hsame : (arrived.filterMap (Agent.readRule wire.agent status)).map id =
      result.taskQcRules.map (readRule wire) :=
    Fallible.map_eq_of_forall₂ hread fun _ _ _ heq => heq
  rwa [List.map_id] at hsame

/-- The tasks that arrive are handed to the agent one by one as they are told. -/
theorem tasks_handed (truthful : TruthfulResult R kept result db)
    {sources : List Agent.SourceProjection} {arrived : List Json}
    (found : List.Forall₂ (ReadSource wire) result.dataSources sources)
    (arrives : List.Forall₂ Json.Arrives (result.enabledTasks.map AgentControlHttp.taskJson) arrived)
    (status : ℕ) :
    List.Forall₂ (fun projected handed => ∃ task, ToldTask R result projected db task ∧
        HandedTask wire db task (result.rulesFor projected.task) handed)
      result.enabledTasks (arrived.filterMap fun task =>
        (Agent.readTask status result.node.nodeCode sources
          (result.taskQcRules.map (readRule wire)) task).toOption) := by
  apply Fallible.forall₂_filterMap (List.forall₂_map_left_iff.mp arrives)
  intro projected hprojected received _ hreceived
  obtain ⟨task, htold, -⟩ := truthful.config.tasks projected hprojected
  obtain ⟨handed, hread, hhanded⟩ := readTask_told (truthful.executable.tasks task htold.stored)
    htold (fun source hsource => (truthful.config.sources source hsource).imp fun _ h => ⟨h.1, h.2.2.2⟩)
    (fun _ => storedRule_of_told truthful) found status hreceived
  rw [htold.nodeCode] at hread
  exact ⟨handed, by rw [hread]; rfl, task, htold, hhanded⟩

/-- The waiting runs that arrive are handed to the agent when their inputs can be read. -/
theorem pending_handed (truthful : TruthfulResult R kept result db)
    (sizes : ∀ pending ∈ result.pendingExecutions, ∀ file ∈ pending.retryFiles,
      file.sizeBytes < 2 ^ 63) {arrived : List Json}
    (arrives : List.Forall₂ Json.Arrives
      (result.pendingExecutions.map AgentControlHttp.pendingExecutionJson) arrived) (status : ℕ) :
    arrived.filterMap (fun execution => (Agent.readPendingExecution status execution).toOption) =
      (result.pendingExecutions.filter fun pending =>
        pending.retryFiles.all isReadableInput).map waitingRun := by
  apply Fallible.filterMap_eq_map_filter (List.forall₂_map_left_iff.mp arrives)
  intro pending hpending received hreceived
  obtain ⟨run, -, -, hmanual, hrun⟩ := truthful.config.pending pending hpending
  have hstored : StoredInputs pending := hrun ▸ storedInputs_of_run hmanual
  exact toOption_readPendingExecution hstored (sizes pending hpending) status hreceived

/-- The tasks that are handed to the agent are the told ones, as they are stored. -/
theorem handedOver_tasks (truthful : TruthfulResult R kept result db) {tasks : List TaskConfig}
    (handed : List.Forall₂ (fun projected handed => ∃ task, ToldTask R result projected db task ∧
      HandedTask wire db task (result.rulesFor projected.task) handed) result.enabledTasks tasks) :
    tasks.map TaskConfig.id = result.enabledTasks.map (fun projected => projected.task.id) ∧
      (∀ handed ∈ tasks, ∃ task ∈ db.tasks.rows, task.nodeCode = result.node.nodeCode ∧
        (HandedTask wire db task (db.ruleBindings task) handed ∨
          HandedTask wire db task [] handed)) ∧
      ∀ task ∈ db.tasks.rows, kept task.id → task.nodeCode = result.node.nodeCode →
        ∃ handed ∈ tasks, HandedTask wire db task (db.ruleBindings task) handed := by
  have hsame {projected : ManagementTaskResult} {left right : TaskRow}
      (hleft : ToldTask R result projected db left) (hright : ToldTask R result projected db right) :
      left = right := by
    apply SerialTable.eq_of_key_eq hleft.stored hright.stored
    have hids := congrArg TaskRecord.id (hleft.record.symm.trans hright.record)
    exact Fin.ext (decimal_inj.mp hids)
  refine ⟨?_, fun task htask => ?_, fun task htask hkept hcode => ?_⟩
  · apply Fallible.map_eq_of_forall₂ handed
    rintro projected - _ ⟨task, htold, source, -, -, configJson, -, rfl⟩
    rw [htold.record]
    rfl
  · obtain ⟨projected, hprojected, row, htold, hhanded⟩ := Fallible.exists_left handed htask
    obtain ⟨other, hother, hrules⟩ := truthful.config.tasks projected hprojected
    cases hsame hother htold
    refine ⟨row, htold.stored, htold.nodeCode, ?_⟩
    rcases hrules with hrules | hrules
    · exact .inl (hrules ▸ hhanded)
    · exact .inr (hrules ▸ hhanded)
  · obtain ⟨projected, hprojected, htold, hrules⟩ :=
      truthful.config.complete task htask hkept hcode
    obtain ⟨found, hfound, row, hrow, hhanded⟩ := Fallible.exists_right handed hprojected
    cases hsame hrow htold
    exact ⟨found, hfound, hrules ▸ hhanded⟩

/-- What is read of an arrived configuration is what the node is told. -/
theorem fetchConfig_handed (truthful : TruthfulResult R kept result db)
    (shallow : ShallowSources wire db)
    (sizes : ∀ pending ∈ result.pendingExecutions, ∀ file ∈ pending.retryFiles,
      file.sizeBytes < 2 ^ 63) {sources rules : List Json}
    (hsources : result.dataSources.mapM (AgentControlHttp.dataSourceJson wire.read) = some sources)
    (hrules : result.taskQcRules.mapM (AgentControlHttp.qcRuleJson wire.read) = some rules)
    {response : Agent.HttpResponse} {received : Json}
    (read : Agent.successData wire.agent response = .ok received)
    (arrives : (Json.record (configFields result sources rules)).Arrives received)
    (utf8 : received.utf8 = true) :
    ∃ pulled, Agent.fetchConfig wire.agent result.node.nodeCode response = .ok pulled ∧
      HandedOver wire kept result db pulled := by
  obtain ⟨sourceItems, hsourceList, hsourceItems, hsourceUtf8⟩ :=
    responseArray_of_lookup arrives utf8 "data_sources" rfl
  obtain ⟨ruleItems, hruleList, hruleItems, hruleUtf8⟩ :=
    responseArray_of_lookup arrives utf8 "qc_rules" rfl
  obtain ⟨taskItems, htaskList, htaskItems, -⟩ := responseArray_of_lookup arrives utf8 "tasks" rfl
  obtain ⟨pendingItems, hpendingList, hpendingItems, -⟩ :=
    responseArray_of_lookup arrives utf8 "pending_executions" rfl
  obtain ⟨node, hnode, hnodeArrives⟩ := arrives.field_of_lookup "node" rfl
  obtain ⟨nodeFields, rfl⟩ := hnodeArrives.obj_eq
  have hfound := sources_handed truthful shallow hsources hsourceItems hsourceUtf8 response.status
  have htold := rules_handed truthful hrules hruleItems hruleUtf8 response.status
  have htasks := tasks_handed truthful hfound htaskItems response.status
  have hpending := pending_handed truthful sizes hpendingItems response.status
  have hcode : Agent.responseString response.status (.obj nodeFields) "node_code" =
      .ok result.node.nodeCode := responseString_of_field (hnodeArrives.str_of_lookup "node_code" rfl)
  have hname : Agent.responseString response.status (.obj nodeFields) "name" =
      .ok result.node.name := responseString_of_field (hnodeArrives.str_of_lookup "name" rfl)
  have hversion : Agent.responseString response.status (.obj nodeFields) "agent_version" =
      .ok result.node.agentVersion :=
    responseString_of_field (hnodeArrives.str_of_lookup "agent_version" rfl)
  have hheartbeat : Agent.responseString response.status (.obj nodeFields) "last_heartbeat_at" =
      .ok result.node.lastHeartbeatAt :=
    responseString_of_field (hnodeArrives.str_of_lookup "last_heartbeat_at" rfl)
  have hstatus : Agent.responseString response.status (.obj nodeFields) "status" =
      .ok (statusText result.node.status) :=
    responseString_of_field (hnodeArrives.str_of_lookup "status" rfl)
  have hread : Agent.fetchConfig wire.agent result.node.nodeCode response = .ok {
      node := ⟨result.node.nodeCode, result.node.name, result.node.agentVersion⟩
      status := result.node.status
      lastHeartbeatAt := result.node.lastHeartbeatAt
      tasks := taskItems.filterMap fun task =>
        (Agent.readTask response.status result.node.nodeCode
          (sourceItems.filterMap (Agent.readSource wire.agent response.status))
          (ruleItems.filterMap (Agent.readRule wire.agent response.status)) task).toOption
      pendingExecutions := pendingItems.filterMap fun execution =>
        (Agent.readPendingExecution response.status execution).toOption } := by
    simp only [Agent.fetchConfig, read, Fallible.ok_bind, hnode, hsourceList, hruleList, htaskList, hcode,
      hname, hversion, hheartbeat, hstatus, readNodeStatus_statusText, ne_eq, not_true_eq_false,
      if_false, hpendingList, Option.getD_some]
    rfl
  refine ⟨_, hread, ?_⟩
  rw [htold]
  obtain ⟨hids, htasksStored, hcomplete⟩ := handedOver_tasks truthful htasks
  exact ⟨⟨rfl, rfl, rfl⟩, hids, htasksStored, hcomplete, hpending⟩

/-- A right configuration can be printed, and when it arrives the agent reads it and is handed what
is stored. -/
theorem respond_handed {db : Database} (truthful : TruthfulResult R kept result db)
    (shallow : ShallowSources wire db)
    (sizes : ∀ pending ∈ result.pendingExecutions, ∀ file ∈ pending.retryFiles,
      file.sizeBytes < 2 ^ 63) :
    let printed := (NodeRequest.config result.node.nodeCode).respond wire.read
      (.ok (.config result))
    printed.code = 200 ∧ (wire.Delivers printed → ∃ pulled,
      (do Agent.fetchConfig wire.agent result.node.nodeCode (← wire.response printed)) =
          .ok pulled ∧
        HandedOver wire kept result db pulled) := by
  obtain ⟨sources, rules, hsources, hrules, hordered⟩ := configFields_of_truthful truthful shallow
  have hprinted : (NodeRequest.config result.node.nodeCode).respond wire.read
      (.ok (.config result)) = ⟨200, successBody (.record (configFields result sources rules))⟩ := by
    simp only [NodeRequest.respond, NodeRequest.data?, AgentControlHttp.configJson, hsources, hrules]
    rfl
  rw [hprinted]
  refine ⟨rfl, fun delivers => ?_⟩
  obtain ⟨received, hread, harrives, hutf8⟩ := Wire.successData_success rfl hordered delivers
  rw [Wire.response_eq delivers, Fallible.ok_bind]
  exact fetchConfig_handed truthful shallow sizes hsources hrules hread harrives hutf8

/-- Along a run that leaves the kept tasks enabled, a configuration that is answered is right. -/
theorem KeepingSteps.truthfulResult (stores : StoresText R.postgres) {before after : ControlState}
    (reachable : ControlReachable R before) (quiet : before.inFlight = [])
    (enabled : ∀ id, kept id → before.db.EnabledTask id) (run : KeepingSteps R kept before after)
    (answered : .ret (.config result) ∈ after.inFlight) :
    TruthfulResult R kept result after.db := by
  have hinitial : InFlightTruthful R kept before := by simp [InFlightTruthful, quiet]
  obtain ⟨-, -, htruthful⟩ := run.truthful stores reachable enabled hinitial
  exact htruthful _ answered

/-- Whatever is created, enabled and disabled meanwhile, a configuration that is answered can be
printed, and when it arrives the agent reads it: it is handed every told task as it is stored, with
its data source and all of its rules or none, the tasks that stay enabled with all of them, and
every waiting run whose inputs can be read. -/
theorem configurations_handed_over (stores : StoresText R.postgres) {before after : ControlState}
    (reachable : ControlReachable R before) (quiet : before.inFlight = [])
    (enabled : ∀ id, kept id → before.db.EnabledTask id) (run : KeepingSteps R kept before after)
    (answered : .ret (.config result) ∈ after.inFlight) (shallow : ShallowSources wire after.db)
    (sizes : ∀ pending ∈ result.pendingExecutions, ∀ file ∈ pending.retryFiles,
      file.sizeBytes < 2 ^ 63) :
    let printed := (NodeRequest.config result.node.nodeCode).respond wire.read
      (.ok (.config result))
    printed.code = 200 ∧ (wire.Delivers printed → ∃ pulled,
      (do Agent.fetchConfig wire.agent result.node.nodeCode (← wire.response printed)) =
          .ok pulled ∧
        HandedOver wire kept result after.db pulled) := by
  exact respond_handed (KeepingSteps.truthfulResult stores reachable quiet enabled run answered)
    shallow sizes

/-- The stored configurations of the node are not deep. -/
theorem Reference.shallow_heard :
    ShallowSources Reference.wire Server.Reference.heard.db := by
  have hdepth : ∀ source ∈ Server.Reference.heard.db.dataSources.rows,
      ((readDocument source.configJson).all fun document => decide (document.depth ≤ 1000)) =
        true := by
    decide +kernel
  intro source hsource document hdocument
  have hall := hdepth source hsource
  rw [show readDocument source.configJson = some document from hdocument] at hall
  exact of_decide_eq_true hall

/-- The node is handed its collection task and its waiting run. -/
theorem configurations_handed_over_collected :
    let printed := (NodeRequest.config (text "lab-node")).respond Reference.wire.read
      (.ok (.config Server.Reference.told))
    ∃ pulled, (do Agent.fetchConfig Reference.wire.agent (text "lab-node")
                    (← Reference.wire.response printed)) = .ok pulled ∧
      HandedOver Reference.wire (· = Server.Reference.collectingTask.id) Server.Reference.told
        Server.Reference.heard.db pulled := by
  obtain ⟨-, hhanded⟩ := configurations_handed_over
    Server.Reference.storesText Server.Reference.reachable_collecting rfl
    Server.Reference.enabled_collecting Server.Reference.run_told Server.Reference.told_heard
    Reference.shallow_heard (by simp [Server.Reference.told])
  exact hhanded ⟨by decide +kernel, by decide +kernel⟩

end LabBridge
