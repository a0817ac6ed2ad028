import LabBridge.Library.Interference
import LabBridge.Server.KeyedRuns
import LabBridge.Server.StoredTasks

/-!
# What a node is told to run

The configuration of a node is read by five statements that are not in a transaction, and tasks
may be created, enabled and disabled between any two of them. A task that is told comes with its
data source, and with all of its rules in their order or with none; it comes with all of them
when it stays enabled meanwhile.
-/

namespace LabBridge.Server

open ByteText LabBridge.Core Storage Interaction ControlTx

variable (R : Runtime)

/-- A task is stored and enabled. -/
def Database.EnabledTask (db : Database) (id : RowId) : Prop :=
  ∃ task ∈ db.tasks.rows, task.id = id ∧ task.enabled = true

/-- What may happen between two statements: the configuration grows, its tasks can be executed,
runs stay, and the tasks that are kept are not disabled. -/
structure Later (kept : RowId → Prop) (before after : Database) : Prop where
  executable : TasksExecutable R after
  grows : Grows R before after
  carried : Carried before after
  stays : ∀ id, kept id → before.EnabledTask id → after.EnabledTask id

/-- A statement is answered in a session. -/
def ControlStatement.Answers (pg : Postgres) (β : Type) (statement : ControlStatement β)
    (before : Database) (answer : β) (after : Database) : Prop :=
  ∃ session, (controlStore pg session).answer β statement before = .ok (answer, after)

/-- The rules of a projected task among the rules that are told. -/
def AgentConfigResult.rulesFor (result : AgentConfigResult) (task : TaskRecord) :
    List TaskQcRuleBinding :=
  AgentControlService.rulesOf result.taskQcRules task

/-- A task that is told as it is stored, with its data source. -/
structure ToldTask (result : AgentConfigResult) (projected : ManagementTaskResult) (db : Database)
    (task : TaskRow) : Prop where
  stored : task ∈ db.tasks.rows
  nodeCode : task.nodeCode = result.node.nodeCode
  record : projected.task = Database.toTaskRecord { task with enabled := true }
  source : ∃ source ∈ db.dataSources.rows, source.id = task.dataSourceId ∧
    source.nodeCode = task.nodeCode ∧ source.Executable R ∧
    Database.toDataSourceRecord source ∈ result.dataSources
  ruleIds : projected.qcRuleIds =
    (result.rulesFor projected.task).map TaskQcRuleBinding.qcRuleId

/-- A waiting run as the statement answers it. -/
def Database.toPendingExecutionRow (pg : Postgres) (run : TaskRunRow) : PendingExecutionRow where
  taskRunId := decimal run.id
  taskId := decimal run.taskId
  executionKey := run.executionKey.getD []
  triggerType := run.triggerType
  requestedAt := pg.utcColumn run.requestedAt
  retryFiles := run.retryFiles.getD []

/-- What a node is told is right: each task is stored and comes with its data source and with all
of its rules or none, kept tasks come with all of them, each data source is stored and can be read,
each rule is told for a task, and each waiting run is one an operator asked for on the node. -/
structure TruthfulConfig (kept : RowId → Prop) (result : AgentConfigResult) (db : Database) :
    Prop where
  node : ∃ node ∈ db.nodes.rows, node.nodeCode = result.node.nodeCode
  tasks : ∀ projected ∈ result.enabledTasks, ∃ task, ToldTask R result projected db task ∧
    (result.rulesFor projected.task = db.ruleBindings task ∨
      result.rulesFor projected.task = [])
  complete : ∀ task ∈ db.tasks.rows, kept task.id → task.nodeCode = result.node.nodeCode →
    ∃ projected ∈ result.enabledTasks, ToldTask R result projected db task ∧
      result.rulesFor projected.task = db.ruleBindings task
  sources : ∀ source ∈ result.dataSources, ∃ row ∈ db.dataSources.rows,
    row.nodeCode = result.node.nodeCode ∧ row.Executable R ∧
      source = Database.toDataSourceRecord row
  rules : ∀ binding ∈ result.taskQcRules, ∃ projected ∈ result.enabledTasks,
    binding ∈ result.rulesFor projected.task
  pending : ∀ pending ∈ result.pendingExecutions, ∃ run ∈ db.taskRuns.rows,
    run.nodeCode = result.node.nodeCode ∧ run.isManual = true ∧
      pending = AgentControlService.toPendingExecution R
        (Database.toPendingExecutionRow R.postgres run)

variable {R} {kept : RowId → Prop} {session : Session} {db db' : Database} {code : Bytes}

namespace Later

/-- Nothing may happen. -/
theorem refl (executable : TasksExecutable R db) : Later R kept db db :=
  ⟨executable, .refl db, fun run hrun => ⟨run, hrun, .refl run⟩, fun _ _ => id⟩

/-- What may happen may happen twice. -/
theorem trans {a b c : Database} (first : Later R kept a b) (second : Later R kept b c) :
    Later R kept a c where
  executable := second.executable
  grows := first.grows.trans second.grows
  carried := by
    intro run hrun
    obtain ⟨same, hsame, hfirst⟩ := first.carried run hrun
    obtain ⟨later, hlater, hsecond⟩ := second.carried same hsame
    exact ⟨later, hlater, hfirst.trans hsecond⟩
  stays := fun id hkept h => second.stays id hkept (first.stays id hkept h)

end Later

/-- The rule that a binding of an executable task names is found. -/
theorem find?_of_ruleFor {id : RowId} (h : db.RuleFor R id) :
    ∃ rule ∈ db.qcRules.rows, rule.id = id ∧ rule.enabled = true ∧
      db.qcRules.find? id = some rule := by
  obtain ⟨rule, hrule, rfl, henabled, -⟩ := h
  exact ⟨rule, hrule, rfl, henabled, SerialTable.find?_key hrule⟩

/-- The rules of a task that can be executed are told in their order. -/
theorem map_ruleBindings {task : TaskRow} (h : ExecutableTask R db task) :
    (db.ruleBindings task).map TaskQcRuleBinding.qcRuleId =
      (db.orderedQcRules task.id).map fun binding => decimal binding.qcRuleId := by
  rw [Database.ruleBindings, List.map_filterMap, ← List.filterMap_eq_map]
  apply List.filterMap_congr
  intro binding hbinding
  obtain ⟨rule, -, hid, henabled, hfound⟩ := find?_of_ruleFor (h.rules binding hbinding)
  rw [hfound, Option.filter_some, if_pos henabled, Option.map_some, Option.map_some, hid]
  rfl

/-- The rules of a stored task are told as they were. -/
theorem Grows.ruleBindings (h : Grows R db db') {task : TaskRow} (htask : task ∈ db.tasks.rows)
    (hexecutable : ExecutableTask R db task) : db'.ruleBindings task = db.ruleBindings task := by
  rw [Database.ruleBindings, h.orderedQcRules htask, Database.ruleBindings]
  apply List.filterMap_congr
  intro binding hbinding
  obtain ⟨rule, hrule, hid, -, hfound⟩ := find?_of_ruleFor (hexecutable.rules binding hbinding)
  have hlater : db'.qcRules.find? binding.qcRuleId = some rule :=
    SerialTable.find?_eq_some.mpr ⟨h.qcRules.subset hrule, hid⟩
  rw [hfound, hlater]

/-! ## The reads -/

/-- A node that is read is a stored one. -/
theorem selectNodeByCode_eq_some {pg : Postgres} {record : NodeRecord}
    (h : db.selectNodeByCode pg code = .ok (some record)) :
    pg.textParam code = .ok record.nodeCode ∧
      ∃ node ∈ db.nodes.rows, node.nodeCode = record.nodeCode := by
  simp only [Database.selectNodeByCode, Answer.bind_eq_ok, Answer.pure_eq_ok, Except.ok.injEq,
    Option.map_eq_some_iff] at h
  obtain ⟨received, hreceived, node, hnode, rfl⟩ := h
  obtain ⟨hmem, rfl⟩ := nodeByCode_eq_some hnode
  exact ⟨hreceived, node, hmem, rfl⟩

/-- The rules of a task carry its identifier. -/
theorem taskId_of_mem_ruleBindings {task : TaskRow} {binding : TaskQcRuleBinding}
    (h : binding ∈ db.ruleBindings task) : binding.taskId = decimal task.id := by
  obtain ⟨bound, -, hbinding⟩ := List.mem_filterMap.mp h
  obtain ⟨rule, -, rfl⟩ := Option.map_eq_some_iff.mp hbinding
  rfl

/-- The identifiers of stored tasks differ. -/
theorem nodup_taskIds {selected : TaskRow → Bool} :
    ((db.tasks.rows.filter selected).map fun task => decimal task.id).Nodup := by
  have hids : ((db.tasks.rows.filter selected).map TaskRow.id).Nodup :=
    db.tasks.nodup_keys.sublist (List.filter_sublist.map _)
  have hnumerals := hids.map (fun left right heq => Fin.ext (decimal_inj.mp heq) :
    Function.Injective fun id : RowId => decimal id)
  rwa [List.map_map] at hnumerals

/-- The rules that are told for an identifier. -/
theorem rulesOf_eq_filter (bindings : List TaskQcRuleBinding) (task : TaskRecord) :
    AgentControlService.rulesOf bindings task =
      bindings.filter fun binding => binding.taskId = task.id :=
  List.filter_congr fun _ _ => beq_eq_decide ..

/-- The data source of a task that can be executed is enabled. -/
theorem hasEnabledSource_of_executable {task : TaskRow} (h : ExecutableTask R db task) :
    db.hasEnabledSource task = true := by
  obtain ⟨source, hsource, hid, hcode, henabled, -⟩ := h.source
  rw [Database.hasEnabledSource, Database.ownSource, Option.bind_some, ← hid,
    SerialTable.find?_key hsource, Option.filter_some, if_pos (by simpa using hcode)]
  simpa using henabled

/-- The rules that the statement answers for a task: all of an enabled task. -/
theorem rulesOf_selected {task : TaskRow} (htask : task ∈ db.enabledTasks code)
    (hsource : db.hasEnabledSource task = true) {record : TaskRecord}
    (hrecord : record.id = decimal task.id) :
    AgentControlService.rulesOf
        (((db.enabledTasks code).filter db.hasEnabledSource).flatMap db.ruleBindings) record =
      db.ruleBindings task := by
  rw [rulesOf_eq_filter, hrecord]
  have hnodup : (((db.enabledTasks code).filter db.hasEnabledSource).map
      fun task => decimal task.id).Nodup := by
    rw [Database.enabledTasks, List.filter_filter]
    exact nodup_taskIds
  exact filter_flatMap_of_mem hnodup (fun _ _ _ => taskId_of_mem_ruleBindings)
    (List.mem_filter.mpr ⟨htask, hsource⟩)

/-- The rules that the statement answers for a task: none of one that is not enabled. -/
theorem rulesOf_unselected {id : RowId} (hnone : ∀ task ∈ db.enabledTasks code, task.id ≠ id)
    {record : TaskRecord} (hrecord : record.id = decimal id) :
    AgentControlService.rulesOf
        (((db.enabledTasks code).filter db.hasEnabledSource).flatMap db.ruleBindings) record =
      [] := by
  rw [rulesOf_eq_filter, hrecord]
  apply filter_flatMap_of_forall fun _ _ _ => taskId_of_mem_ruleBindings
  intro task htask heq
  exact hnone task (List.mem_filter.mp htask).1 (Fin.ext (decimal_inj.mp heq))

/-- The rules of a task depend on its key. -/
theorem ruleBindings_congr {left right : TaskRow} (h : left.id = right.id) :
    db.ruleBindings left = db.ruleBindings right := by
  rw [Database.ruleBindings, h, Database.ruleBindings]

/-- The tables from which the parts of a configuration are read, one after another. -/
structure ConfigReads where
  node : NodeRecord
  tasks : Database
  sources : Database
  bindings : Database
  runs : Database

namespace ConfigReads

variable (reads : ConfigReads)

/-- The tasks that are read. -/
def records : List TaskRecord :=
  (reads.tasks.enabledTasks reads.node.nodeCode).map Database.toTaskRecord

/-- The data sources that are read. -/
def found : List DataSourceRecord :=
  (reads.sources.dataSources.rows.filter fun source => source.nodeCode == reads.node.nodeCode &&
    source.enabled && reads.sources.isInUse source).map Database.toDataSourceRecord

/-- The rules that are read. -/
def told : List TaskQcRuleBinding :=
  ((reads.bindings.enabledTasks reads.node.nodeCode).filter
    reads.bindings.hasEnabledSource).flatMap reads.bindings.ruleBindings

/-- What the node is told. -/
def result (R : Runtime) : AgentConfigResult where
  node := reads.node
  enabledTasks := (AgentControlService.executable reads.found reads.records).map fun task =>
    ⟨task, (AgentControlService.rulesOf reads.told task).map TaskQcRuleBinding.qcRuleId⟩
  dataSources := reads.found
  taskQcRules := (AgentControlService.executable reads.found reads.records).flatMap
    (AgentControlService.rulesOf reads.told)
  pendingExecutions := (reads.runs.taskRuns.rows.filter fun run =>
    run.nodeCode == reads.node.nodeCode && run.status == .pending && run.isManual).map fun run =>
      AgentControlService.toPendingExecution R (Database.toPendingExecutionRow R.postgres run)

variable {reads}

/-- The rules that are told for a task are those that were read for it. -/
theorem rulesFor_result {record : TaskRecord}
    (h : record ∈ AgentControlService.executable reads.found reads.records) :
    (reads.result R).rulesFor record = AgentControlService.rulesOf reads.told record := by
  have hnodup : ((AgentControlService.executable reads.found reads.records).map
      TaskRecord.id).Nodup := by
    have hrecords : (reads.records.map TaskRecord.id).Nodup := by
      rw [records, List.map_map]
      exact nodup_taskIds
    exact hrecords.sublist (List.filter_sublist.map _)
  have hnamed : ∀ task ∈ AgentControlService.executable reads.found reads.records,
      ∀ binding ∈ AgentControlService.rulesOf reads.told task, binding.taskId = task.id := by
    intro task _ binding hbinding
    rw [rulesOf_eq_filter] at hbinding
    simpa using (List.mem_filter.mp hbinding).2
  rw [AgentConfigResult.rulesFor, rulesOf_eq_filter]
  exact filter_flatMap_of_mem hnodup hnamed h

end ConfigReads

/-- A task that is enabled is selected, as it is stored later. -/
theorem mem_enabledTasks {task : TaskRow} (hgrows : Grows R db db')
    (henabled : db.EnabledTask task.id) (htask : task ∈ db'.tasks.rows) :
    ∃ row ∈ db.enabledTasks task.nodeCode, SwitchedTask row task := by
  obtain ⟨row, hrow, hid, hrowEnabled⟩ := henabled
  obtain ⟨moved, hmoved, hswitched⟩ := hgrows.tasks.exists_moved hrow
  have hsame : moved = task := SerialTable.eq_of_key_eq hmoved htask (hswitched.id.trans hid)
  subst hsame
  have hcode : row.nodeCode = moved.nodeCode := by
    obtain ⟨enabled, rfl⟩ := hswitched
    rfl
  refine ⟨row, List.mem_filter.mpr ⟨hrow, ?_⟩, hswitched⟩
  rw [hcode, hrowEnabled, beq_self_eq_true]
  rfl

/-- The tables of a configuration follow one another. -/
structure Successive (R : Runtime) (kept : RowId → Prop) (start : Database) (reads : ConfigReads) :
    Prop where
  tasks : Later R kept start reads.tasks
  sources : Later R kept reads.tasks reads.sources
  bindings : Later R kept reads.sources reads.bindings
  runs : Later R kept reads.bindings reads.runs

namespace Successive

variable {start : Database} {reads : ConfigReads}

/-- A task that is told is stored, with its data source. -/
theorem toldTask (h : Successive R kept start reads) {row : TaskRow}
    (hrow : row ∈ reads.tasks.enabledTasks reads.node.nodeCode)
    (hexecutable : Database.toTaskRecord row ∈
      AgentControlService.executable reads.found reads.records) :
    ∃ task, SwitchedTask row task ∧ ToldTask R (reads.result R)
      ⟨Database.toTaskRecord row,
        (AgentControlService.rulesOf reads.told (Database.toTaskRecord row)).map
          TaskQcRuleBinding.qcRuleId⟩ reads.runs task := by
  obtain ⟨hmem, hselected⟩ := List.mem_filter.mp hrow
  obtain ⟨hcode, henabled⟩ := (Bool.and_eq_true _ _).mp hselected
  have hlater := (h.sources.trans h.bindings).trans h.runs
  obtain ⟨task, htask, hswitched⟩ := hlater.grows.tasks.exists_moved hmem
  obtain ⟨record, hrecord, hid⟩ := List.any_eq_true.mp (List.mem_filter.mp hexecutable).2
  obtain ⟨source, hsource, rfl⟩ := List.mem_map.mp hrecord
  have hid : source.id = row.dataSourceId := Fin.ext (decimal_inj.mp (beq_iff_eq.mp hid))
  have hstored : source ∈ reads.runs.dataSources.rows :=
    (h.bindings.trans h.runs).grows.dataSources.subset (List.mem_filter.mp hsource).1
  obtain ⟨enabled, rfl⟩ := hswitched
  obtain ⟨own, hown, hownId, hownCode, hrest⟩ := (h.runs.executable.tasks _ htask).source
  have hsame : source = own := SerialTable.eq_of_key_eq hstored hown (hid.trans hownId.symm)
  refine ⟨_, ⟨enabled, rfl⟩, {
    stored := htask
    nodeCode := beq_iff_eq.mp hcode
    record := by rw [← henabled]
    source := ⟨source, hstored, hid, hsame ▸ hownCode, hsame ▸ hrest, hrecord⟩
    ruleIds := by rw [ConfigReads.rulesFor_result hexecutable] }⟩

/-- A task that is enabled when the rules are read is told with all of its rules. -/
theorem rulesOf_told (h : Successive R kept start reads) {row task : TaskRow}
    (hrow : row ∈ reads.bindings.enabledTasks reads.node.nodeCode)
    (hid : row.id = task.id) {record : TaskRecord}
    (hrecord : record.id = decimal task.id) :
    AgentControlService.rulesOf reads.told record = reads.runs.ruleBindings task := by
  have hmem := (List.mem_filter.mp hrow).1
  have hexecutable := h.bindings.executable.tasks row hmem
  rw [ConfigReads.told, rulesOf_selected hrow (hasEnabledSource_of_executable hexecutable)
    (hid ▸ hrecord), ← h.runs.grows.ruleBindings hmem hexecutable]
  exact ruleBindings_congr hid

/-- A task that is told comes with all of its rules or with none. -/
theorem told_or_nil (h : Successive R kept start reads) {task : TaskRow} {record : TaskRecord}
    (hrecord : record.id = decimal task.id) :
    AgentControlService.rulesOf reads.told record = reads.runs.ruleBindings task ∨
      AgentControlService.rulesOf reads.told record = [] := by
  by_cases hrow : ∃ row ∈ reads.bindings.enabledTasks reads.node.nodeCode, row.id = task.id
  · obtain ⟨row, hrow, hid⟩ := hrow
    exact .inl (h.rulesOf_told hrow hid hrecord)
  · exact .inr (rulesOf_unselected (fun row hmem hid => hrow ⟨row, hmem, hid⟩) hrecord)

/-- A task that is kept is told with all of its rules. -/
theorem complete (h : Successive R kept start reads)
    (hstart : ∀ id, kept id → start.EnabledTask id) {task : TaskRow}
    (htask : task ∈ reads.runs.tasks.rows) (hkept : kept task.id)
    (hcode : task.nodeCode = reads.node.nodeCode) :
    ∃ row ∈ reads.tasks.enabledTasks reads.node.nodeCode, SwitchedTask row task ∧
      Database.toTaskRecord row ∈ AgentControlService.executable reads.found reads.records ∧
      AgentControlService.rulesOf reads.told (Database.toTaskRecord row) =
        reads.runs.ruleBindings task := by
  have htasks := h.tasks.stays _ hkept (hstart _ hkept)
  have hsources := h.sources.stays _ hkept htasks
  have hbindings := h.bindings.stays _ hkept hsources
  obtain ⟨row, hrow, hswitched⟩ :=
    mem_enabledTasks ((h.sources.trans h.bindings).trans h.runs).grows htasks htask
  obtain ⟨reader, hreader, hreaderSwitched⟩ :=
    mem_enabledTasks (h.bindings.trans h.runs).grows hsources htask
  obtain ⟨bound, hbound, hboundSwitched⟩ := mem_enabledTasks h.runs.grows hbindings htask
  rw [hcode] at hrow hreader hbound
  obtain ⟨hreaderMem, hselected⟩ := List.mem_filter.mp hreader
  obtain ⟨hreaderCode, hreaderEnabled⟩ := (Bool.and_eq_true _ _).mp hselected
  obtain ⟨source, hsource, hid, hown, hsourceEnabled, -⟩ :=
    (h.sources.executable.tasks reader hreaderMem).source
  have hinUse : reads.sources.isInUse source = true := by
    apply List.any_eq_true.mpr
    exact ⟨reader, hreaderMem, by simp [hid, hown, hreaderEnabled]⟩
  have hfound : Database.toDataSourceRecord source ∈ reads.found := by
    apply List.mem_map_of_mem
    apply List.mem_filter.mpr
    refine ⟨hsource, ?_⟩
    rw [hown, hreaderCode, hsourceEnabled, hinUse]
    rfl
  have hsame : source.id = row.dataSourceId := by
    obtain ⟨_, rfl⟩ := hswitched
    obtain ⟨_, hswitch⟩ := hreaderSwitched
    exact hid.trans (congrArg TaskRow.dataSourceId hswitch).symm
  have hexecutable : Database.toTaskRecord row ∈
      AgentControlService.executable reads.found reads.records := by
    apply List.mem_filter.mpr
    refine ⟨List.mem_map_of_mem hrow, List.any_eq_true.mpr ⟨_, hfound, ?_⟩⟩
    exact beq_iff_eq.mpr (congrArg (fun id : RowId => decimal id) hsame)
  exact ⟨row, hrow, hswitched, hexecutable,
    h.rulesOf_told hbound hboundSwitched.id.symm (congrArg (fun id : RowId => decimal id)
      hswitched.id.symm)⟩

/-- A data source that is told is stored, and it can be read. -/
theorem readableSource (h : Successive R kept start reads) {record : DataSourceRecord}
    (hrecord : record ∈ reads.found) : ∃ row ∈ reads.runs.dataSources.rows,
      row.nodeCode = reads.node.nodeCode ∧ row.Executable R ∧
        record = Database.toDataSourceRecord row := by
  obtain ⟨row, hrow, rfl⟩ := List.mem_map.mp hrecord
  obtain ⟨hmem, hselected⟩ := List.mem_filter.mp hrow
  simp only [Bool.and_eq_true, beq_iff_eq] at hselected
  obtain ⟨⟨hcode, -⟩, hinUse⟩ := hselected
  obtain ⟨task, htask, hreads⟩ := List.any_eq_true.mp hinUse
  simp only [Bool.and_eq_true, beq_iff_eq] at hreads
  obtain ⟨own, hown, hid, -, hexecutable⟩ := (h.sources.executable.tasks task htask).source
  have hsame : row = own :=
    SerialTable.eq_of_key_eq hmem hown (hreads.1.1.symm.trans hid.symm)
  exact ⟨row, (h.bindings.trans h.runs).grows.dataSources.subset hmem, hcode,
    hsame ▸ hexecutable, rfl⟩

/-- What a node is told when its parts are read one after another is right. -/
theorem truthful (h : Successive R kept start reads)
    (hstart : ∀ id, kept id → start.EnabledTask id)
    (hnode : ∃ node ∈ start.nodes.rows, node.nodeCode = reads.node.nodeCode) :
    TruthfulConfig R kept (reads.result R) reads.runs where
  node := by
    obtain ⟨node, hmem, hcode⟩ := hnode
    have hlater := ((h.tasks.trans h.sources).trans h.bindings).trans h.runs
    obtain ⟨same, hsame, hcode'⟩ := hlater.grows.nodes node hmem
    exact ⟨same, hsame, hcode'.trans hcode⟩
  tasks := by
    intro projected hprojected
    obtain ⟨record, hexecutable, rfl⟩ := List.mem_map.mp hprojected
    obtain ⟨row, hrow, rfl⟩ := List.mem_map.mp (List.mem_filter.mp hexecutable).1
    obtain ⟨task, hswitched, htold⟩ := h.toldTask hrow hexecutable
    refine ⟨task, htold, ?_⟩
    rw [ConfigReads.rulesFor_result hexecutable]
    exact h.told_or_nil (congrArg (fun id : RowId => decimal id) hswitched.id.symm)
  complete := by
    intro task htask hkept hcode
    obtain ⟨row, hrow, hswitched, hexecutable, hrules⟩ := h.complete hstart htask hkept hcode
    obtain ⟨told, htoldSwitched, htold⟩ := h.toldTask hrow hexecutable
    have hsame : told = task :=
      SerialTable.eq_of_key_eq htold.stored htask (htoldSwitched.id.trans hswitched.id.symm)
    subst hsame
    refine ⟨_, List.mem_map_of_mem hexecutable, htold, ?_⟩
    rw [ConfigReads.rulesFor_result hexecutable]
    exact hrules
  sources := fun source => h.readableSource
  rules := by
    intro binding hbinding
    obtain ⟨record, hexecutable, hrule⟩ := List.mem_flatMap.mp hbinding
    refine ⟨_, List.mem_map_of_mem hexecutable, ?_⟩
    rw [ConfigReads.rulesFor_result hexecutable]
    exact hrule
  pending := by
    intro pending hpending
    obtain ⟨run, hrun, rfl⟩ := List.mem_map.mp hpending
    obtain ⟨hmem, hselected⟩ := List.mem_filter.mp hrun
    obtain ⟨hwaiting, hmanual⟩ := (Bool.and_eq_true _ _).mp hselected
    obtain ⟨hcode, -⟩ := (Bool.and_eq_true _ _).mp hwaiting
    exact ⟨run, hmem, beq_iff_eq.mp hcode, hmanual, rfl⟩

end Successive

/-- A task that was told is told as it is stored later. -/
theorem ToldTask.later {result : AgentConfigResult} {projected : ManagementTaskResult}
    {task : TaskRow} (h : ToldTask R result projected db task) (hgrows : Grows R db db') :
    ∃ moved, SwitchedTask task moved ∧ ToldTask R result projected db' moved := by
  obtain ⟨moved, hmoved, enabled, rfl⟩ := hgrows.tasks.exists_moved h.stored
  obtain ⟨source, hsource, hrest⟩ := h.source
  exact ⟨_, ⟨enabled, rfl⟩, {
    stored := hmoved
    nodeCode := h.nodeCode
    record := h.record
    source := ⟨source, hgrows.dataSources.subset hsource, hrest⟩
    ruleIds := h.ruleIds }⟩

/-- A configuration that was right is right later. -/
theorem TruthfulConfig.later {result : AgentConfigResult} (h : TruthfulConfig R kept result db)
    (hexecutable : TasksExecutable R db) (hlater : Later R kept db db')
    (hkept : ∀ id, kept id → db.EnabledTask id) : TruthfulConfig R kept result db' := by
  have hrules {task moved : TaskRow} (htask : task ∈ db.tasks.rows)
      (hswitched : SwitchedTask task moved) :
      db'.ruleBindings moved = db.ruleBindings task := by
    rw [← hlater.grows.ruleBindings htask (hexecutable.tasks task htask)]
    exact ruleBindings_congr hswitched.id
  refine ⟨?_, ?_, ?_, ?_, h.rules, ?_⟩
  · obtain ⟨node, hnode, hcode⟩ := h.node
    obtain ⟨same, hsame, hcode'⟩ := hlater.grows.nodes node hnode
    exact ⟨same, hsame, hcode'.trans hcode⟩
  · intro projected hprojected
    obtain ⟨task, htold, hbound⟩ := h.tasks projected hprojected
    obtain ⟨moved, hswitched, hmoved⟩ := htold.later hlater.grows
    refine ⟨moved, hmoved, ?_⟩
    rw [hrules htold.stored hswitched]
    exact hbound
  · intro task htask hkeptTask hcode
    obtain ⟨row, hrow, hswitched⟩ := mem_enabledTasks hlater.grows (hkept _ hkeptTask) htask
    have hmem := (List.mem_filter.mp hrow).1
    have hrowCode : row.nodeCode = result.node.nodeCode := by
      obtain ⟨enabled, rfl⟩ := hswitched
      exact hcode
    obtain ⟨projected, hprojected, htold, hbound⟩ :=
      h.complete row hmem (hswitched.id ▸ hkeptTask) hrowCode
    obtain ⟨moved, hmovedSwitched, hmoved⟩ := htold.later hlater.grows
    have hsame : moved = task := SerialTable.eq_of_key_eq hmoved.stored htask
      (hmovedSwitched.id.trans hswitched.id.symm)
    subst hsame
    exact ⟨projected, hprojected, hmoved, hbound.trans (hrules hmem hswitched).symm⟩
  · intro source hsource
    obtain ⟨row, hrow, hrest⟩ := h.sources source hsource
    exact ⟨row, hlater.grows.dataSources.subset hrow, hrest⟩
  · intro pending hpending
    obtain ⟨run, hrun, hcode, hmanual, hfixed⟩ := h.pending pending hpending
    obtain ⟨same, hsame, hfields⟩ := hlater.carried run hrun
    have hrow : Database.toPendingExecutionRow R.postgres same =
        Database.toPendingExecutionRow R.postgres run := by
      rw [Database.toPendingExecutionRow, hfields.id, hfields.taskId, hfields.executionKey,
        hfields.triggerType, hfields.requestedAt, hfields.retryFiles]
      rfl
    refine ⟨same, hsame, hfields.nodeCode.trans hcode, ?_, hrow ▸ hfixed⟩
    rw [TaskRunRow.isManual, hfields.triggerType]
    exact hmanual

/-! ## Requests on their way -/

/-- A configuration is right in tables whose tasks can be executed while the kept ones are
enabled. -/
structure TruthfulResult (R : Runtime) (kept : RowId → Prop) (result : AgentConfigResult)
    (db : Database) : Prop where
  executable : TasksExecutable R db
  enabled : ∀ id, kept id → db.EnabledTask id
  config : TruthfulConfig R kept result db

/-- What a reply must be: a configuration must be right. -/
def TruthfulReply (R : Runtime) (kept : RowId → Prop) : NodeReply → Database → Prop
  | .done, _ => True
  | .config result, db => TruthfulResult R kept result db

/-- A reply that was right is right later. -/
theorem TruthfulReply.later {reply : NodeReply} (h : TruthfulReply R kept reply db)
    (hlater : Later R kept db db') : TruthfulReply R kept reply db' := by
  cases reply with
  | done => trivial
  | config result =>
    have hresult : TruthfulResult R kept result db := h
    have hkept : ∀ id, kept id → db'.EnabledTask id := fun id hid =>
      hlater.stays id hid (hresult.enabled id hid)
    exact ⟨hlater.executable, hkept,
      hresult.config.later hresult.executable hlater hresult.enabled⟩

/-- A read of the configuration answers from the tables. -/
theorem answers_reading {α : Type} {statement : ConfigStatement α} {read : Answer α} {answer : α}
    (hread : statement.exec R.postgres db = Statement.reading db read)
    (h : ControlStatement.Answers R.postgres α (.inr statement) db answer db') :
    read = .ok answer ∧ db = db' := by
  obtain ⟨session, hanswer⟩ := h
  have hexec := answer_inr.mp hanswer
  rw [hread] at hexec
  exact Statement.reading_eq_ok.mp hexec

/-- However other steps come between its statements, what is found for a node is right. -/
theorem findConfig_withstands (hkept : ∀ id, kept id → db.EnabledTask id) (code : Bytes) :
    (AgentControlService.findConfig R code).Withstands (ControlStatement.Answers R.postgres)
      (Later R kept) (TruthfulResult R kept) db := by
  apply Program.withstands_unless_stop
  intro first hfirst found reached hanswer
  obtain ⟨session, hanswer⟩ := hanswer
  obtain ⟨hselect, rfl⟩ := Statement.reading_eq_ok.mp (answer_inl.mp hanswer)
  cases found with
  | none => trivial
  | some node =>
    obtain ⟨hcode, hnode⟩ := selectNodeByCode_eq_some hselect
    intro tasks htasks records reached hanswer
    obtain ⟨hrecords, rfl⟩ := answers_reading rfl hanswer
    intro sources hsources found reached hanswer
    obtain ⟨hfound, rfl⟩ := answers_reading rfl hanswer
    intro bindings hbindings told reached hanswer
    obtain ⟨htold, rfl⟩ := answers_reading rfl hanswer
    intro runs hruns pending reached hanswer
    obtain ⟨hpending, rfl⟩ := answers_reading rfl hanswer
    simp only [Database.selectEnabledTasks, Database.selectEnabledDataSources,
      Database.selectEnabledTaskQcRules, Database.selectPendingExecutions, hcode, Answer.ok_bind,
      Answer.pure_eq_ok, Except.ok.injEq] at hrecords hfound htold hpending
    subst hrecords hfound htold hpending
    have hsuccessive : Successive R kept first ⟨node, tasks, sources, bindings, runs⟩ :=
      ⟨htasks, hsources, hbindings, hruns⟩
    have hlater := (((hfirst.trans htasks).trans hsources).trans hbindings).trans hruns
    have htruthful := hsuccessive.truthful (fun id hid => hfirst.stays id hid (hkept id hid)) hnode
    refine ⟨hlater.executable, fun id hid => hlater.stays id hid (hkept id hid), ?_⟩
    rw [List.map_map]
    exact htruthful

/-- However other steps come between its statements, a request of a node is answered rightly. -/
theorem NodeRequest.program_withstands (hkept : ∀ id, kept id → db.EnabledTask id)
    (request : NodeRequest) :
    (request.program R).Withstands (ControlStatement.Answers R.postgres) (Later R kept)
      (TruthfulReply R kept) db := by
  cases request with
  | config code =>
    exact (findConfig_withstands hkept code).bind fun result reached h => h
  | register node =>
    exact (Program.withstands_true (NodeService.registerNode node) db).bind fun _ _ _ => trivial
  | heartbeat beat =>
    exact (Program.withstands_true (NodeService.acceptHeartbeat beat) db).bind fun _ _ _ => trivial

/-- Every request on its way is answered rightly. -/
def InFlightTruthful (R : Runtime) (kept : RowId → Prop) (state : ControlState) : Prop :=
  ∀ program ∈ state.inFlight, program.Withstands (ControlStatement.Answers R.postgres)
    (Later R kept) (TruthfulReply R kept) state.db

/-- A step of the control plane is one of those that requests on their way rely on. -/
theorem ControlStep.later {before after : ControlState} (stores : StoresText R.postgres)
    (reachable : Reachable R before.db) (besideTasks : InFlightBesideTasks before)
    (hexecutable : TasksExecutable R before.db) (step : ControlStep R before after)
    (stays : ∀ id, kept id → before.db.EnabledTask id → after.db.EnabledTask id) :
    Later R kept before.db after.db where
  executable := (step.grows stores reachable.sound.codes hexecutable
    besideTasks).tasksExecutable hexecutable
  grows := step.grows stores reachable.sound.codes hexecutable besideTasks
  carried := by
    intro run hrun
    obtain ⟨later, hlater, hsame, -⟩ :=
      (step.refines stores reachable besideTasks).1.exists_same hrun
    exact ⟨later, hlater, hsame⟩
  stays := stays

/-- A step that requests rely on leaves every request on its way to be answered rightly. -/
theorem ControlStep.truthful {before after : ControlState}
    (hexecutable : TasksExecutable R before.db)
    (hkept : ∀ id, kept id → before.db.EnabledTask id) (step : ControlStep R before after)
    (hlater : Later R kept before.db after.db) (h : InFlightTruthful R kept before) :
    InFlightTruthful R kept after := by
  cases step with
  | call call session => exact fun program hprogram =>
      (h program hprogram).later .trans .later hlater
  | command command session => exact fun program hprogram =>
      (h program hprogram).later .trans .later hlater
  | arrive request =>
    intro program hprogram
    rcases List.mem_append.mp hprogram with hprogram | hprogram
    · exact h program hprogram
    · rw [List.mem_singleton.mp hprogram]
      exact request.program_withstands hkept
  | advance session split advances =>
    cases advances with
    | call answered =>
      unfold InFlightTruthful at h
      rw [split] at h
      exact Program.Withstands.advance (.refl hexecutable) .trans .later h
        ⟨session, Store.handler_eq_ok.mp answered⟩ hlater
  | leave split =>
    intro program hprogram
    apply h program
    rw [split]
    rcases List.mem_append.mp hprogram with hprogram | hprogram
    · exact List.mem_append_left _ hprogram
    · exact List.mem_append_right _ (List.mem_cons_of_mem _ hprogram)

/-- Steps of the control plane that leave the kept tasks enabled. -/
def KeepingSteps (R : Runtime) (kept : RowId → Prop) : ControlState → ControlState → Prop :=
  Relation.ReflTransGen fun before after =>
    ControlStep R before after ∧ ∀ id, kept id → after.db.EnabledTask id

/-- Along a run that leaves the kept tasks enabled every request is answered rightly. -/
theorem KeepingSteps.truthful {before after : ControlState} (stores : StoresText R.postgres)
    (reachable : ControlReachable R before) (hkept : ∀ id, kept id → before.db.EnabledTask id)
    (h : InFlightTruthful R kept before) (run : KeepingSteps R kept before after) :
    ControlReachable R after ∧ (∀ id, kept id → after.db.EnabledTask id) ∧
      InFlightTruthful R kept after := by
  induction run with
  | refl => exact ⟨reachable, hkept, h⟩
  | tail _ step ih =>
    obtain ⟨hreachable, henabled, htruthful⟩ := ih
    obtain ⟨hserver, hbeside⟩ := hreachable.refines stores
    have hexecutable := hreachable.tasksExecutable stores
    have hlater := step.1.later stores hserver hbeside hexecutable
      fun id hid _ => step.2 id hid
    exact ⟨hreachable.tail step.1, step.2,
      step.1.truthful hexecutable henabled hlater htruthful⟩

/-- The rules that are told for a task are its rules in their order. -/
theorem ToldTask.qcRuleIds_eq {result : AgentConfigResult} {projected : ManagementTaskResult}
    {task : TaskRow} (hexecutable : TasksExecutable R db)
    (h : ToldTask R result projected db task)
    (hrules : result.rulesFor projected.task = db.ruleBindings task) :
    projected.qcRuleIds =
      (db.orderedQcRules task.id).map fun binding => decimal binding.qcRuleId := by
  rw [h.ruleIds, hrules]
  exact map_ruleBindings (hexecutable.tasks task h.stored)

namespace Reference

/-- Whether a task stays enabled at every step of a script. -/
def staysEnabled (id : RowId) : List ScriptStep → ControlState → Bool
  | [], _ => true
  | step :: rest, state =>
    ((step.take state).db.tasks.rows.any fun task => task.id == id && task.enabled) &&
      staysEnabled id rest (step.take state)

/-- A script along which a task stays enabled is a run that keeps it. -/
theorem keeping_play {id : RowId} {script : List ScriptStep} {state : ControlState}
    (h : staysEnabled id script state = true) :
    KeepingSteps runtime (· = id) state (play script state) := by
  induction script generalizing state with
  | nil => exact .refl
  | cons step rest ih =>
    rw [staysEnabled, Bool.and_eq_true] at h
    obtain ⟨henabled, hrest⟩ := h
    change KeepingSteps runtime (· = id) state (play rest (step.take state))
    rcases step.take_steps state with hsame | hstep
    · rw [hsame] at hrest ⊢
      exact ih hrest
    · refine .head ⟨hstep, ?_⟩ (ih hrest)
      rintro other rfl
      obtain ⟨task, hmem, htask⟩ := List.any_eq_true.mp henabled
      rw [Bool.and_eq_true, beq_iff_eq] at htask
      exact ⟨task, hmem, htask⟩

/-- What the node with its collection task is told. -/
def told : AgentConfigResult where
  node := {
    nodeCode := text "lab-node"
    name := text "Lab node"
    agentVersion := text "0.1.0"
    status := .offline
    lastHeartbeatAt := [] }
  enabledTasks := [collected]
  dataSources := [{
    id := text "1"
    nodeCode := text "lab-node"
    sourceType := .localDirectory
    name := text "Balance"
    configJson := text "\x7b\"extension\":\".csv\",\"root_path\":\"/data\"\x7d"
    enabled := true }]
  taskQcRules := [{
    taskId := text "1"
    qcRuleId := text "1"
    ruleType := text "required_fields"
    name := text "Fields"
    ruleConfigJson := text "\x7b\x7d"
    sortOrder := 10 }]
  pendingExecutions := [{
    taskRunId := text "1"
    taskId := text "1"
    executionKey := TaskRunService.operatorKey operatorKey
    triggerType := text "manual"
    requestedAt := text "2024-05-01T08:00:00Z"
    retryFiles := [] }]

/-- The node asks for its configuration; while it is read another directory is set up, another
node registers, and an operator asks for a run of the task. -/
def asking : List ScriptStep :=
  [.arrive (.config (text "lab-node")), .advance 0, .advance 0, .command directory,
    .arrive (.register secondRegistration), .advance 0,
    .call (.trigger (text "1") operatorKey), .advance 1, .advance 0, .advance 0]

/-- What is stored and on its way once the node is told. -/
def heard : ControlState := play asking ⟨collecting, []⟩

/-- The collection task is enabled. -/
theorem enabled_collecting : ∀ id, id = collectingTask.id → collecting.EnabledTask id := by
  rintro id rfl
  have hmem : collectingTask ∈ collecting.tasks.rows := by decide +kernel
  exact ⟨collectingTask, hmem, rfl, rfl⟩

/-- The node asks for its configuration and is told, while its task stays enabled. -/
theorem run_told : KeepingSteps runtime (· = collectingTask.id) ⟨collecting, []⟩ heard :=
  keeping_play (by decide +kernel)

/-- The node is told of its task and of the run that waits. -/
theorem told_heard : .ret (.config told) ∈ heard.inFlight := by
  have hreply : replyAt 0 heard = some (.config told) := by decide +kernel
  exact mem_of_replyAt hreply

end Reference

/-- Whatever is created, enabled and disabled between its statements, a configuration that is
answered names tasks that are stored for the node, each with its data source and with all of its
rules in their order or with none, and runs an operator asked for on the node. -/
theorem configurations_truthful (stores : StoresText R.postgres) {state : ControlState}
    (reachable : ControlReachable R state) {result : AgentConfigResult}
    (answered : .ret (.config result) ∈ state.inFlight) :
    (∃ node ∈ state.db.nodes.rows, node.nodeCode = result.node.nodeCode) ∧
      (∀ projected ∈ result.enabledTasks, ∃ task, ToldTask R result projected state.db task ∧
        (projected.qcRuleIds =
            (state.db.orderedQcRules task.id).map (fun binding => decimal binding.qcRuleId) ∨
          projected.qcRuleIds = [])) ∧
      ∀ pending ∈ result.pendingExecutions, ∃ run ∈ state.db.taskRuns.rows,
        run.nodeCode = result.node.nodeCode ∧ run.isManual = true ∧
          pending = AgentControlService.toPendingExecution R
            (Database.toPendingExecutionRow R.postgres run) := by
  have hrun : KeepingSteps R (fun _ => False) .initial state :=
    Relation.ReflTransGen.mono (fun _ _ step => ⟨step, fun _ => False.elim⟩) _ _ reachable
  have hinitial : InFlightTruthful R (fun _ => False) .initial := by
    simp [InFlightTruthful, ControlState.initial]
  obtain ⟨-, -, htruthful⟩ := hrun.truthful stores .refl (fun _ => False.elim) hinitial
  have hresult : TruthfulResult R (fun _ => False) result state.db := htruthful _ answered
  refine ⟨hresult.config.node, fun projected hprojected => ?_, hresult.config.pending⟩
  obtain ⟨task, htold, hrules⟩ := hresult.config.tasks projected hprojected
  refine ⟨task, htold, ?_⟩
  rcases hrules with hrules | hrules
  · exact .inl (htold.qcRuleIds_eq hresult.executable hrules)
  · exact .inr (by rw [htold.ruleIds, hrules, List.map_nil])

/-- The node with its collection task and a waiting run is told the truth. -/
theorem configurations_truthful_told :
    (∃ task, ToldTask Reference.runtime Reference.told Reference.collected Reference.heard.db
      task) ∧
      ∀ pending ∈ Reference.told.pendingExecutions, ∃ run ∈ Reference.heard.db.taskRuns.rows,
        run.nodeCode = Reference.told.node.nodeCode ∧ run.isManual = true ∧
          pending = AgentControlService.toPendingExecution Reference.runtime
            (Database.toPendingExecutionRow Reference.runtime.postgres run) := by
  have hsteps : ControlSteps Reference.runtime ⟨Reference.collecting, []⟩ Reference.heard :=
    Reference.steps_play Reference.asking _
  obtain ⟨-, htasks, hpending⟩ := configurations_truthful Reference.storesText
    (Reference.reachable_collecting.trans hsteps) Reference.told_heard
  obtain ⟨task, htold, -⟩ := htasks Reference.collected (List.mem_singleton_self _)
  exact ⟨⟨task, htold⟩, hpending⟩

/-- A task that stays enabled while the configuration of its node is read is told as it is stored,
with its data source and all of its rules, whatever else is created, enabled and disabled. -/
theorem configurations_complete (stores : StoresText R.postgres) {before after : ControlState}
    (reachable : ControlReachable R before) (quiet : before.inFlight = []) {task : TaskRow}
    (stored : task ∈ before.db.tasks.rows) (enabled : task.enabled = true)
    (run : KeepingSteps R (· = task.id) before after) {result : AgentConfigResult}
    (answered : .ret (.config result) ∈ after.inFlight)
    (ofNode : result.node.nodeCode = task.nodeCode) :
    ∃ projected ∈ result.enabledTasks, ToldTask R result projected after.db task ∧
      projected.qcRuleIds =
        (after.db.orderedQcRules task.id).map fun binding => decimal binding.qcRuleId := by
  have hinitial : InFlightTruthful R (· = task.id) before := by
    simp [InFlightTruthful, quiet]
  have hstart : ∀ id, id = task.id → before.db.EnabledTask id := fun id hid =>
    ⟨task, stored, hid.symm, enabled⟩
  obtain ⟨-, -, htruthful⟩ := run.truthful stores reachable hstart hinitial
  have hresult : TruthfulResult R (· = task.id) result after.db := htruthful _ answered
  have hsteps : ControlSteps R before after :=
    Relation.ReflTransGen.mono (fun _ _ step => step.1) _ _ run
  obtain ⟨hserver, hbeside⟩ := reachable.refines stores
  obtain ⟨hgrows, -⟩ :=
    ControlSteps.grows stores hserver hbeside (reachable.tasksExecutable stores) hsteps
  obtain ⟨row, hrow, hid, hrowEnabled⟩ := hresult.enabled task.id rfl
  obtain ⟨moved, hmoved, hswitched⟩ := hgrows.tasks.exists_moved stored
  have hsame : row = task := by
    have hmovedRow : moved = row :=
      SerialTable.eq_of_key_eq hmoved hrow (hswitched.id.trans hid.symm)
    obtain ⟨switched, rfl⟩ := hswitched
    rw [← hmovedRow] at hrowEnabled ⊢
    have hstays : switched = true := hrowEnabled
    rw [hstays, ← enabled]
  subst hsame
  obtain ⟨projected, hprojected, htold, hrules⟩ :=
    hresult.config.complete row hrow rfl ofNode.symm
  exact ⟨projected, hprojected, htold, htold.qcRuleIds_eq hresult.executable hrules⟩

/-- The collection task is told with its rules. -/
theorem configurations_complete_told :
    ∃ projected ∈ Reference.told.enabledTasks,
      ToldTask Reference.runtime Reference.told projected Reference.heard.db
        Reference.collectingTask := by
  have hmem : Reference.collectingTask ∈ Reference.collecting.tasks.rows := by decide +kernel
  obtain ⟨projected, hprojected, htold, -⟩ := configurations_complete Reference.storesText
    Reference.reachable_collecting rfl hmem rfl Reference.run_told Reference.told_heard rfl
  exact ⟨projected, hprojected, htold⟩

end LabBridge.Server
