import LabBridge.Core.CronFields
import LabBridge.Server.ControlSystem

/-!
# What creating a task does

A created task is one that can be executed: its node is registered, its data source is its own,
enabled and a directory of CSV files, and its rules are enabled and take no configuration. The
rules are bound in the order they were asked for, each at the last place that names it.
-/

namespace LabBridge.Server

open ByteText LabBridge.Core Storage Interaction ControlTx

variable (R : Runtime)

/-- A rule an agent can run: enabled, of a supported type and without configuration. -/
def QcRuleRow.Executable (rule : QcRuleRow) : Prop :=
  rule.enabled = true ∧ isSupportedRuleType rule.ruleType = true ∧
    isEmptyObject R rule.ruleConfigJson = true

/-- A data source an agent can read: an enabled directory of CSV files. -/
def DataSourceRow.Executable (source : DataSourceRow) : Prop :=
  source.enabled = true ∧ source.sourceType = .localDirectory ∧
    isCsvSource R source.configJson = true

/-- The data source that a task reads, as the checks on the task want it. -/
def Database.SourceFor (db : Database) (nodeCode : Bytes) (dataSourceId : RowId) : Prop :=
  ∃ source ∈ db.dataSources.rows, source.id = dataSourceId ∧ source.nodeCode = nodeCode ∧
    source.Executable R

/-- A rule that a task applies, as the checks on the task want it. -/
def Database.RuleFor (db : Database) (qcRuleId : RowId) : Prop :=
  ∃ rule ∈ db.qcRules.rows, rule.id = qcRuleId ∧ rule.Executable R

variable {R} {pg : Postgres} {session : Session} {db db' : Database}

/-- A key that a parameter names is found where a row carries it. -/
theorem bind_find?_eq_some {Row : Type} {key : Row → RowId} {clash : Row → Row → Bool}
    {table : SerialTable Row key clash} {id : Option RowId} {row : Row} :
    id.bind table.find? = some row ↔ id = some (key row) ∧ row ∈ table.rows := by
  constructor
  · intro h
    obtain ⟨found, hid, hfound⟩ := Option.bind_eq_some_iff.mp h
    obtain ⟨hrow, hkey⟩ := SerialTable.find?_eq_some.mp hfound
    exact ⟨hid.trans (congrArg some hkey.symm), hrow⟩
  · rintro ⟨rfl, hrow⟩
    exact SerialTable.find?_key hrow

/-- A rule that is read is a stored one. -/
theorem selectRule_eq_some {value : Bytes} {record : QcRuleRecord} :
    db.selectRule pg value = .ok (some record) ↔
      ∃ rule ∈ db.qcRules.rows, pg.idParam value = .ok (some rule.id) ∧
        Database.toQcRuleRecord rule = record := by
  simp only [Database.selectRule, Answer.bind_eq_ok, Answer.pure_eq_ok, Except.ok.injEq,
    Option.map_eq_some_iff, bind_find?_eq_some]
  constructor
  · rintro ⟨id, hid, rule, ⟨rfl, hrule⟩, rfl⟩
    exact ⟨rule, hrule, hid, rfl⟩
  · rintro ⟨rule, hrule, hid, rfl⟩
    exact ⟨_, hid, rule, ⟨rfl, hrule⟩, rfl⟩

/-- A data source that is read is a stored one. -/
theorem selectDataSource_eq_some {value : Bytes} {record : DataSourceRecord} :
    db.selectDataSource pg value = .ok (some record) ↔
      ∃ source ∈ db.dataSources.rows, pg.idParam value = .ok (some source.id) ∧
        Database.toDataSourceRecord source = record := by
  simp only [Database.selectDataSource, Answer.bind_eq_ok, Answer.pure_eq_ok, Except.ok.injEq,
    Option.map_eq_some_iff, bind_find?_eq_some]
  constructor
  · rintro ⟨id, hid, source, ⟨rfl, hsource⟩, rfl⟩
    exact ⟨source, hsource, hid, rfl⟩
  · rintro ⟨source, hsource, hid, rfl⟩
    exact ⟨_, hid, source, ⟨rfl, hsource⟩, rfl⟩

/-- The rules of a task pass when each is stored and can be run. -/
theorem yields_validateRules {qcRuleIds : List Bytes} :
    Tx.Yields R.postgres session (validateRules R qcRuleIds) db () db' ↔
      db = db' ∧ ∃ rules : List RowId,
        List.Forall₂ (fun value rule => R.postgres.idParam value = .ok (some rule)) qcRuleIds
          rules ∧ ∀ rule ∈ rules, db.RuleFor R rule := by
  induction qcRuleIds with
  | nil =>
    rw [validateRules, Tx.yields_pure]
    constructor
    · rintro ⟨-, rfl⟩
      exact ⟨rfl, [], .nil, by simp⟩
    · exact fun h => ⟨rfl, h.1⟩
  | cons qcRuleId rest ih =>
    rw [validateRules, Tx.yields_sql_bind]
    constructor
    · rintro ⟨answer, mid, hexec, h⟩
      obtain ⟨hselect, rfl⟩ := Statement.reading_eq_ok.mp hexec
      cases answer with
      | none => simp at h
      | some record =>
        obtain ⟨rule, hrule, hid, rfl⟩ := selectRule_eq_some.mp hselect
        simp only [Tx.yields_unless_refuse, Bool.not_eq_true', Bool.not_eq_false] at h
        obtain ⟨henabled, htype, hconfig, h⟩ := h
        obtain ⟨rfl, rules, hrules, hall⟩ := ih.mp h
        refine ⟨rfl, rule.id :: rules, .cons hid hrules, fun other hother => ?_⟩
        rcases List.mem_cons.mp hother with rfl | hother
        · exact ⟨rule, hrule, rfl, henabled, htype, hconfig⟩
        · exact hall other hother
    · rintro ⟨rfl, rules, hrules, hall⟩
      cases hrules with
      | cons hid hrest =>
        obtain ⟨rule, hrule, rfl, henabled, htype, hconfig⟩ := hall _ (List.mem_cons_self ..)
        refine ⟨_, db, Statement.reading_eq_ok.mpr
          ⟨selectRule_eq_some.mpr ⟨rule, hrule, hid, rfl⟩, rfl⟩, ?_⟩
        simp only [Tx.yields_unless_refuse, Bool.not_eq_true', Bool.not_eq_false]
        exact ⟨henabled, htype, hconfig, ih.mpr ⟨rfl, _, hrest,
          fun other hother => hall other (List.mem_cons_of_mem _ hother)⟩⟩

/-- A node that is read is a stored one. -/
theorem selectNodeByCode_isSome {nodeCode : Bytes} :
    (∃ record, db.selectNodeByCode pg nodeCode = .ok (some record)) ↔
      ∃ received, pg.receive nodeCode = some received ∧
        ∃ node ∈ db.nodes.rows, node.nodeCode = received := by
  simp only [Database.selectNodeByCode, Postgres.textParam, Answer.bind_eq_ok, Answer.pure_eq_ok,
    accepted_eq_ok, Except.ok.injEq, Option.map_eq_some_iff]
  constructor
  · rintro ⟨record, received, hreceived, node, hnode, -⟩
    exact ⟨received, hreceived, node, nodeByCode_eq_some hnode⟩
  · rintro ⟨received, hreceived, node, hnode, hcode⟩
    have hfound : (db.nodes.rows.find? fun node => node.nodeCode == received).isSome :=
      List.find?_isSome.mpr ⟨node, hnode, by simpa using hcode⟩
    obtain ⟨found, hfound⟩ := Option.isSome_iff_exists.mp hfound
    exact ⟨_, received, hreceived, found, hfound, rfl⟩

/-- The rules that some identifiers name, as the database reads them. -/
def Postgres.Names (pg : Postgres) : List Bytes → List RowId → Prop :=
  List.Forall₂ fun value rule => pg.idParam value = .ok (some rule)

/-- A task passes when its node is registered, and its data source and its rules can be run. -/
theorem yields_validateTaskExecutable {task : TaskRecord} {qcRuleIds : List Bytes} :
    Tx.Yields R.postgres session (validateTaskExecutable R task qcRuleIds) db () db' ↔
      db = db' ∧ (∃ received, R.postgres.receive task.nodeCode = some received ∧
          ∃ node ∈ db.nodes.rows, node.nodeCode = received) ∧
        (∃ id, R.postgres.idParam task.dataSourceId = .ok (some id) ∧
          db.SourceFor R task.nodeCode id) ∧
        ∃ rules, R.postgres.Names qcRuleIds rules ∧ ∀ rule ∈ rules, db.RuleFor R rule := by
  rw [validateTaskExecutable, Tx.yields_sql_bind]
  constructor
  · rintro ⟨answer, mid, hexec, h⟩
    obtain ⟨hnode, rfl⟩ := Statement.reading_eq_ok.mp hexec
    cases answer with
    | none => simp at h
    | some node =>
      obtain ⟨answer, mid, hexec, h⟩ := Tx.yields_sql_bind.mp h
      obtain ⟨hselect, rfl⟩ := Statement.reading_eq_ok.mp hexec
      cases answer with
      | none => simp at h
      | some record =>
        obtain ⟨source, hsource, hid, rfl⟩ := selectDataSource_eq_some.mp hselect
        simp only [Tx.yields_unless_refuse, ne_eq, not_not, Bool.not_eq_true',
          Bool.not_eq_false] at h
        obtain ⟨hcode, henabled, htype, hconfig, h⟩ := h
        obtain ⟨rfl, hrules⟩ := yields_validateRules.mp h
        exact ⟨rfl, selectNodeByCode_isSome.mp ⟨node, hnode⟩,
          ⟨source.id, hid, source, hsource, rfl, hcode, henabled, htype, hconfig⟩, hrules⟩
  · rintro ⟨rfl, hnode, ⟨id, hid, source, hsource, rfl, hcode, henabled, htype, hconfig⟩, hrules⟩
    obtain ⟨node, hnode⟩ := selectNodeByCode_isSome.mpr hnode
    refine ⟨some node, db, Statement.reading_eq_ok.mpr ⟨hnode, rfl⟩, ?_⟩
    refine Tx.yields_sql_bind.mpr ⟨_, db, Statement.reading_eq_ok.mpr
      ⟨selectDataSource_eq_some.mpr ⟨source, hsource, hid, rfl⟩, rfl⟩, ?_⟩
    simp only [Tx.yields_unless_refuse, ne_eq, not_not, Bool.not_eq_true', Bool.not_eq_false]
    exact ⟨hcode, henabled, htype, hconfig, yields_validateRules.mpr ⟨rfl, hrules⟩⟩

/-! ## Binding rules -/

/-- The bindings of a new task, the first at 10 and each ten behind the one before. -/
def bindingsFrom (task : RowId) : ℕ → List RowId → List TaskQcRuleRow
  | _, [] => []
  | index, rule :: rest => ⟨task, rule, (index + 1) * 10⟩ :: bindingsFrom task (index + 1) rest

/-- The keys of the bindings of a new task. -/
theorem map_bindingKey_bindingsFrom (task : RowId) (index : ℕ) (rules : List RowId) :
    (bindingsFrom task index rules).map Database.bindingKey = rules.map (Prod.mk task) := by
  induction rules generalizing index with
  | nil => rfl
  | cons rule rest ih => rw [bindingsFrom, List.map_cons, ih, List.map_cons, Database.bindingKey]

/-- The bindings of a new task stand behind an index. -/
theorem behind_of_mem_bindingsFrom {task : RowId} {index : ℕ} {rules : List RowId}
    {binding : TaskQcRuleRow} (h : binding ∈ bindingsFrom task index rules) :
    (index * 10 : ℤ) < binding.sortOrder := by
  induction rules generalizing index with
  | nil => cases h
  | cons rule rest ih =>
    rcases List.mem_cons.mp h with rfl | h
    · simp only
      omega
    · have hrest := ih h
      push_cast at hrest
      omega

/-- The bindings of a new task stand one behind another. -/
theorem ascending_bindingsFrom (task : RowId) (index : ℕ) (rules : List RowId) :
    (bindingsFrom task index rules).Pairwise fun left right =>
      left.sortOrder < right.sortOrder := by
  induction rules generalizing index with
  | nil => exact .nil
  | cons rule rest ih =>
    refine .cons (fun binding hbinding => ?_) (ih _)
    have hbehind := behind_of_mem_bindingsFrom hbinding
    push_cast at hbehind
    exact hbehind

/-- The bindings of a new task bind its rules to it. -/
theorem mem_bindingsFrom {task : RowId} {index : ℕ} {rules : List RowId} {binding : TaskQcRuleRow}
    (h : binding ∈ bindingsFrom task index rules) :
    binding.taskId = task ∧ binding.qcRuleId ∈ rules := by
  have hkey : Database.bindingKey binding ∈ rules.map (Prod.mk task) := by
    rw [← map_bindingKey_bindingsFrom task index]
    exact List.mem_map_of_mem h
  obtain ⟨rule, hrule, heq⟩ := List.mem_map.mp hkey
  obtain ⟨htask, hqcRule⟩ := Prod.mk.inj heq
  exact ⟨htask.symm, hqcRule ▸ hrule⟩

/-- The order of the rules of a task compares any two of its bindings. -/
theorem total_ruleOrder : Std.Total fun left right : TaskQcRuleRow =>
    left.sortOrder < right.sortOrder ∨
      left.sortOrder = right.sortOrder ∧ left.qcRuleId ≤ right.qcRuleId := by
  constructor
  intro left right
  have horder := lt_trichotomy left.sortOrder right.sortOrder
  have hrule := le_total left.qcRuleId right.qcRuleId
  tauto

/-- The order of the rules of a task is transitive. -/
theorem trans_ruleOrder : IsTrans TaskQcRuleRow fun left right =>
    left.sortOrder < right.sortOrder ∨
      left.sortOrder = right.sortOrder ∧ left.qcRuleId ≤ right.qcRuleId := by
  constructor
  rintro first second third (hlt | ⟨heq, hle⟩) (hlt' | ⟨heq', hle'⟩)
  · exact .inl (hlt.trans hlt')
  · exact .inl (heq' ▸ hlt)
  · exact .inl (heq ▸ hlt')
  · exact .inr ⟨heq.trans heq', hle.trans hle'⟩

/-- The bindings of a new task stand behind the stored ones. -/
theorem foldl_upsert_bindingsFrom {task : RowId} {rules : List RowId}
    {bindings : List TaskQcRuleRow} (fresh : ∀ binding ∈ bindings, binding.taskId ≠ task) :
    (bindingsFrom task 0 rules).foldl (upsert Database.bindingKey) bindings =
      bindings ++ (bindingsFrom task 0 rules).foldl (upsert Database.bindingKey) [] := by
  rw [← foldl_upsert_append, List.append_nil]
  intro old hold item hitem heq
  exact fresh old hold ((Prod.mk.inj heq).1.trans (mem_bindingsFrom hitem).1)

/-- A new task without bindings has its rules in the order of the last places that name them. -/
theorem orderedQcRules_bindingsFrom {task : RowId} {rules : List RowId}
    (fresh : ∀ binding ∈ db.taskQcRules, binding.taskId ≠ task)
    (hbindings : db'.taskQcRules =
      (bindingsFrom task 0 rules).foldl (upsert Database.bindingKey) db.taskQcRules) :
    (db'.orderedQcRules task).map TaskQcRuleRow.qcRuleId = rules.dedup := by
  have hold : db.taskQcRules.filter (fun binding => binding.taskId == task) = [] :=
    List.filter_eq_nil_iff.mpr fun binding hbinding => by simpa using fresh binding hbinding
  have hnew : ((bindingsFrom task 0 rules).foldl (upsert Database.bindingKey) []).filter
      (fun binding => binding.taskId == task) =
      (bindingsFrom task 0 rules).foldl (upsert Database.bindingKey) [] := by
    apply List.filter_eq_self.mpr
    intro binding hbinding
    rcases mem_foldl_upsert hbinding with hbinding | hbinding
    · cases hbinding
    · simpa using (mem_bindingsFrom hbinding).1
  have horder : InOrder Database.bindingKey TaskQcRuleRow.sortOrder
      ((bindingsFrom task 0 rules).foldl (upsert Database.bindingKey) [])
      ((bindingsFrom task 0 rules).foldl (moveBack Database.bindingKey) []) :=
    inOrder_nil.foldl_upsert (ascending_bindingsFrom task 0 rules) (by simp)
  have hsorted : db'.orderedQcRules task =
      (bindingsFrom task 0 rules).foldl (moveBack Database.bindingKey) [] := by
    have htotal := total_ruleOrder
    have htrans := trans_ruleOrder
    rw [Database.orderedQcRules, hbindings, foldl_upsert_bindingsFrom fresh, List.filter_append,
      hold, hnew, List.nil_append]
    apply horder.insertionSort_eq
    intro left right hlt
    exact ⟨.inl hlt, fun hge => by omega⟩
  have hkeys : ((bindingsFrom task 0 rules).foldl (moveBack Database.bindingKey) []).map
      Database.bindingKey = _ := map_foldl_moveBack (bindingsFrom task 0 rules) []
  rw [List.map_nil, List.filter_nil, List.nil_append, map_bindingKey_bindingsFrom,
    List.dedup_map_of_injective (Prod.mk_right_injective task)] at hkeys
  have hsecond := congrArg (List.map Prod.snd) hkeys
  rw [List.map_map, List.map_map] at hsecond
  rw [hsorted]
  exact hsecond.trans (List.map_id _)

/-- Binding rules to a task stores its bindings one after another. -/
theorem yields_bindRules {taskId : Bytes} {task : RowId} {index : ℕ} {qcRuleIds : List Bytes}
    {rules : List RowId} (htask : pg.idParam taskId = .ok (some task))
    (hrules : pg.Names qcRuleIds rules)
    (h : (controlStore pg session).Yields
      (ManagementCommandService.bindRules taskId index qcRuleIds) db () db') :
    db' = { db with
      taskQcRules := (bindingsFrom task index rules).foldl (upsert Database.bindingKey)
        db.taskQcRules } := by
  induction hrules generalizing db index with
  | nil => exact (Store.yields_pure.mp h).2.symm
  | @cons value rule rest others hid hrest ih =>
    obtain ⟨answer, mid, hexec, h⟩ := yields_issue.mp h
    simp only [ConfigStatement.exec, Database.upsertTaskQcRule, htask, hid, Answer.ok_bind] at hexec
    split at hexec
    · rename_i row ruleRow hrow hruleRow
      cases hexec
      have htaskId : task = row.id := Option.some.inj (bind_find?_eq_some.mp hrow).1
      have hruleId : rule = ruleRow.id := Option.some.inj (bind_find?_eq_some.mp hruleRow).1
      rw [ih h, bindingsFrom, List.foldl_cons, htaskId, hruleId]
    · cases hexec

/-! ## Creating a task -/

/-- What the insert of a task stores. -/
structure InsertsTask (pg : Postgres) (record : TaskRecord) (before : Database) (row : TaskRow)
    (after : Database) : Prop where
  id : (row.id : ℕ) = before.tasks.next
  rows : after.tasks.rows = before.tasks.rows ++ [row]
  serial : after.tasks.next = before.tasks.next + 1
  elsewhere : after = { before with tasks := after.tasks }
  node : ∃ node ∈ before.nodes.rows, node.nodeCode = row.nodeCode
  source : ∃ source ∈ before.dataSources.rows, source.id = row.dataSourceId ∧
    source.nodeCode = row.nodeCode
  dataSourceId : pg.idParam record.dataSourceId = .ok (some row.dataSourceId)
  name : pg.varcharParam 128 record.name = .ok row.name
  taskType : pg.varcharParam 32 record.taskType = .ok row.taskType
  scheduleExpr : pg.varcharParam 128 record.scheduleExpr = .ok row.scheduleExpr
  parserType : pg.varcharParam 64 record.parserType = .ok row.parserType
  qcProfile : pg.nullableVarcharParam 64 record.qcProfile = .ok row.qcProfile
  enabled : row.enabled = record.enabled

/-- An inserted task belongs to a registered node and to a data source of that node. -/
theorem insertTask_eq_some {record : TaskRecord} {id : Bytes}
    (h : db.insertTask pg record = .ok (some id, db')) :
    ∃ row : TaskRow, id = decimal row.id ∧ InsertsTask pg record db row db' := by
  simp only [Database.insertTask, Answer.bind_eq_ok] at h
  obtain ⟨nodeCode, -, dataSourceId, hdataSourceId, name, hname, taskType, htaskType,
    scheduleExpr, hscheduleExpr, parserType, hparserType, qcProfile, hqcProfile, h⟩ := h
  split at h
  · cases h
  · rename_i node hnode
    split at h
    · cases h
    · rename_i source hsource
      simp only [Answer.bind_eq_ok, stored_eq_ok] at h
      obtain ⟨⟨key, tasks⟩, htasks, h⟩ := h
      cases h
      obtain ⟨hfound, hcode⟩ := Option.filter_eq_some_iff.mp hsource
      obtain ⟨hkey, hrow⟩ := bind_find?_eq_some.mp hfound
      obtain ⟨hid, hrows, hserial, -⟩ := SerialTable.insert_eq_ok htasks
      exact ⟨_, rfl, {
        id := hid
        rows := hrows
        serial := hserial
        elsewhere := rfl
        node := ⟨node, (nodeByCode_eq_some hnode).1, rfl⟩
        source := ⟨source, hrow, rfl, by simpa using hcode⟩
        dataSourceId := hkey ▸ hdataSourceId
        name := hname
        taskType := htaskType
        scheduleExpr := hscheduleExpr
        parserType := hparserType
        qcProfile := hqcProfile
        enabled := rfl }⟩

/-- A check that finds nothing was passed. -/
theorem of_unless_some {condition : Prop} [Decidable condition] {failure : Failure}
    {rest : Option Failure} (h : (if condition then some failure else rest) = none) :
    ¬condition ∧ rest = none := by
  split at h
  · cases h
  · exact ⟨‹_›, h⟩

/-- What the checks on the request of a task let through. -/
theorem checkTask_eq_none {request : ManagementTaskCreateRequest}
    (h : ManagementCommandService.checkTask request = none) :
    request.taskType = text "local_file_import" ∧ request.parserType = text "csv_observation" ∧
      request.scheduleExpr.length ≤ 128 ∧
      (∃ schedule, CronSchedule.parse request.scheduleExpr = .ok schedule) ∧
      request.qcRuleIds ≠ [] ∧ request.qcRuleIds.length ≤ 5 := by
  unfold ManagementCommandService.checkTask at h
  obtain ⟨-, h⟩ := of_unless_some h
  obtain ⟨-, h⟩ := of_unless_some h
  split at h
  · cases h
  · obtain ⟨htaskType, h⟩ := of_unless_some h
    obtain ⟨hparserType, h⟩ := of_unless_some h
    obtain ⟨hschedule, h⟩ := of_unless_some h
    split at h
    · cases h
    · rename_i schedule hparse
      obtain ⟨-, h⟩ := of_unless_some h
      obtain ⟨hrules, -⟩ := of_unless_some h
      rw [not_or, not_lt] at hschedule hrules
      exact ⟨not_not.mp htaskType, not_not.mp hparserType, hschedule.2, ⟨schedule, hparse⟩, hrules⟩

/-- What creating a task does: the task is stored under the next key with its rules behind all
bindings, and everything it needs was there. -/
structure CreatesTask (R : Runtime) (request : ManagementTaskCreateRequest) (before : Database)
    (row : TaskRow) (rules : List RowId) (after : Database) : Prop where
  id : (row.id : ℕ) = before.tasks.next
  rows : after.tasks.rows = before.tasks.rows ++ [row]
  serial : after.tasks.next = before.tasks.next + 1
  bindings : after.taskQcRules = (bindingsFrom row.id 0 rules).foldl
    (upsert Database.bindingKey) before.taskQcRules
  elsewhere : after = { before with tasks := after.tasks, taskQcRules := after.taskQcRules }
  node : ∃ node ∈ before.nodes.rows, node.nodeCode = row.nodeCode
  source : before.SourceFor R row.nodeCode row.dataSourceId
  executable : ∀ rule ∈ rules, before.RuleFor R rule
  nodeCode : row.nodeCode = request.nodeCode
  dataSourceId : R.postgres.idParam request.dataSourceId = .ok (some row.dataSourceId)
  name : R.postgres.varcharParam 128 request.name = .ok row.name
  taskType : row.taskType = text "local_file_import"
  parserType : row.parserType = text "csv_observation"
  scheduleExpr : row.scheduleExpr = request.scheduleExpr
  schedule : ∃ schedule, CronSchedule.parse row.scheduleExpr = .ok schedule
  qcProfile : R.postgres.nullableVarcharParam 64 request.qcProfile = .ok row.qcProfile
  names : R.postgres.Names request.qcRuleIds rules
  count : rules ≠ [] ∧ rules.length ≤ 5
  enabled : row.enabled = request.enabled

/-- A data source that a task can read belongs to one node. -/
theorem nodeCode_of_sourceFor {nodeCode : Bytes} {source : DataSourceRow}
    (h : db.SourceFor R nodeCode source.id) (hsource : source ∈ db.dataSources.rows) :
    source.nodeCode = nodeCode := by
  obtain ⟨same, hsame, hid, hcode, -⟩ := h
  rw [← hcode, SerialTable.eq_of_key_eq hsource hsame hid.symm]

/-- The task under a key is read as it is stored. -/
theorem selectTask_decimal (id : RowId) :
    db.selectTask pg (decimal id) = .ok ((db.tasks.find? id).map Database.toTaskRecord) := by
  rw [Database.selectTask, Postgres.idParam_decimal]
  rfl

/-- The rules of the task under a key are read in their order. -/
theorem selectTaskQcRuleIds_decimal (id : RowId) :
    db.selectTaskQcRuleIds pg (decimal id) =
      .ok ((db.orderedQcRules id).map fun binding => decimal binding.qcRuleId) := by
  rw [Database.selectTaskQcRuleIds, Postgres.idParam_decimal]
  rfl

/-- Plain ASCII within the limit of a column is stored as it is. -/
theorem varcharParam_eq_self {limit : ℕ} {value kept : Bytes}
    (hascii : ∀ b ∈ value, 0 < b ∧ b < 128) (hlength : value.length ≤ limit)
    (h : pg.varcharParam limit value = .ok kept) : kept = value := by
  rw [pg.varcharParam_ascii hascii hlength] at h
  exact (Except.ok.inj h).symm

/-- A created task is answered as it is stored, with the rules in their order. -/
theorem yields_createTask {request : ManagementTaskCreateRequest} {result : ManagementTaskResult}
    (h : (controlStore R.postgres session).Yields (ManagementCommandService.createTask R request)
      db result db') :
    ∃ row rules, CreatesTask R request db row rules db' ∧
      result = ⟨Database.toTaskRecord row, (db'.orderedQcRules row.id).map fun binding =>
        decimal binding.qcRuleId⟩ := by
  unfold ManagementCommandService.createTask at h
  split at h
  · exact absurd h Store.not_yields_stop
  · rename_i hcheck
    obtain ⟨htaskType, hparserType, hlength, ⟨schedule, hschedule⟩, hnonempty, hcount⟩ :=
      checkTask_eq_none hcheck
    obtain ⟨_, mid, hvalid, h⟩ := Store.yields_bind.mp h
    obtain ⟨rfl, -, ⟨source, hsource, hsourceFor⟩, rules, hnames, hrules⟩ :=
      yields_validateTaskExecutable.mp (yields_onRuns.mp hvalid)
    obtain ⟨answer, inserted, hinsert, h⟩ := yields_issue.mp h
    obtain ⟨id, created, hid, h⟩ := Store.yields_bind.mp h
    cases answer with
    | none => exact absurd hid Store.not_yields_stop
    | some key =>
      obtain ⟨rfl, rfl⟩ := Store.yields_pure.mp hid
      obtain ⟨row, rfl, hrow⟩ := insertTask_eq_some hinsert
      obtain ⟨_, bound, hbind, h⟩ := Store.yields_bind.mp h
      have hbound := yields_bindRules (Postgres.idParam_decimal _ row.id) hnames hbind
      obtain ⟨task, mid, hselect, h⟩ := Store.yields_bind.mp h
      obtain ⟨htask, rfl⟩ :=
        Statement.reading_eq_ok.mp (Tx.yields_sql.mp (yields_onRuns.mp hselect))
      have hfound : bound.tasks.find? row.id = some row := by
        have htasks : bound.tasks = inserted.tasks := by rw [hbound]
        rw [htasks]
        apply SerialTable.find?_key
        rw [hrow.rows]
        exact List.mem_append_right _ (List.mem_singleton_self row)
      rw [selectTask_decimal, hfound] at htask
      cases htask
      obtain ⟨qcRuleIds, mid, hselect, h⟩ := Store.yields_bind.mp h
      obtain ⟨hqcRuleIds, rfl⟩ :=
        Statement.reading_eq_ok.mp (Tx.yields_sql.mp (yields_onRuns.mp hselect))
      rw [selectTaskQcRuleIds_decimal] at hqcRuleIds
      cases hqcRuleIds
      obtain ⟨rfl, rfl⟩ := Store.yields_pure.mp h
      refine ⟨row, rules, ?_, rfl⟩
      have hidentified : row.dataSourceId = source := by
        have hsame := hrow.dataSourceId.symm.trans hsource
        exact Option.some.inj (Except.ok.inj hsame)
      obtain ⟨own, hown, hownId, hownCode⟩ := hrow.source
      rw [← hidentified, ← hownId] at hsourceFor
      have hnodeCode : row.nodeCode = request.nodeCode :=
        hownCode.symm.trans (nodeCode_of_sourceFor hsourceFor hown)
      have hstored : row.scheduleExpr = request.scheduleExpr :=
        varcharParam_eq_self (CronSchedule.ascii_of_parse hschedule) hlength hrow.scheduleExpr
      have htype : row.taskType = text "local_file_import" := by
        have hkept : R.postgres.varcharParam 32 request.taskType = .ok row.taskType := hrow.taskType
        rw [htaskType] at hkept
        exact varcharParam_eq_self (by decide +kernel) (by decide +kernel) hkept
      have hparser : row.parserType = text "csv_observation" := by
        have hkept : R.postgres.varcharParam 64 request.parserType = .ok row.parserType :=
          hrow.parserType
        rw [hparserType] at hkept
        exact varcharParam_eq_self (by decide +kernel) (by decide +kernel) hkept
      exact {
        id := hrow.id
        rows := by rw [hbound]; exact hrow.rows
        serial := by rw [hbound]; exact hrow.serial
        bindings := by rw [hbound, hrow.elsewhere]
        elsewhere := by rw [hbound, hrow.elsewhere]
        node := hrow.node
        source := by rw [hnodeCode, ← hownId]; exact hsourceFor
        executable := hrules
        nodeCode := hnodeCode
        dataSourceId := hrow.dataSourceId
        name := hrow.name
        taskType := htype
        parserType := hparser
        scheduleExpr := hstored
        schedule := ⟨schedule, hstored ▸ hschedule⟩
        qcProfile := hrow.qcProfile
        names := hnames
        count := ⟨by rintro rfl; exact hnonempty (List.forall₂_nil_right_iff.mp hnames),
          hnames.length_eq ▸ hcount⟩
        enabled := hrow.enabled }

end LabBridge.Server
