import LabBridge.Library.Fallible
import LabBridge.Server.ManagementQueryService

/-!
# Reading a list page by page

The nine list operations share one shape: checks that do not look at the cursor, and one page of
the keys that match the filter. A client that hands each cursor to the next call reads keyset
pages, while the tables may change between the calls.
-/

namespace LabBridge.Server

open ByteText Fallible LabBridge.Core Storage

/-- A record of any list. -/
inductive ManagementItem
  | node (item : ManagementNode)
  | dataSource (item : DataSourceRecord)
  | qcRule (item : QcRuleRecord)
  | task (item : ManagementTask)
  | taskRun (item : ManagementTaskRun)
  | rawFile (item : RawFileRecord)
  | parsedRecord (item : ParsedRecordRecord)
  | qcResult (item : QcResultRecord)
  | alert (item : AlertRecord)

/-- A list and its filter. -/
inductive ListFilter
  | nodes (status : Option Bytes)
  | dataSources (nodeCode : Bytes) (enabled : Option Bool)
  | qcRules (enabled : Option Bool)
  | tasks (nodeCode : Bytes) (enabled : Option Bool)
  | taskRuns (nodeCode : Bytes) (taskId status : Option Bytes)
  | rawFiles (taskRunId : Bytes)
  | parsedRecords (taskRunId : Bytes)
  | qcResults (taskRunId : Bytes) (result : Option Bytes)
  | alerts (nodeCode : Bytes) (taskRunId status severity : Option Bytes)

/-- Show the records of a page. -/
def ManagementPage.map {α β : Type} (f : α → β) (page : ManagementPage α) : ManagementPage β :=
  { page with items := page.items.map (Listed.map f) }

/-- Trimming a page does not look at its records. -/
theorem trimPage_map {α β : Type} (f : α → β) (rows : List (Listed α)) (limit : ℤ) :
    trimPage (rows.map (Listed.map f)) limit = (trimPage rows limit).map f := by
  have hid : (Listed.id : Listed β → Bytes) ∘ Listed.map f = Listed.id := rfl
  unfold trimPage ManagementPage.map
  simp only [List.length_map]
  split_ifs
  · simp only [← List.map_take, List.getLast?_map, Option.map_map, hid]
  · rfl

/-- Showing records twice is showing them once. -/
theorem ManagementPage.map_map {α β γ : Type} (f : α → β) (g : β → γ) (page : ManagementPage α) :
    (page.map f).map g = page.map (g ∘ f) := by
  simp [ManagementPage.map, Listed.map, Function.comp_def]

/-- The text of a key. -/
def idText (id : RowId) : Bytes := decimal id

namespace ManagementQueryService

variable (service : ManagementQueryService) (db : Database)

/-- The operation of a list. -/
def list (page : PageInput) : ListFilter → Except Stop (ManagementPage ManagementItem)
  | .nodes status => (·.map .node) <$> service.listNodes db ⟨status, page⟩
  | .dataSources nodeCode enabled =>
    (·.map .dataSource) <$> service.listDataSources db ⟨nodeCode, enabled, page⟩
  | .qcRules enabled => (·.map .qcRule) <$> service.listQcRules db ⟨enabled, page⟩
  | .tasks nodeCode enabled => (·.map .task) <$> service.listTasks db ⟨nodeCode, enabled, page⟩
  | .taskRuns nodeCode taskId status =>
    (·.map .taskRun) <$> service.listTaskRuns db ⟨nodeCode, taskId, status, page⟩
  | .rawFiles taskRunId => (·.map .rawFile) <$> service.listRawFiles db ⟨taskRunId, page⟩
  | .parsedRecords taskRunId =>
    (·.map .parsedRecord) <$> service.listParsedRecords db ⟨taskRunId, page⟩
  | .qcResults taskRunId result =>
    (·.map .qcResult) <$> service.listQcResults db ⟨taskRunId, result, page⟩
  | .alerts nodeCode taskRunId status severity =>
    (·.map .alert) <$> service.listAlerts db ⟨nodeCode, taskRunId, status, severity, page⟩

/-- Whether a row belongs to the node of a request. -/
def ofNode (nodeCode rowNode : Bytes) : Bool := service.postgres.receive nodeCode == some rowNode

/-- Whether a row belongs to the task or the run of a request. -/
def ofId (id : Bytes) (rowId : RowId) : Bool :=
  (service.postgres.idParam id).toOption == some (some rowId)

/-- Whether a node has the wanted status at the time of the service, as the database sees it. -/
def ofStatus (status : Option NodeStatus) (node : NodeRow) : Bool :=
  status.all fun wanted =>
    (service.postgres.timeParam (formatUtcTimestamp service.now.seconds)).toOption.any fun now =>
      (Database.isOnlineAt now service.nodeOfflineAfterSeconds.toInt node) ==
        decide (wanted = .online)

/-- The keys of the rows that match a filter. -/
def matchingIds : ListFilter → List RowId
  | .nodes status =>
    (db.nodes.rows.filter (service.ofStatus (parseNodeStatus status))).map NodeRow.id
  | .dataSources nodeCode enabled =>
    (db.dataSources.rows.filter fun source => service.ofNode nodeCode source.nodeCode &&
      Database.passes enabled source.enabled).map DataSourceRow.id
  | .qcRules enabled =>
    (db.qcRules.rows.filter fun rule => Database.passes enabled rule.enabled).map QcRuleRow.id
  | .tasks nodeCode enabled =>
    (db.tasks.rows.filter fun task => service.ofNode nodeCode task.nodeCode &&
      Database.passes enabled task.enabled).map TaskRow.id
  | .taskRuns nodeCode taskId status =>
    (db.taskRuns.rows.filter fun run => service.ofNode nodeCode run.nodeCode &&
      taskId.all (service.ofId · run.taskId) &&
      Database.passes (parseRunStatus status) run.status).map TaskRunRow.id
  | .rawFiles taskRunId =>
    (db.rawFiles.rows.filter fun file => service.ofId taskRunId file.taskRunId).map RawFileRow.id
  | .parsedRecords taskRunId =>
    (db.parsedRecords.rows.filter fun parsed => service.ofId taskRunId parsed.taskRunId).map
      ParsedRecordRow.id
  | .qcResults taskRunId result =>
    (db.qcResults.rows.filter fun row => (db.resultRun row).any (service.ofId taskRunId) &&
      Database.passes result row.result).map QcResultRow.id
  | .alerts nodeCode taskRunId status severity =>
    (db.alerts.rows.filter fun alert => service.ofNode nodeCode alert.nodeCode &&
      taskRunId.all (fun id => alert.taskRunId.any (service.ofId id)) &&
      Database.passes status alert.status && Database.passes severity alert.severity).map
      AlertRow.id

/-- The checks of a list that do not look at the page. -/
def Accepts : ListFilter → Prop
  | .nodes status => status.isSome = true → (parseNodeStatus status).isSome = true
  | .dataSources nodeCode _ | .tasks nodeCode _ =>
    validateNodeCode nodeCode = .ok () ∧ service.requireNode db nodeCode = .ok ()
  | .qcRules _ => True
  | .taskRuns nodeCode taskId status =>
    validateNodeCode nodeCode = .ok () ∧
      (status.isSome = true → (parseRunStatus status).isSome = true) ∧
      taskId.all isPositiveId = true ∧ service.requireNode db nodeCode = .ok () ∧
      service.requireTask db nodeCode taskId = .ok ()
  | .rawFiles taskRunId | .parsedRecords taskRunId =>
    isPositiveId taskRunId = true ∧ service.requireTaskRun db taskRunId = .ok ()
  | .qcResults taskRunId result =>
    isPositiveId taskRunId = true ∧
      result.all (fun result => result == text "passed" || result == text "failed") = true ∧
      service.requireTaskRun db taskRunId = .ok ()
  | .alerts nodeCode taskRunId status severity =>
    validateNodeCode nodeCode = .ok () ∧ taskRunId.all isPositiveId = true ∧
      status.all (fun status =>
        status == text "open" || status == text "acknowledged" || status == text "closed") =
        true ∧
      severity.all (fun severity => severity == text "warning" || severity == text "failed") =
        true ∧
      service.requireNode db nodeCode = .ok () ∧
      service.requireRunOfNode db nodeCode taskRunId = .ok ()

/-- The statement of a list, and how its records are shown. -/
def statement (page : ManagementPageRequest) : ListFilter → Answer (List (Listed ManagementItem))
  | .nodes status =>
    List.map (Listed.map fun node => .node
      ⟨node, effectiveStatus node service.now service.nodeOfflineAfterSeconds⟩) <$>
      db.listNodes service.postgres ⟨parseNodeStatus status,
        formatUtcTimestamp service.now.seconds, service.nodeOfflineAfterSeconds.toInt⟩ page
  | .dataSources nodeCode enabled => List.map (Listed.map .dataSource) <$>
      db.listDataSourcesByNode service.postgres nodeCode enabled page
  | .qcRules enabled => List.map (Listed.map .qcRule) <$>
      db.listQcRules service.postgres enabled page
  | .tasks nodeCode enabled => List.map (Listed.map .task) <$>
      db.listTasksByNode service.postgres nodeCode enabled page
  | .taskRuns nodeCode taskId status => List.map (Listed.map fun run => .taskRun
      ⟨run, isStale run service.now service.taskRunStaleAfterSeconds,
        service.taskRunStaleAfterSeconds⟩) <$>
      db.listTaskRunsByNode service.postgres nodeCode taskId (parseRunStatus status) page
  | .rawFiles taskRunId => List.map (Listed.map .rawFile) <$>
      db.listRawFilesByRun service.postgres taskRunId page
  | .parsedRecords taskRunId => List.map (Listed.map .parsedRecord) <$>
      db.listParsedRecordsByRun service.postgres taskRunId page
  | .qcResults taskRunId result => List.map (Listed.map .qcResult) <$>
      db.listQcResultsByRun service.postgres taskRunId result page
  | .alerts nodeCode taskRunId status severity => List.map (Listed.map .alert) <$>
      db.listAlertsByNode service.postgres nodeCode taskRunId status severity page

/-- A requirement passes when its condition holds. -/
@[simp] theorem require_eq_ok {condition : Prop} [Decidable condition] {failure : Failure} :
    require condition failure = .ok () ↔ condition := by
  unfold require
  split_ifs with h <;> simp [h]

/-- The answer of a statement. -/
@[simp] theorem answered_eq_ok {α : Type} {answer : Answer α} {value : α} :
    answered answer = .ok value ↔ answer = .ok value := by
  cases answer <;> simp [answered, Except.mapError]

/-- A list answers with the trimmed records of its statement when its checks pass. -/
theorem list_eq_ok {page : PageInput} {filter : ListFilter}
    {result : ManagementPage ManagementItem} : service.list db page filter = .ok result ↔
      validatePage page = .ok () ∧ service.Accepts db filter ∧
        ∃ records, service.statement db (repositoryPage page) filter = .ok records ∧
          trimPage records page.limit = result := by
  cases filter <;>
    simp only [list, listNodes, listDataSources, listQcRules, listTasks, listTaskRuns,
      listRawFiles, listParsedRecords, listQcResults, listAlerts, Accepts, statement, map_eq_ok,
      unit_bind_eq_ok, require_eq_ok] <;>
    simp only [bind_eq_ok, pure_eq_ok, answered_eq_ok, trimPage_map, ManagementPage.map_map,
      Function.comp_def, exists_exists_and_eq_and, exists_and_left, and_assoc, true_and] <;>
    tauto

/-- The bound of a cursor that is a key. -/
theorem cursorParam_idText (pg : Postgres) (cursor : Option RowId) :
    Database.cursorParam pg (cursor.map idText) = .ok (cursor.map fun id => ((id : ℕ) : ℤ)) := by
  cases cursor with
  | none => rfl
  | some id =>
    simp only [Option.map_some, Database.cursorParam, idText, pg.textParam_decimal, Answer.ok_bind,
      pg.bigint_decimal id id.isLt]
    rfl

/-- The keys that a list statement answers with. -/
theorem selectPage_ids {Row Record : Type} (pg : Postgres) (rows : List Row) (key : Row → RowId)
    (selects : Row → Bool) (record : Row → Record) (fetchLimit : ℤ) (cursor : Option RowId) :
    ∃ records, Database.selectPage pg rows key selects record ⟨fetchLimit, cursor.map idText⟩ =
        .ok records ∧
      records.map Listed.id = ((Keyset.selection id (fun _ => true) cursor
        ((rows.filter selects).map key)).take fetchLimit.toNat).map idText := by
  refine ⟨_, by rw [Database.selectPage, cursorParam_idText]; rfl, ?_⟩
  have hbelow (row : Row) : ((cursor.map fun id => ((id : ℕ) : ℤ)).all fun bound =>
      decide (((key row : ℕ) : ℤ) < bound)) = decide (Keyset.Below cursor (key row)) := by
    cases cursor with
    | none => simp [Keyset.Below]
    | some bound => simp [Keyset.Below]
  simp only [hbelow, Keyset.selection, Bool.true_and, List.map_map, List.map_take, List.filter_map,
    List.map_reverse, List.filter_filter, Function.comp_def, id_eq, Bool.and_comm, idText]

/-- What a list statement answers, for the keys that it shows. -/
def AnswersIds (ids : List RowId) (fetchLimit : ℤ) (cursor : Option RowId)
    (answer : Answer (List (Listed ManagementItem))) : Prop :=
  ∃ records, answer = .ok records ∧ records.map Listed.id =
    ((Keyset.selection id (fun _ => true) cursor ids).take fetchLimit.toNat).map idText

/-- Showing records does not change their keys. -/
theorem answersIds_map {Record : Type} {ids : List RowId} {fetchLimit : ℤ}
    {cursor : Option RowId} (show' : Record → ManagementItem)
    {answer : Answer (List (Listed Record))}
    (h : ∃ records, answer = .ok records ∧ records.map Listed.id =
      ((Keyset.selection id (fun _ => true) cursor ids).take fetchLimit.toNat).map idText) :
    AnswersIds ids fetchLimit cursor (List.map (Listed.map show') <$> answer) := by
  obtain ⟨records, rfl, hids⟩ := h
  exact ⟨_, rfl, by rw [List.map_map]; exact hids⟩

/-- The node of an accepted request is a text. -/
theorem exists_textParam {nodeCode : Bytes} (h : service.requireNode db nodeCode = .ok ()) :
    ∃ code, service.postgres.textParam nodeCode = .ok code ∧
      ∀ rowNode, (rowNode == code) = service.ofNode nodeCode rowNode := by
  simp only [requireNode, bind_eq_ok, answered_eq_ok, Database.findNodeSummary] at h
  obtain ⟨found, ⟨code, hcode, -⟩, -⟩ := h
  refine ⟨code, hcode, fun rowNode => ?_⟩
  rw [Postgres.textParam, accepted_eq_ok] at hcode
  rw [ofNode, hcode, Bool.eq_iff_iff, beq_iff_eq, beq_iff_eq, Option.some.injEq]
  exact eq_comm

/-- A key of a request compares with the keys of the rows. -/
theorem ofId_eq {value : Bytes} {id : Option RowId} (h : service.postgres.idParam value = .ok id)
    (rowId : RowId) : (some rowId == id) = service.ofId value rowId := by
  rw [ofId, h, Except.toOption, Bool.eq_iff_iff, beq_iff_eq, beq_iff_eq, Option.some.injEq]
  exact eq_comm

/-- The run of an accepted request has a key. -/
theorem exists_idParam {taskRunId : Bytes} (h : service.requireTaskRun db taskRunId = .ok ()) :
    ∃ id, service.postgres.idParam taskRunId = .ok id := by
  simp only [requireTaskRun, bind_eq_ok, answered_eq_ok, Database.findTaskRunSummary] at h
  obtain ⟨found, ⟨id, hid, -⟩, -⟩ := h
  exact ⟨id, hid⟩

/-- The optional task of an accepted request has a key. -/
theorem exists_optionalIdParam_task {nodeCode : Bytes} {taskId : Option Bytes}
    (h : service.requireTask db nodeCode taskId = .ok ()) :
    ∃ id, Database.optionalIdParam service.postgres taskId = .ok id ∧
      ∀ rowId, Database.passes id (some rowId) = taskId.all (service.ofId · rowId) := by
  cases taskId with
  | none => exact ⟨none, rfl, fun _ => rfl⟩
  | some value =>
    simp only [requireTask, bind_eq_ok, answered_eq_ok, Database.selectTask] at h
    obtain ⟨task, ⟨id, hid, -⟩, -⟩ := h
    refine ⟨some id, by simp [Database.optionalIdParam, hid], fun rowId => ?_⟩
    rw [Option.all_some, ← service.ofId_eq hid, Database.passes, Option.all_some, Bool.beq_comm]

/-- The optional run of an accepted request has a key. -/
theorem exists_optionalIdParam_run {nodeCode : Bytes} {taskRunId : Option Bytes}
    (h : service.requireRunOfNode db nodeCode taskRunId = .ok ()) :
    ∃ id, Database.optionalIdParam service.postgres taskRunId = .ok id ∧
      ∀ run : Option RowId, (id.all fun id => run.any fun run => some run == id) =
        taskRunId.all fun id => run.any (service.ofId id) := by
  cases taskRunId with
  | none => exact ⟨none, rfl, fun _ => rfl⟩
  | some value =>
    simp only [requireRunOfNode, bind_eq_ok, answered_eq_ok, Database.findTaskRunSummary] at h
    obtain ⟨found, ⟨id, hid, -⟩, -⟩ := h
    refine ⟨some id, by simp [Database.optionalIdParam, hid], fun run => ?_⟩
    simp only [Option.all_some, service.ofId_eq hid]

/-- The clock of the service is a time for the database. -/
theorem exists_timeParam : ∃ instant,
    service.postgres.timeParam (formatUtcTimestamp service.now.seconds) = .ok instant := by
  have htime := service.now.isRfc3339Utc_format
  obtain ⟨instant, hinstant, -⟩ := service.postgres.timestamptz_rfc3339 htime
  have htext := service.postgres.textParam_ascii (ascii_of_isRfc3339Utc htime)
  exact ⟨instant, by simp [Postgres.timeParam, htext, hinstant]⟩

/-- The filter of the node list selects the nodes of the wanted status. -/
theorem exists_nodeSelected (status : Option NodeStatus) : ∃ selects,
    Database.nodeSelected service.postgres ⟨status, formatUtcTimestamp service.now.seconds,
      service.nodeOfflineAfterSeconds.toInt⟩ = .ok selects ∧ service.ofStatus status = selects := by
  cases status with
  | none => exact ⟨_, rfl, rfl⟩
  | some wanted =>
    obtain ⟨instant, hinstant⟩ := service.exists_timeParam
    refine ⟨_, by simp only [Database.nodeSelected, hinstant, Answer.ok_bind]; rfl, ?_⟩
    funext node
    simp only [ofStatus, hinstant, Except.toOption, Option.all_some, Option.any_some]
    cases wanted <;> simp

/-- An accepted list answers with the keys that match its filter. -/
theorem statement_ids {filter : ListFilter} (accepts : service.Accepts db filter)
    (fetchLimit : ℤ) (cursor : Option RowId) :
    AnswersIds (service.matchingIds db filter) fetchLimit cursor
      (service.statement db ⟨fetchLimit, cursor.map idText⟩ filter) := by
  cases filter with
  | nodes status =>
    obtain ⟨selects, hselects, hstatus⟩ := service.exists_nodeSelected (parseNodeStatus status)
    apply answersIds_map
    simp only [Database.listNodes, hselects, Answer.ok_bind, matchingIds, hstatus]
    exact selectPage_ids ..
  | dataSources nodeCode enabled =>
    obtain ⟨code, hcode, hnode⟩ := service.exists_textParam db accepts.2
    apply answersIds_map
    simp only [Database.listDataSourcesByNode, hcode, Answer.ok_bind, hnode]
    exact selectPage_ids ..
  | qcRules enabled => exact answersIds_map _ (selectPage_ids ..)
  | tasks nodeCode enabled =>
    obtain ⟨code, hcode, hnode⟩ := service.exists_textParam db accepts.2
    apply answersIds_map
    simp only [Database.listTasksByNode, hcode, Answer.ok_bind, hnode]
    exact selectPage_ids ..
  | taskRuns nodeCode taskId status =>
    obtain ⟨code, hcode, hnode⟩ := service.exists_textParam db accepts.2.2.2.1
    obtain ⟨id, hid, htask⟩ := service.exists_optionalIdParam_task db accepts.2.2.2.2
    apply answersIds_map
    simp only [Database.listTaskRunsByNode, hcode, hid, Answer.ok_bind, hnode, htask]
    exact selectPage_ids ..
  | rawFiles taskRunId =>
    obtain ⟨id, hid⟩ := service.exists_idParam db accepts.2
    apply answersIds_map
    simp only [Database.listRawFilesByRun, hid, Answer.ok_bind, service.ofId_eq hid]
    exact selectPage_ids ..
  | parsedRecords taskRunId =>
    obtain ⟨id, hid⟩ := service.exists_idParam db accepts.2
    apply answersIds_map
    simp only [Database.listParsedRecordsByRun, hid, Answer.ok_bind, service.ofId_eq hid]
    exact selectPage_ids ..
  | qcResults taskRunId result =>
    obtain ⟨id, hid⟩ := service.exists_idParam db accepts.2.2
    apply answersIds_map
    simp only [Database.listQcResultsByRun, hid, Answer.ok_bind, service.ofId_eq hid]
    exact selectPage_ids ..
  | alerts nodeCode taskRunId status severity =>
    obtain ⟨code, hcode, hnode⟩ := service.exists_textParam db accepts.2.2.2.2.1
    obtain ⟨id, hid, hrun⟩ := service.exists_optionalIdParam_run db accepts.2.2.2.2.2
    apply answersIds_map
    simp only [Database.listAlertsByNode, hcode, hid, Answer.ok_bind, hnode, hrun]
    exact selectPage_ids ..

/-- The page of a list, by its keys. -/
theorem trimPage_ids {Record : Type} {rows : List (Listed Record)} {ids : List RowId} {limit : ℤ}
    (hlimit : 0 ≤ limit) (h : rows.map Listed.id = (ids.take (limit + 1).toNat).map idText) :
    (trimPage rows limit).items.map Listed.id = (ids.take limit.toNat).map idText ∧
      (trimPage rows limit).nextCursor =
        (if limit.toNat < ids.length then (ids.take limit.toNat).getLast? else none).map idText := by
  have hsucc : (limit + 1).toNat = limit.toNat + 1 := by omega
  have hlength : rows.length = min (limit.toNat + 1) ids.length := by
    rw [← List.length_map (f := Listed.id), h, List.length_map, List.length_take, hsucc]
  have htake : (rows.take limit.toNat).map Listed.id = (ids.take limit.toNat).map idText := by
    rw [List.map_take, h, ← List.map_take, List.take_take, hsucc]
    congr 2
    omega
  unfold trimPage
  by_cases hmore : limit.toNat < ids.length
  · have hrows : limit.toNat < rows.length := by omega
    simp only [hrows, hmore, decide_true, if_true, ← List.getLast?_map, htake, and_self]
  · have hrows : ¬limit.toNat < rows.length := by omega
    have hall : rows.take limit.toNat = rows := List.take_of_length_le (by omega)
    simp only [hrows, hmore, decide_false, if_false, Bool.false_eq_true, Option.map_none, and_true]
    rw [← htake, hall]

/-- The text of a key from one on is a positive number. -/
theorem isPositiveId_idText {id : RowId} (h : 0 < id) : isPositiveId (idText id) = true := by
  have hpos : 0 < (id : ℕ) := h
  have hdigits : (decimal id).all (fun b => decide (IsDigit b)) = true := by
    simpa using fun b hb => isDigit_of_mem_decimal hb
  have hlt := id.isLt
  simp [isPositiveId, idText, hdigits, hpos]

/-- One call of an accepted list: the keyset page of the matching keys and its cursor. -/
theorem list_page {filter : ListFilter} {limit : ℤ} (hlimit : 1 ≤ limit ∧ limit ≤ 100)
    (accepts : service.Accepts db filter) {cursor : Option RowId}
    (hcursor : ∀ id ∈ cursor, 0 < id) :
    ∃ page, service.list db ⟨limit, cursor.map idText⟩ filter = .ok page ∧
      page.items.map Listed.id = (Keyset.page id (fun _ => true) limit.toNat cursor
        (service.matchingIds db filter)).map idText ∧
      page.nextCursor = (Keyset.next id (fun _ => true) limit.toNat cursor
        (service.matchingIds db filter)).map idText := by
  obtain ⟨records, hrecords, hids⟩ := service.statement_ids db accepts (limit + 1) cursor
  have hvalid : validatePage ⟨limit, cursor.map idText⟩ = .ok () := by
    simp only [validatePage, unit_bind_eq_ok, require_eq_ok]
    refine ⟨hlimit, ?_⟩
    cases cursor with
    | none => rfl
    | some id => exact isPositiveId_idText (hcursor id rfl)
  obtain ⟨hitems, hnext⟩ := trimPage_ids (by omega) hids
  refine ⟨_, (service.list_eq_ok db).mpr ⟨hvalid, accepts, records, hrecords, rfl⟩, hitems, ?_⟩
  rw [hnext, Keyset.next, Keyset.page, Option.map_id, id_eq]

/-- The keys of a table that pass a filter, in their order. -/
theorem ascending_ids {Row : Type} {key : Row → RowId} {clash : Row → Row → Bool}
    (table : SerialTable Row key clash) (selects : Row → Bool) :
    ((table.rows.filter selects).map key).Pairwise (· < ·) :=
  List.pairwise_map.mpr (table.ascending.filter _)

/-- The matching keys are in their order. -/
theorem matchingIds_ascending (filter : ListFilter) :
    (service.matchingIds db filter).Pairwise (· < ·) := by
  cases filter <;> exact ascending_ids _ _

end ManagementQueryService

end LabBridge.Server
