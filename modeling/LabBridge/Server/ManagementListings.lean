import LabBridge.Server.ManagementPages
import LabBridge.Server.Reference

/-!
# Complete listings

A listing hands the cursor of each page to the next call, until a page has none. Between the
calls rows may be added and changed, as long as nodes, tasks and runs stay with their nodes. A
listing ends, its keys fall, and it misses no row that matches the filter all the time.
-/

namespace LabBridge.Server

open ByteText Fallible LabBridge.Core Storage

/-- The serial keys of the listed tables begin at one. -/
structure Database.Numbered (db : Database) : Prop where
  nodes : ∀ row ∈ db.nodes.rows, 0 < row.id
  dataSources : ∀ row ∈ db.dataSources.rows, 0 < row.id
  qcRules : ∀ row ∈ db.qcRules.rows, 0 < row.id
  tasks : ∀ row ∈ db.tasks.rows, 0 < row.id
  taskRuns : ∀ row ∈ db.taskRuns.rows, 0 < row.id
  rawFiles : ∀ row ∈ db.rawFiles.rows, 0 < row.id
  parsedRecords : ∀ row ∈ db.parsedRecords.rows, 0 < row.id
  qcResults : ∀ row ∈ db.qcResults.rows, 0 < row.id
  alerts : ∀ row ∈ db.alerts.rows, 0 < row.id

/-- Nodes, tasks and runs stay with their nodes; rows may be added. -/
structure Database.Grows (before after : Database) : Prop where
  nodes : ∀ node ∈ before.nodes.rows, ∃ later ∈ after.nodes.rows, later.nodeCode = node.nodeCode
  tasks : ∀ task ∈ before.tasks.rows, ∃ later ∈ after.tasks.rows,
    later.id = task.id ∧ later.nodeCode = task.nodeCode
  taskRuns : ∀ run ∈ before.taskRuns.rows, ∃ later ∈ after.taskRuns.rows,
    later.id = run.id ∧ later.nodeCode = run.nodeCode

/-- Inserting rows is a way to grow. -/
theorem Database.grows_of_subset {before after : Database}
    (nodes : before.nodes.rows ⊆ after.nodes.rows) (tasks : before.tasks.rows ⊆ after.tasks.rows)
    (taskRuns : before.taskRuns.rows ⊆ after.taskRuns.rows) : before.Grows after where
  nodes := fun node h => ⟨node, nodes h, rfl⟩
  tasks := fun task h => ⟨task, tasks h, rfl, rfl⟩
  taskRuns := fun run h => ⟨run, taskRuns h, rfl, rfl⟩

/-- The pages of the calls from a time on, each with the cursor of the page before. -/
inductive Listing {Record : Type} (call : ℕ → Option Bytes → Except Stop (ManagementPage Record)) :
    ℕ → Option Bytes → List (ManagementPage Record) → Prop
  | last {time : ℕ} {cursor : Option Bytes} {page : ManagementPage Record}
    (answer : call time cursor = .ok page) (hlast : page.nextCursor = none) :
    Listing call time cursor [page]
  | more {time : ℕ} {cursor : Option Bytes} {page : ManagementPage Record} {next : Bytes}
    {rest : List (ManagementPage Record)} (answer : call time cursor = .ok page)
    (hmore : page.nextCursor = some next) (tail : Listing call (time + 1) (some next) rest) :
    Listing call time cursor (page :: rest)

namespace ManagementQueryService

variable (service : ManagementQueryService)

section Grows

variable {before after : Database} (grows : before.Grows after)
include grows

/-- A stored node stays stored. -/
theorem requireNode_grows {nodeCode : Bytes} (h : service.requireNode before nodeCode = .ok ()) :
    service.requireNode after nodeCode = .ok () := by
  simp only [requireNode, Database.findNodeSummary, bind_eq_ok, answered_eq_ok, require_eq_ok,
    Answer.pure_eq_ok, Except.ok.injEq] at h ⊢
  obtain ⟨found, ⟨code, hcode, rfl⟩, hfound⟩ := h
  refine ⟨_, ⟨code, hcode, rfl⟩, ?_⟩
  obtain ⟨node, hnode, hsame⟩ := List.any_eq_true.mp hfound
  obtain ⟨later, hlater, hkept⟩ := grows.nodes node hnode
  exact List.any_eq_true.mpr ⟨later, hlater, by rw [hkept]; exact hsame⟩

/-- The node of a stored run stays. -/
theorem findTaskRun_grows {id : Option RowId} {nodeCode : Bytes}
    (h : (id.bind before.taskRuns.find?).map TaskRunRow.nodeCode = some nodeCode) :
    (id.bind after.taskRuns.find?).map TaskRunRow.nodeCode = some nodeCode := by
  obtain ⟨run, hfound, hcode⟩ := Option.map_eq_some_iff.mp h
  obtain ⟨key, rfl, hrun⟩ := Option.bind_eq_some_iff.mp hfound
  obtain ⟨hmem, hkey⟩ := SerialTable.find?_eq_some.mp hrun
  obtain ⟨later, hlater, hid, hkept⟩ := grows.taskRuns run hmem
  have hlaterFound := SerialTable.find?_eq_some.mpr ⟨hlater, hid.trans hkey⟩
  simp [hlaterFound, hkept, hcode]

/-- A stored run stays stored. -/
theorem requireTaskRun_grows {taskRunId : Bytes}
    (h : service.requireTaskRun before taskRunId = .ok ()) :
    service.requireTaskRun after taskRunId = .ok () := by
  simp only [requireTaskRun, Database.findTaskRunSummary, bind_eq_ok, answered_eq_ok,
    require_eq_ok, Answer.pure_eq_ok, Except.ok.injEq] at h ⊢
  obtain ⟨found, ⟨id, hid, rfl⟩, hfound⟩ := h
  obtain ⟨nodeCode, hcode⟩ := Option.isSome_iff_exists.mp hfound
  exact ⟨_, ⟨id, hid, rfl⟩, by rw [findTaskRun_grows grows hcode]; rfl⟩

/-- A run of a node stays one. -/
theorem requireRunOfNode_grows {nodeCode : Bytes} {taskRunId : Option Bytes}
    (h : service.requireRunOfNode before nodeCode taskRunId = .ok ()) :
    service.requireRunOfNode after nodeCode taskRunId = .ok () := by
  cases taskRunId with
  | none => exact h
  | some value =>
    simp only [requireRunOfNode, Database.findTaskRunSummary, bind_eq_ok, answered_eq_ok,
      require_eq_ok, Answer.pure_eq_ok, Except.ok.injEq] at h ⊢
    obtain ⟨found, ⟨id, hid, rfl⟩, hfound⟩ := h
    exact ⟨_, ⟨id, hid, rfl⟩, findTaskRun_grows grows hfound⟩

/-- A task of a node stays one. -/
theorem requireTask_grows {nodeCode : Bytes} {taskId : Option Bytes}
    (h : service.requireTask before nodeCode taskId = .ok ()) :
    service.requireTask after nodeCode taskId = .ok () := by
  cases taskId with
  | none => exact h
  | some value =>
    simp only [requireTask, Database.selectTask, bind_eq_ok, answered_eq_ok, require_eq_ok,
      Answer.pure_eq_ok, Except.ok.injEq] at h ⊢
    obtain ⟨found, ⟨id, hid, rfl⟩, hfound⟩ := h
    refine ⟨_, ⟨id, hid, rfl⟩, ?_⟩
    rw [Option.map_map] at hfound ⊢
    obtain ⟨task, htask, hcode⟩ := Option.map_eq_some_iff.mp hfound
    obtain ⟨key, rfl, hrow⟩ := Option.bind_eq_some_iff.mp htask
    obtain ⟨hmem, hkey⟩ := SerialTable.find?_eq_some.mp hrow
    obtain ⟨later, hlater, hsame, hkept⟩ := grows.tasks task hmem
    have hlaterFound := SerialTable.find?_eq_some.mpr ⟨hlater, hsame.trans hkey⟩
    exact Option.map_eq_some_iff.mpr ⟨later, hlaterFound, by simpa [hkept] using hcode⟩

/-- An accepted list stays accepted. -/
theorem accepts_grows {filter : ListFilter} (h : service.Accepts before filter) :
    service.Accepts after filter := by
  cases filter with
  | nodes status => exact h
  | dataSources nodeCode enabled => exact ⟨h.1, service.requireNode_grows grows h.2⟩
  | qcRules enabled => exact h
  | tasks nodeCode enabled => exact ⟨h.1, service.requireNode_grows grows h.2⟩
  | taskRuns nodeCode taskId status =>
    exact ⟨h.1, h.2.1, h.2.2.1, service.requireNode_grows grows h.2.2.2.1,
      service.requireTask_grows grows h.2.2.2.2⟩
  | rawFiles taskRunId => exact ⟨h.1, service.requireTaskRun_grows grows h.2⟩
  | parsedRecords taskRunId => exact ⟨h.1, service.requireTaskRun_grows grows h.2⟩
  | qcResults taskRunId result => exact ⟨h.1, h.2.1, service.requireTaskRun_grows grows h.2.2⟩
  | alerts nodeCode taskRunId status severity =>
    exact ⟨h.1, h.2.1, h.2.2.1, h.2.2.2.1, service.requireNode_grows grows h.2.2.2.2.1,
      service.requireRunOfNode_grows grows h.2.2.2.2.2⟩

end Grows

/-- The matching keys begin at one. -/
theorem matchingIds_pos {db : Database} (numbered : db.Numbered) {filter : ListFilter}
    {id : RowId} (h : id ∈ service.matchingIds db filter) : 0 < id := by
  cases filter <;>
    obtain ⟨row, hrow, rfl⟩ := List.mem_map.mp h <;>
    have hmem := List.mem_of_mem_filter hrow
  · exact numbered.nodes row hmem
  · exact numbered.dataSources row hmem
  · exact numbered.qcRules row hmem
  · exact numbered.tasks row hmem
  · exact numbered.taskRuns row hmem
  · exact numbered.rawFiles row hmem
  · exact numbered.parsedRecords row hmem
  · exact numbered.qcResults row hmem
  · exact numbered.alerts row hmem

/-- The calls of a listing: each at its time, on the tables of that time. -/
def calls (clock : ℕ → ClockTime) (states : ℕ → Database) (filter : ListFilter) (limit : ℤ)
    (time : ℕ) (cursor : Option Bytes) : Except Stop (ManagementPage ManagementItem) :=
  { service with now := clock time }.list (states time) ⟨limit, cursor⟩ filter

/-- The keys that match a filter at a time. -/
def matchingAt (clock : ℕ → ClockTime) (states : ℕ → Database) (filter : ListFilter)
    (time : ℕ) : List RowId :=
  { service with now := clock time }.matchingIds (states time) filter

section Listings

variable {clock : ℕ → ClockTime} {states : ℕ → Database} {filter : ListFilter} {limit : ℤ}

/-- The calls answer with the keyset pages of the matching keys. -/
theorem exists_listing (numbered : ∀ time, (states time).Numbered)
    (hlimit : 1 ≤ limit ∧ limit ≤ 100)
    (accepts : ∀ time, service.Accepts (states time) filter) {time : ℕ} {cursor : Option RowId}
    {pages : List (List RowId)} (hcursor : ∀ id ∈ cursor, 0 < id)
    (h : Keyset.Pages id limit.toNat (service.matchingAt clock states filter)
      (fun _ _ => true) time cursor pages) :
    ∃ answers, Listing (service.calls clock states filter limit) time (cursor.map idText) answers ∧
      answers.map (fun page => page.items.map Listed.id) = pages.map (List.map idText) ∧
      ∀ page ∈ answers, ∀ next ∈ page.nextCursor, validatePage ⟨limit, some next⟩ = .ok () := by
  have hvalid {id : RowId} (hid : 0 < id) : validatePage ⟨limit, some (idText id)⟩ = .ok () := by
    simp only [validatePage, unit_bind_eq_ok, require_eq_ok]
    exact ⟨hlimit, isPositiveId_idText hid⟩
  induction h with
  | @last time cursor hnext =>
    obtain ⟨page, hpage, hitems, hcursorText⟩ :=
      { service with now := clock time }.list_page (states time) hlimit (accepts time) hcursor
    have hend : page.nextCursor = none := by
      rw [hcursorText]
      exact congrArg (Option.map idText) hnext
    refine ⟨[page], .last hpage hend, congrArg (fun items => [items]) hitems, ?_⟩
    intro other hother next hsome
    rw [List.mem_singleton.mp hother, hend] at hsome
    cases hsome
  | @more time cursor bound rest hnext tail ih =>
    obtain ⟨page, hpage, hitems, hcursorText⟩ :=
      { service with now := clock time }.list_page (states time) hlimit (accepts time) hcursor
    have hmore : page.nextCursor = some (idText bound) := by
      rw [hcursorText]
      exact congrArg (Option.map idText) hnext
    obtain ⟨row, hrow, hkey⟩ := (Keyset.next_eq_some (matchingIds_ascending _ _ filter) hnext).1
    have hbound : 0 < bound := hkey ▸ matchingIds_pos _ (numbered time) (Keyset.mem_page hrow).1
    obtain ⟨answers, hlisting, hids, hcursors⟩ := ih fun id hid => by cases hid; exact hbound
    refine ⟨page :: answers, .more hpage hmore hlisting, ?_, ?_⟩
    · rw [List.map_cons, List.map_cons, hids]
      exact congrArg (· :: _) hitems
    · intro other hother next hsome
      rcases List.mem_cons.mp hother with rfl | hrest
      · rw [hmore] at hsome
        cases hsome
        exact hvalid hbound
      · exact hcursors other hrest next hsome

/-- An accepted list stays accepted while the tables grow. -/
theorem accepts_throughout (grows : ∀ time, (states time).Grows (states (time + 1)))
    (h : service.Accepts (states 0) filter) (time : ℕ) :
    service.Accepts (states time) filter := by
  induction time with
  | zero => exact h
  | succ time ih => exact service.accepts_grows (grows time) ih

end Listings

section Names

variable (db : Database)

/-- A node code of the wanted length that is stored. -/
def NamesNode (nodeCode : Bytes) : Prop :=
  nodeCode ≠ [] ∧ nodeCode.length ≤ 64 ∧
    ∃ node ∈ db.nodes.rows, service.ofNode nodeCode node.nodeCode = true

/-- A decimal key of a stored task of a node. -/
def NamesTaskOf (nodeCode taskId : Bytes) : Prop :=
  isPositiveId taskId = true ∧
    ∃ task ∈ db.tasks.rows, service.ofId taskId task.id = true ∧ task.nodeCode = nodeCode

/-- A decimal key of a stored run. -/
def NamesRun (taskRunId : Bytes) : Prop :=
  isPositiveId taskRunId = true ∧ ∃ run ∈ db.taskRuns.rows, service.ofId taskRunId run.id = true

/-- A decimal key of a stored run of a node. -/
def NamesRunOf (nodeCode taskRunId : Bytes) : Prop :=
  isPositiveId taskRunId = true ∧
    ∃ run ∈ db.taskRuns.rows, service.ofId taskRunId run.id = true ∧ run.nodeCode = nodeCode

/-- A filter that names stored things, in the words of its list. -/
def Names : ListFilter → Prop
  | .nodes status => ∀ word ∈ status, word = text "online" ∨ word = text "offline"
  | .dataSources nodeCode _ | .tasks nodeCode _ => service.NamesNode db nodeCode
  | .qcRules _ => True
  | .taskRuns nodeCode taskId status =>
    service.NamesNode db nodeCode ∧ (∀ id ∈ taskId, service.NamesTaskOf db nodeCode id) ∧
      ∀ word ∈ status, word = text "pending" ∨ word = text "running" ∨
        word = text "succeeded" ∨ word = text "failed"
  | .rawFiles taskRunId | .parsedRecords taskRunId => service.NamesRun db taskRunId
  | .qcResults taskRunId result =>
    service.NamesRun db taskRunId ∧ ∀ word ∈ result, word = text "passed" ∨ word = text "failed"
  | .alerts nodeCode taskRunId status severity =>
    service.NamesNode db nodeCode ∧ (∀ id ∈ taskRunId, service.NamesRunOf db nodeCode id) ∧
      (∀ word ∈ status, word = text "open" ∨ word = text "acknowledged" ∨ word = text "closed") ∧
      ∀ word ∈ severity, word = text "warning" ∨ word = text "failed"

variable {db}

/-- A stored node is found. -/
theorem requireNode_of_names {nodeCode : Bytes} (h : service.NamesNode db nodeCode) :
    service.requireNode db nodeCode = .ok () := by
  obtain ⟨-, -, node, hnode, hreceive⟩ := h
  have hreceived := beq_iff_eq.mp hreceive
  simp only [requireNode, Database.findNodeSummary, bind_eq_ok, answered_eq_ok, require_eq_ok,
    Answer.pure_eq_ok, Except.ok.injEq]
  refine ⟨_, ⟨node.nodeCode, ?_, rfl⟩, List.any_eq_true.mpr ⟨node, hnode, beq_self_eq_true _⟩⟩
  rw [Postgres.textParam, hreceived]
  rfl

/-- The key that a decimal text names. -/
theorem idParam_of_ofId {value : Bytes} {id : RowId} (h : service.ofId value id = true) :
    service.postgres.idParam value = .ok (some id) := by
  have hparam := beq_iff_eq.mp h
  cases hanswer : service.postgres.idParam value with
  | ok found =>
    rw [hanswer] at hparam
    exact congrArg Except.ok (Option.some.inj hparam)
  | error stop =>
    rw [hanswer] at hparam
    cases hparam

/-- A stored run is found. -/
theorem requireTaskRun_of_names {taskRunId : Bytes} (h : service.NamesRun db taskRunId) :
    service.requireTaskRun db taskRunId = .ok () := by
  obtain ⟨-, run, hrun, hid⟩ := h
  have hfind : db.taskRuns.find? run.id = some run := SerialTable.find?_eq_some.mpr ⟨hrun, rfl⟩
  simp only [requireTaskRun, Database.findTaskRunSummary, bind_eq_ok, answered_eq_ok,
    require_eq_ok, Answer.pure_eq_ok, Except.ok.injEq]
  exact ⟨_, ⟨_, service.idParam_of_ofId hid, rfl⟩, by simp [hfind]⟩

/-- A stored run of a node is found there. -/
theorem requireRunOfNode_of_names {nodeCode : Bytes} {taskRunId : Option Bytes}
    (h : ∀ id ∈ taskRunId, service.NamesRunOf db nodeCode id) :
    service.requireRunOfNode db nodeCode taskRunId = .ok () := by
  cases taskRunId with
  | none => rfl
  | some value =>
    obtain ⟨-, run, hrun, hid, hcode⟩ := h value rfl
    have hfind : db.taskRuns.find? run.id = some run := SerialTable.find?_eq_some.mpr ⟨hrun, rfl⟩
    simp only [requireRunOfNode, Database.findTaskRunSummary, bind_eq_ok, answered_eq_ok,
      require_eq_ok, Answer.pure_eq_ok, Except.ok.injEq]
    exact ⟨_, ⟨_, service.idParam_of_ofId hid, rfl⟩, by simp [hfind, hcode]⟩

/-- A stored task of a node is found there. -/
theorem requireTask_of_names {nodeCode : Bytes} {taskId : Option Bytes}
    (h : ∀ id ∈ taskId, service.NamesTaskOf db nodeCode id) :
    service.requireTask db nodeCode taskId = .ok () := by
  cases taskId with
  | none => rfl
  | some value =>
    obtain ⟨-, task, htask, hid, hcode⟩ := h value rfl
    have hfind : db.tasks.find? task.id = some task := SerialTable.find?_eq_some.mpr ⟨htask, rfl⟩
    simp only [requireTask, Database.selectTask, bind_eq_ok, answered_eq_ok, require_eq_ok,
      Answer.pure_eq_ok, Except.ok.injEq]
    exact ⟨_, ⟨_, service.idParam_of_ofId hid, rfl⟩, by
      simp [hfind, hcode]⟩

/-- A filter that names stored things passes the checks of its list. -/
theorem accepts_of_names {filter : ListFilter} (h : service.Names db filter) :
    service.Accepts db filter := by
  have hcode {nodeCode : Bytes} (h : service.NamesNode db nodeCode) :
      validateNodeCode nodeCode = .ok () := require_eq_ok.mpr ⟨h.1, h.2.1⟩
  cases filter with
  | nodes status =>
    intro hsome
    obtain ⟨word, rfl⟩ := Option.isSome_iff_exists.mp hsome
    rcases h word rfl with rfl | rfl <;> rfl
  | dataSources nodeCode enabled => exact ⟨hcode h, service.requireNode_of_names h⟩
  | qcRules enabled => trivial
  | tasks nodeCode enabled => exact ⟨hcode h, service.requireNode_of_names h⟩
  | taskRuns nodeCode taskId status =>
    obtain ⟨hnode, htask, hstatus⟩ := h
    refine ⟨hcode hnode, ?_, (Option.all_eq_true _ _).mpr fun id hid => (htask id hid).1,
      service.requireNode_of_names hnode, service.requireTask_of_names htask⟩
    intro hsome
    obtain ⟨word, rfl⟩ := Option.isSome_iff_exists.mp hsome
    rcases hstatus word rfl with rfl | rfl | rfl | rfl <;> rfl
  | rawFiles taskRunId => exact ⟨h.1, service.requireTaskRun_of_names h⟩
  | parsedRecords taskRunId => exact ⟨h.1, service.requireTaskRun_of_names h⟩
  | qcResults taskRunId result =>
    refine ⟨h.1.1, (Option.all_eq_true _ _).mpr fun word hword => ?_,
      service.requireTaskRun_of_names h.1⟩
    rcases h.2 word hword with rfl | rfl <;> rfl
  | alerts nodeCode taskRunId status severity =>
    obtain ⟨hnode, hrun, hstatus, hseverity⟩ := h
    refine ⟨hcode hnode, (Option.all_eq_true _ _).mpr fun id hid => (hrun id hid).1,
      (Option.all_eq_true _ _).mpr fun word hword => ?_, (Option.all_eq_true _ _).mpr fun word hword => ?_,
      service.requireNode_of_names hnode, service.requireRunOfNode_of_names hrun⟩
    · rcases hstatus word hword with rfl | rfl | rfl <;> rfl
    · rcases hseverity word hword with rfl | rfl <;> rfl

end Names

end ManagementQueryService

/-- With a limit from 1 to 100 and a filter that names stored things every call of a listing is
answered, the listing ends, its keys fall, every page holds only rows that match at its time,
every key that matches the filter at the time of each call occurs once, and every cursor is
accepted by the next call. -/
theorem listings_complete (service : ManagementQueryService) (clock : ℕ → ClockTime)
    (states : ℕ → Database) (filter : ListFilter) (limit : ℤ)
    (numbered : ∀ time, (states time).Numbered)
    (grows : ∀ time, (states time).Grows (states (time + 1)))
    (hlimit : 1 ≤ limit ∧ limit ≤ 100) (named : service.Names (states 0) filter) :
    ∃ (pages : List (ManagementPage ManagementItem)) (ids : List RowId),
      Listing (service.calls clock states filter limit) 0 none pages ∧
      pages.flatMap (fun page => page.items.map Listed.id) = ids.map idText ∧
      ids.Pairwise (fun left right => right < left) ∧
      (∀ time page, pages[time]? = some page → ∀ item ∈ page.items,
        ∃ id ∈ service.matchingAt clock states filter time, item.id = idText id) ∧
      (∀ id, (∀ time < pages.length, id ∈ service.matchingAt clock states filter time) →
        ids.count id = 1) ∧
      ∀ page ∈ pages, ∀ next ∈ page.nextCursor, validatePage ⟨limit, some next⟩ = .ok () := by
  have ascending (time : ℕ) : (service.matchingAt clock states filter time).Pairwise
      fun left right => id left < id right :=
    ManagementQueryService.matchingIds_ascending _ _ filter
  obtain ⟨pages, hpages⟩ : ∃ pages, Keyset.Pages id limit.toNat
      (service.matchingAt clock states filter) (fun _ _ => true) 0 none pages :=
    Keyset.exists_pages ascending 0 none
  obtain ⟨answers, hlisting, hids, hcursors⟩ := service.exists_listing numbered hlimit
    (service.accepts_throughout grows (service.accepts_of_names named)) (fun id hid => by cases hid)
    hpages
  have hlength : answers.length = pages.length := by
    simpa using congrArg List.length hids
  obtain ⟨hfall, -⟩ := hpages.descending ascending
  refine ⟨answers, pages.flatten, hlisting, ?_, hfall, ?_, ?_, hcursors⟩
  · rw [List.flatMap_def, hids, List.map_flatten]
  · intro time page hpage item hitem
    have hread : (pages.map (List.map idText))[time]? = some (page.items.map Listed.id) := by
      rw [← hids, List.getElem?_map, hpage]
      rfl
    obtain ⟨keys, hkeys, hsame⟩ := Option.map_eq_some_iff.mp (List.getElem?_map .. ▸ hread)
    obtain ⟨key, hkey, htext⟩ := List.mem_map.mp (hsame ▸ List.mem_map_of_mem hitem)
    have hmatches := (hpages.mem hkeys hkey).1
    rw [Nat.zero_add] at hmatches
    exact ⟨key, hmatches, htext.symm⟩
  · intro id hmatches
    have hwanted : Keyset.Below none id := fun _ h => by cases h
    obtain ⟨row, hrow, rfl⟩ := hpages.complete (by omega) ascending hwanted
      fun time _ hlater => ⟨id, hmatches time (by omega), rfl, rfl⟩
    exact List.count_eq_one_of_mem (hfall.imp fun hlt => (ne_of_lt hlt).symm) hrow

namespace Reference

/-- A service on the first of January 1970. -/
def queries : ManagementQueryService :=
  ⟨postgres, ⟨0, by decide⟩, 60, 3600⟩

/-- A node is registered after the first page. -/
def registering (time : ℕ) : Database := if time = 0 then site else twoNodes

/-- The keys of a site begin at one. -/
theorem numbered_registering (time : ℕ) : (registering time).Numbered := by
  unfold registering
  split_ifs <;> constructor <;> decide

/-- Registering a node lets the tables grow. -/
theorem grows_registering (time : ℕ) : (registering time).Grows (registering (time + 1)) := by
  cases time with
  | zero => exact Database.grows_of_subset (by decide +kernel) (by decide +kernel) (by decide +kernel)
  | succ time => exact Database.grows_of_subset (fun _ h => h) (fun _ h => h) (fun _ h => h)

end Reference

/-- The task of the first node is listed once while another node is registered. -/
theorem listings_complete_registering : ∃ (pages : List (ManagementPage ManagementItem))
    (ids : List RowId), Listing (Reference.queries.calls (fun _ => ⟨0, by decide⟩)
      Reference.registering (.tasks (text "lab-node") (some true)) 1) 0 none pages ∧
    pages.flatMap (fun page => page.items.map Listed.id) = ids.map idText ∧ ids.count 1 = 1 := by
  obtain ⟨pages, ids, hlisting, hids, -, -, honce, -⟩ := listings_complete Reference.queries
    (fun _ => ⟨0, by decide⟩) Reference.registering (.tasks (text "lab-node") (some true)) 1
    Reference.numbered_registering Reference.grows_registering (by decide)
    ⟨by decide, by decide, Reference.node, by decide +kernel, by decide +kernel⟩
  refine ⟨pages, ids, hlisting, hids, honce 1 fun time _ => ?_⟩
  cases time with
  | zero => decide +kernel
  | succ time =>
    change 1 ∈ Reference.queries.matchingIds Reference.twoNodes
      (.tasks (text "lab-node") (some true))
    decide +kernel

end LabBridge.Server
