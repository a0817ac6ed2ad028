import LabBridge.Library.RowHistory
import LabBridge.Server.Effects

/-!
# The moves of a task run

What the statements of the start, trigger, retry and enable operations do to the tables: a
run that was asked for starts or is given up, a new run is pending or running, a task is
switched, and nothing else changes.
-/

namespace LabBridge.Server

open ByteText LabBridge.Core Storage Interaction

variable {pg : Postgres} {session : Session} {db db' : Database} {α : Type}

/-- The columns of a run that no statement changes. -/
structure SameRun (before after : TaskRunRow) : Prop where
  id : after.id = before.id
  taskId : after.taskId = before.taskId
  nodeCode : after.nodeCode = before.nodeCode
  triggerType : after.triggerType = before.triggerType
  executionKey : after.executionKey = before.executionKey
  scheduledFor : after.scheduledFor = before.scheduledFor
  requestedAt : after.requestedAt = before.requestedAt
  retryOfRunId : after.retryOfRunId = before.retryOfRunId
  retryFiles : after.retryFiles = before.retryFiles

namespace SameRun

/-- A run is the same run as itself. -/
theorem refl (run : TaskRunRow) : SameRun run run := ⟨rfl, rfl, rfl, rfl, rfl, rfl, rfl, rfl, rfl⟩

/-- The fixed columns stay through two changes. -/
theorem trans {a b c : TaskRunRow} (first : SameRun a b) (second : SameRun b c) : SameRun a c where
  id := second.id.trans first.id
  taskId := second.taskId.trans first.taskId
  nodeCode := second.nodeCode.trans first.nodeCode
  triggerType := second.triggerType.trans first.triggerType
  executionKey := second.executionKey.trans first.executionKey
  scheduledFor := second.scheduledFor.trans first.scheduledFor
  requestedAt := second.requestedAt.trans first.requestedAt
  retryOfRunId := second.retryOfRunId.trans first.retryOfRunId
  retryFiles := second.retryFiles.trans first.retryFiles

end SameRun

/-- The moves of a run while runs are started and asked for. -/
inductive StartMove (before after : TaskRunRow) : Prop
  | stay (unchanged : after = before)
  | start (pending : before.status = .pending) (running : after.status = .running)
      (same : SameRun before after)

/-- The moves of a run while a task is switched on or off. -/
inductive DisableMove (before after : TaskRunRow) : Prop
  | stay (unchanged : after = before)
  | disable (pending : before.status = .pending) (failed : after.status = .failed)
      (same : SameRun before after)

/-- A run that started stays. -/
theorem StartMove.trans {a b c : TaskRunRow} (first : StartMove a b) (second : StartMove b c) :
    StartMove a c := by
  cases first with
  | stay unchanged => exact unchanged ▸ second
  | start pending running same =>
    cases second with
    | stay unchanged => exact unchanged ▸ .start pending running same
    | start pending' => simp [running] at pending'

/-- A run that was given up stays. -/
theorem DisableMove.trans {a b c : TaskRunRow} (first : DisableMove a b)
    (second : DisableMove b c) : DisableMove a c := by
  cases first with
  | stay unchanged => exact unchanged ▸ second
  | disable pending failed same =>
    cases second with
    | stay unchanged => exact unchanged ▸ .disable pending failed same
    | disable pending' => simp [failed] at pending'

/-- A task that at most was switched on or off. -/
structure SameTask (before after : TaskRow) : Prop where
  id : after.id = before.id
  nodeCode : after.nodeCode = before.nodeCode
  dataSourceId : after.dataSourceId = before.dataSourceId

namespace SameTask

/-- A task is the same task as itself. -/
theorem refl (task : TaskRow) : SameTask task task := ⟨rfl, rfl, rfl⟩

/-- The fixed columns stay through two changes. -/
theorem trans {a b c : TaskRow} (first : SameTask a b) (second : SameTask b c) : SameTask a c :=
  ⟨second.id.trans first.id, second.nodeCode.trans first.nodeCode,
    second.dataSourceId.trans first.dataSourceId⟩

end SameTask

/-- A run as it is created: not ended, and for a task of its own node. -/
structure NewRun (tasks : List TaskRow) (run : TaskRunRow) : Prop where
  isOpen : run.status.isTerminal = false
  task : ∃ task ∈ tasks, task.id = run.taskId ∧ task.nodeCode = run.nodeCode

namespace NewRun

/-- A new run that starts is new. -/
theorem start {tasks : List TaskRow} {run moved : TaskRunRow} (h : NewRun tasks run)
    (move : StartMove run moved) : NewRun tasks moved := by
  cases move with
  | stay unchanged => exact unchanged ▸ h
  | start _ running same =>
    refine ⟨by rw [running]; rfl, ?_⟩
    rw [same.taskId, same.nodeCode]
    exact h.task

/-- The task of a new run stays when tasks are only added and switched. -/
theorem mono {before after : List TaskRow} {fresh : TaskRow → Prop} {run : TaskRunRow}
    (tasks : Evolves SameTask fresh before after) (h : NewRun before run) : NewRun after run := by
  obtain ⟨task, hmem, hid, hnode⟩ := h.task
  obtain ⟨moved, hmoved, same⟩ := tasks.exists_moved hmem
  exact ⟨h.isOpen, moved, hmoved, same.id.trans hid, same.nodeCode.trans hnode⟩

end NewRun

/-- The tables besides tasks and runs, which an operation on runs leaves alone. -/
structure SameElsewhere (before after : Database) : Prop where
  nodes : after.nodes = before.nodes
  dataSources : after.dataSources = before.dataSources
  rawFiles : after.rawFiles = before.rawFiles
  parsedRecords : after.parsedRecords = before.parsedRecords
  qcRules : after.qcRules = before.qcRules
  taskQcRules : after.taskQcRules = before.taskQcRules
  qcResults : after.qcResults = before.qcResults
  alerts : after.alerts = before.alerts
  receipts : after.receipts = before.receipts

namespace SameElsewhere

/-- Nothing changed elsewhere. -/
theorem refl (db : Database) : SameElsewhere db db :=
  ⟨rfl, rfl, rfl, rfl, rfl, rfl, rfl, rfl, rfl⟩

/-- Nothing changed elsewhere in two steps. -/
theorem trans {a b c : Database} (first : SameElsewhere a b) (second : SameElsewhere b c) :
    SameElsewhere a c where
  nodes := second.nodes.trans first.nodes
  dataSources := second.dataSources.trans first.dataSources
  rawFiles := second.rawFiles.trans first.rawFiles
  parsedRecords := second.parsedRecords.trans first.parsedRecords
  qcRules := second.qcRules.trans first.qcRules
  taskQcRules := second.taskQcRules.trans first.taskQcRules
  qcResults := second.qcResults.trans first.qcResults
  alerts := second.alerts.trans first.alerts
  receipts := second.receipts.trans first.receipts

end SameElsewhere

/-- Runs are created and started. -/
structure Starts (before after : Database) : Prop where
  elsewhere : SameElsewhere before after
  tasks : after.tasks = before.tasks
  taskRuns : Evolves StartMove (NewRun before.tasks.rows) before.taskRuns.rows
    after.taskRuns.rows

/-- A task is switched, and its waiting runs may be given up. -/
structure Switches (before after : Database) : Prop where
  elsewhere : SameElsewhere before after
  tasks : Evolves SameTask (fun _ => False) before.tasks.rows after.tasks.rows
  taskRuns : Evolves DisableMove (fun _ => False) before.taskRuns.rows after.taskRuns.rows

/-- Starting nothing. -/
theorem Starts.refl (db : Database) : Starts db db :=
  ⟨.refl db, rfl, .refl (fun _ => .stay rfl) _⟩

/-- Starting in two steps. -/
theorem Starts.trans {a b c : Database} (first : Starts a b) (second : Starts b c) :
    Starts a c where
  elsewhere := first.elsewhere.trans second.elsewhere
  tasks := second.tasks.trans first.tasks
  taskRuns := by
    have hsecond := second.taskRuns
    rw [first.tasks] at hsecond
    exact first.taskRuns.trans StartMove.trans NewRun.start hsecond

/-- Switching nothing. -/
theorem Switches.refl (db : Database) : Switches db db :=
  ⟨.refl db, .refl .refl _, .refl (fun _ => .stay rfl) _⟩

/-- Switching in two steps. -/
theorem Switches.trans {a b c : Database} (first : Switches a b) (second : Switches b c) :
    Switches a c where
  elsewhere := first.elsewhere.trans second.elsewhere
  tasks := first.tasks.trans SameTask.trans (fun h _ => h) second.tasks
  taskRuns := first.taskRuns.trans DisableMove.trans (fun h _ => h) second.taskRuns

/-- The statements of the start, trigger and retry operations. -/
inductive Statement.IsStarting : {α : Type} → Statement α → Prop
  | read {α : Type} {statement : Statement α} (isRead : statement.IsRead) : IsStarting statement
  | insertRun {record} (running : record.status = .running) : IsStarting (.insertRun record)
  | insertScheduledRun {record} (running : record.status = .running) :
      IsStarting (.insertScheduledRun record)
  | insertManualRun {request json} : IsStarting (.insertManualRun request json)
  | updateManualRunning {taskRunId startedAt} :
      IsStarting (.updateManualRunning taskRunId startedAt)

/-- The statements that switch a task. -/
inductive Statement.IsSwitching : {α : Type} → Statement α → Prop
  | read {α : Type} {statement : Statement α} (isRead : statement.IsRead) : IsSwitching statement
  | updatePendingManualFailed {taskId summary} :
      IsSwitching (.updatePendingManualFailed taskId summary)
  | updateTaskEnabled {taskId enabled} : IsSwitching (.updateTaskEnabled taskId enabled)

/-- A task selected for a node is stored and belongs to the node. -/
theorem ownTask_eq_some {id : Option RowId} {nodeCode : Bytes} {task : TaskRow}
    (h : db.ownTask id nodeCode = some task) :
    id = some task.id ∧ task ∈ db.tasks.rows ∧ task.nodeCode = nodeCode := by
  obtain ⟨hfind, hnode⟩ := Option.filter_eq_some_iff.mp h
  obtain ⟨hid, hmem⟩ := find_of_param hfind
  exact ⟨hid, hmem, by simpa using hnode⟩

/-- A run that is stored for a task of its node is the last row of its table; one that is
skipped changes nothing. -/
theorem storeRun_ok {make : RowId → TaskRunRow} {keyed : ∀ id, (make id).id = id} {blind}
    {skipped : Bool} {answer : Option Bytes}
    (h : db.storeRun make keyed blind skipped = .ok (answer, db')) :
    (answer = none ∧ db' = db) ∨
      ∃ id taskRuns, answer = some (decimal (id : RowId)) ∧
        db' = { db with taskRuns := taskRuns } ∧
        taskRuns.rows = db.taskRuns.rows ++ [make id] ∧
        ∀ run ∈ db.taskRuns.rows, run.clash (make id) = false := by
  unfold Database.storeRun at h
  split at h
  · rename_i id taskRuns hinsert
    obtain ⟨-, hrows, -, hfresh⟩ := SerialTable.insert_eq_ok hinsert
    cases h
    exact .inr ⟨id, taskRuns, rfl, rfl, hrows, hfresh⟩
  · split at h
    · cases h
      exact .inl ⟨rfl, rfl⟩
    · cases h
  · cases h

/-- Storing a new run for a task of its node creates it. -/
private theorem starts_of_storeRun {make : RowId → TaskRunRow}
    {keyed : ∀ id, (make id).id = id} {blind} {skipped : Bool} {answer : Option Bytes}
    {task : TaskRow} (hmem : task ∈ db.tasks.rows) (hid : ∀ id, (make id).taskId = task.id)
    (hnode : ∀ id, (make id).nodeCode = task.nodeCode)
    (hopen : ∀ id, (make id).status.isTerminal = false)
    (h : db.storeRun make keyed blind skipped = .ok (answer, db')) : Starts db db' := by
  rcases storeRun_ok h with ⟨-, rfl⟩ | ⟨id, taskRuns, -, rfl, hrows, -⟩
  · exact .refl _
  · refine ⟨⟨rfl, rfl, rfl, rfl, rfl, rfl, rfl, rfl, rfl⟩, rfl, ?_⟩
    rw [hrows]
    refine .of_append (fun _ => .stay rfl) fun run hrun => ?_
    rw [List.mem_singleton.mp hrun]
    exact ⟨hopen id, task, hmem, (hid id).symm, (hnode id).symm⟩

/-- Changing the selected runs touches no other table. -/
theorem changeRuns_ok {selected : TaskRunRow → Bool} {change : TaskRunRow → TaskRunRow}
    {keyed : ∀ run, (change run).id = run.id}
    (h : db.changeRuns selected change keyed = .ok ((), db')) :
    ∃ taskRuns, db' = { db with taskRuns := taskRuns } ∧
      taskRuns.rows = db.taskRuns.rows.map fun run =>
        if selected run then change run else run := by
  simp only [Database.changeRuns, Answer.bind_eq_ok, accepted_eq_ok] at h
  obtain ⟨taskRuns, hupdate, h⟩ := h
  cases h
  exact ⟨taskRuns, rfl, (SerialTable.update_eq_some hupdate).1⟩

/-- An unkeyed run is created running. -/
theorem insertRun_starts {record : TaskRunRecord} {answer : Option Bytes}
    (hrunning : record.status = .running) (h : db.insertRun pg record = .ok (answer, db')) :
    Starts db db' := by
  simp only [Database.insertRun, Answer.bind_eq_ok] at h
  obtain ⟨id, -, nodeCode, -, startedAt, -, summary, -, trigger, -, h⟩ := h
  split at h
  · cases h
    exact .refl _
  · rename_i task htask
    obtain ⟨-, hmem, -⟩ := ownTask_eq_some htask
    exact starts_of_storeRun hmem (fun _ => rfl) (fun _ => rfl) (fun _ => by rw [hrunning]; rfl) h

/-- A scheduled run is created running. -/
theorem insertScheduledRun_starts {record : TaskRunRecord} {answer : Option Bytes}
    (hrunning : record.status = .running)
    (h : db.insertScheduledRun pg record = .ok (answer, db')) : Starts db db' := by
  simp only [Database.insertScheduledRun, Answer.bind_eq_ok] at h
  obtain ⟨id, -, nodeCode, -, startedAt, -, summary, -, trigger, -, key, -, slot, -, h⟩ := h
  split at h
  · cases h
    exact .refl _
  · rename_i task htask
    obtain ⟨-, hmem, -⟩ := ownTask_eq_some htask
    exact starts_of_storeRun hmem (fun _ => rfl) (fun _ => rfl) (fun _ => by rw [hrunning]; rfl) h

/-- A run that an operator asks for is created pending. -/
theorem insertManualRun_starts {request : ManualTaskRunRequest} {json : Bytes}
    {answer : Option Bytes}
    (h : db.insertManualRun pg session request json = .ok (answer, db')) : Starts db db' := by
  simp only [Database.insertManualRun, Answer.bind_eq_ok] at h
  obtain ⟨id, -, nodeCode, -, trigger, -, key, -, parent, -, files, -, h⟩ := h
  split at h
  · cases h
    exact .refl _
  · rename_i task htask
    obtain ⟨-, hmem, -⟩ := ownTask_eq_some htask
    have hstore {parent : Option RowId} (h : Database.insertManualRun.store session db task
        trigger key parent files = .ok (answer, db')) : Starts db db' :=
      starts_of_storeRun hmem (fun _ => rfl) (fun _ => rfl) (fun _ => rfl) h
    split at h
    · cases h
    · split at h
      · cases h
      · exact hstore h
    · exact hstore h

/-- A waiting run is started. -/
theorem updateManualRunning_starts {taskRunId startedAt : Bytes}
    (h : db.updateManualRunning pg taskRunId startedAt = .ok ((), db')) : Starts db db' := by
  simp only [Database.updateManualRunning, Answer.bind_eq_ok] at h
  obtain ⟨id, -, instant, -, h⟩ := h
  obtain ⟨taskRuns, rfl, hrows⟩ := changeRuns_ok h
  refine ⟨⟨rfl, rfl, rfl, rfl, rfl, rfl, rfl, rfl, rfl⟩, rfl, ?_⟩
  rw [hrows]
  refine .of_selected (fun _ => .stay rfl) fun run _ hrun => ?_
  simp only [Bool.and_eq_true, beq_iff_eq] at hrun
  exact .start hrun.2 rfl ⟨rfl, rfl, rfl, rfl, rfl, rfl, rfl, rfl, rfl⟩

/-- Waiting runs of a task are given up. -/
theorem updatePendingManualFailed_switches {taskId summary : Bytes}
    (h : db.updatePendingManualFailed pg session taskId summary = .ok ((), db')) :
    Switches db db' := by
  simp only [Database.updatePendingManualFailed, Answer.bind_eq_ok] at h
  obtain ⟨id, -, summary, -, h⟩ := h
  obtain ⟨taskRuns, rfl, hrows⟩ := changeRuns_ok h
  refine ⟨⟨rfl, rfl, rfl, rfl, rfl, rfl, rfl, rfl, rfl⟩, .refl .refl _, ?_⟩
  rw [hrows]
  refine .of_selected (fun _ => .stay rfl) fun run _ hrun => ?_
  obtain ⟨id, -, hpending⟩ := (Option.any_eq_true _ _).mp hrun
  simp only [Database.isPendingManual, Bool.and_eq_true, beq_iff_eq] at hpending
  exact .disable hpending.1.2 rfl ⟨rfl, rfl, rfl, rfl, rfl, rfl, rfl, rfl, rfl⟩

/-- A task is switched. -/
theorem updateTaskEnabled_switches {taskId : Bytes} {enabled : Bool}
    (h : db.updateTaskEnabled pg taskId enabled = .ok ((), db')) : Switches db db' := by
  simp only [Database.updateTaskEnabled, Answer.bind_eq_ok, accepted_eq_ok] at h
  obtain ⟨id, -, tasks, hupdate, h⟩ := h
  cases h
  refine ⟨⟨rfl, rfl, rfl, rfl, rfl, rfl, rfl, rfl, rfl⟩, ?_, .refl (fun _ => .stay rfl) _⟩
  rw [(SerialTable.update_eq_some hupdate).1]
  exact .of_selected .refl fun _ _ _ => ⟨rfl, rfl, rfl⟩

namespace Statement

/-- A statement of the start, trigger and retry operations creates and starts runs. -/
theorem IsStarting.exec {statement : Statement α} (hstarting : statement.IsStarting)
    {answer : α} (h : statement.exec pg session db = .ok (answer, db')) : Starts db db' := by
  cases hstarting with
  | read isRead => exact isRead.exec_eq h ▸ .refl db
  | insertRun running => exact insertRun_starts running h
  | insertScheduledRun running => exact insertScheduledRun_starts running h
  | insertManualRun => exact insertManualRun_starts h
  | updateManualRunning => exact updateManualRunning_starts h

/-- A statement that switches a task does so. -/
theorem IsSwitching.exec {statement : Statement α} (hswitching : statement.IsSwitching)
    {answer : α} (h : statement.exec pg session db = .ok (answer, db')) : Switches db db' := by
  cases hswitching with
  | read isRead => exact isRead.exec_eq h ▸ .refl db
  | updatePendingManualFailed => exact updatePendingManualFailed_switches h
  | updateTaskEnabled => exact updateTaskEnabled_switches h

end Statement

end LabBridge.Server
