import LabBridge.Server.LockProtocol
import LabBridge.Server.StartResults

/-!
# What the statements of interleaved requests write

An insert appends one run of a task under the next identifier, unless an index refuses it;
an update takes runs out of the waiting state or switches a task. Reads write nothing.
-/

namespace LabBridge.Server

open ByteText LabBridge.Core Storage Interaction

variable {pg : Postgres} {session : Session} {db db' : Database} {α : Type}

/-- A run belongs to a stored task of its node. -/
def OwnedRun (tasks : List TaskRow) (run : TaskRunRow) : Prop :=
  ∃ task ∈ tasks, task.id = run.taskId ∧ task.nodeCode = run.nodeCode

/-- A run waits no more. -/
structure Leaves (before after : TaskRunRow) : Prop where
  same : SameRun before after
  pending : before.status = .pending
  moved : after.status ≠ .pending

/-- A run is appended under the next identifier, against no index. -/
structure Appends (before after : Database) (run : TaskRunRow) : Prop where
  rows : after.taskRuns.rows = before.taskRuns.rows ++ [run]
  id : (run.id : ℕ) = before.taskRuns.next
  next : after.taskRuns.next = before.taskRuns.next + 1
  owned : OwnedRun before.tasks.rows run
  free : ∀ other ∈ before.taskRuns.rows, other.clash run = false
  tasks : after.tasks = before.tasks

/-- A run that is stored for a task is appended, or refused by an index. -/
theorem storeRun_appends {make : RowId → TaskRunRow} {keyed : ∀ id, (make id).id = id} {blind}
    {answer : Option Bytes} {task : TaskRow} (hmem : task ∈ db.tasks.rows)
    (hid : ∀ id, (make id).taskId = task.id) (hnode : ∀ id, (make id).nodeCode = task.nodeCode)
    {skipped : Bool} (h : db.storeRun make keyed blind skipped = .ok (answer, db')) :
    (answer = none ∧ db' = db ∧ ∃ other ∈ db.taskRuns.rows, other.clash (make 0) = true) ∨
      ∃ id, answer = some (decimal (id : RowId)) ∧ Appends db db' (make id) := by
  unfold Database.storeRun at h
  split at h
  · rename_i id taskRuns hinsert
    obtain ⟨hnumber, hrows, hnext, hfresh⟩ := SerialTable.insert_eq_ok hinsert
    cases h
    exact .inr ⟨id, rfl, hrows, (congrArg Fin.val (keyed id)).trans hnumber, hnext,
      ⟨task, hmem, (hid id).symm, (hnode id).symm⟩, hfresh, rfl⟩
  · rename_i hduplicate
    split at h
    · cases h
      exact .inl ⟨rfl, rfl, SerialTable.insert_eq_duplicate.mp hduplicate⟩
    · cases h
  · cases h

/-- What a run that an operator asks for looks like. -/
structure AskedRun (pg : Postgres) (request : ManualTaskRunRequest) (run : TaskRunRow) : Prop where
  task : pg.idParam request.taskId = .ok (some run.taskId)
  node : pg.textParam request.nodeCode = .ok run.nodeCode
  pending : run.status = .pending
  trigger : pg.varcharParam 32 request.triggerType = .ok run.triggerType
  key : ∃ executionKey, pg.varcharParam 128 request.executionKey = .ok executionKey ∧
    run.executionKey = some executionKey
  parent : ∃ parent, pg.nullableIdParam request.retryOfRunId = .ok parent ∧
    run.retryOfRunId = parent.join ∧ parent ≠ some none

/-- The insert for an operator, for a task of the node it names, appends the run that is asked
for or finds an entry of its indexes. -/
theorem insertManualRun_ok {request : ManualTaskRunRequest} {json : Bytes}
    {answer : Option Bytes} {task : TaskRow} (hmem : task ∈ db.tasks.rows)
    (htask : pg.idParam request.taskId = .ok (some task.id))
    (hnode : pg.textParam request.nodeCode = .ok task.nodeCode)
    (h : db.insertManualRun pg session request json = .ok (answer, db')) :
    (answer = none ∧ db' = db ∧ ∃ run, AskedRun pg request run ∧
        ∃ other ∈ db.taskRuns.rows, other.clash run = true) ∨
      ∃ run, answer = some (decimal run.id) ∧ Appends db db' run ∧ AskedRun pg request run := by
  have hown : db.ownTask (some task.id) task.nodeCode = some task := by
    simp [Database.ownTask, SerialTable.find?_key hmem]
  simp only [Database.insertManualRun, htask, hnode, Answer.ok_bind, Answer.bind_eq_ok, hown] at h
  obtain ⟨trigger, htrigger, key, hkey, parent, hparent, files, -, h⟩ := h
  have hstore {parent' : Option RowId} (hjoin : parent' = parent.join) (hsome : parent ≠ some none)
      (h : Database.insertManualRun.store session db task trigger key parent' files =
        .ok (answer, db')) :
      (answer = none ∧ db' = db ∧ ∃ run, AskedRun pg request run ∧
          ∃ other ∈ db.taskRuns.rows, other.clash run = true) ∨
        ∃ run, answer = some (decimal run.id) ∧ Appends db db' run ∧ AskedRun pg request run := by
    rcases storeRun_appends hmem (fun _ => rfl) (fun _ => rfl) h with
      ⟨hanswer, hdb, hclash⟩ | ⟨id, hanswer, happends⟩
    · exact .inl ⟨hanswer, hdb, _, ⟨htask, hnode, rfl, htrigger, ⟨key, hkey, rfl⟩,
        parent, hparent, hjoin, hsome⟩, hclash⟩
    · exact .inr ⟨_, hanswer, happends, htask, hnode, rfl, htrigger, ⟨key, hkey, rfl⟩,
        parent, hparent, hjoin, hsome⟩
  split at h
  · cases h
  · split at h
    · cases h
    · exact hstore rfl (by simp) h
  · exact hstore rfl (by simp) h

/-- The insert for an operator appends one run, if any. -/
theorem insertManualRun_appends {request : ManualTaskRunRequest} {json : Bytes}
    {answer : Option Bytes}
    (h : db.insertManualRun pg session request json = .ok (answer, db')) :
    db' = db ∨ ∃ run, Appends db db' run := by
  simp only [Database.insertManualRun, Answer.bind_eq_ok] at h
  obtain ⟨id, -, nodeCode, -, trigger, -, key, -, parent, -, files, -, h⟩ := h
  split at h
  · cases h
    exact .inl rfl
  · rename_i task htask
    obtain ⟨-, hmem, -⟩ := ownTask_eq_some htask
    have hstore {parent : Option RowId} (h : Database.insertManualRun.store session db task
        trigger key parent files = .ok (answer, db')) : db' = db ∨ ∃ run, Appends db db' run := by
      rcases storeRun_appends hmem (fun _ => rfl) (fun _ => rfl) h with
        ⟨-, hdb, -⟩ | ⟨id, -, happends⟩
      · exact .inl hdb
      · exact .inr ⟨_, happends⟩
    split at h
    · cases h
    · split at h
      · cases h
      · exact hstore h
    · exact hstore h

/-- The insert of a scheduled start appends a running run, if any. -/
theorem insertScheduledRun_appends {record : TaskRunRecord} {answer : Option Bytes}
    (hrunning : record.status = .running)
    (h : db.insertScheduledRun pg record = .ok (answer, db')) :
    db' = db ∨ ∃ run, Appends db db' run ∧ run.status = .running := by
  simp only [Database.insertScheduledRun, Answer.bind_eq_ok] at h
  obtain ⟨id, -, nodeCode, -, startedAt, -, summary, -, trigger, -, key, -, slot, -, h⟩ := h
  split at h
  · cases h
    exact .inl rfl
  · rename_i task htask
    obtain ⟨-, hmem, -⟩ := ownTask_eq_some htask
    rcases storeRun_appends hmem (fun _ => rfl) (fun _ => rfl) h with
      ⟨-, hdb, -⟩ | ⟨id, -, happends⟩
    · exact .inl hdb
    · exact .inr ⟨_, happends, hrunning⟩

/-- The insert of an unkeyed start appends a running run, if any. -/
theorem insertRun_appends {record : TaskRunRecord} {answer : Option Bytes}
    (hrunning : record.status = .running) (h : db.insertRun pg record = .ok (answer, db')) :
    db' = db ∨ ∃ run, Appends db db' run ∧ run.status = .running := by
  simp only [Database.insertRun, Answer.bind_eq_ok] at h
  obtain ⟨id, -, nodeCode, -, startedAt, -, summary, -, trigger, -, h⟩ := h
  split at h
  · cases h
    exact .inl rfl
  · rename_i task htask
    obtain ⟨-, hmem, -⟩ := ownTask_eq_some htask
    rcases storeRun_appends hmem (fun _ => rfl) (fun _ => rfl) h with
      ⟨-, hdb, -⟩ | ⟨id, -, happends⟩
    · exact .inl hdb
    · exact .inr ⟨_, happends, hrunning⟩

/-- The selected runs leave the waiting state, and no other row changes. -/
structure Rewrites (selected : TaskRunRow → Prop) (before after : Database) : Prop where
  next : after.taskRuns.next = before.taskRuns.next
  tasks : after.tasks = before.tasks
  origin : ∀ run ∈ after.taskRuns.rows, run ∈ before.taskRuns.rows ∧ ¬selected run ∨
    ∃ old ∈ before.taskRuns.rows, selected old ∧ Leaves old run
  found : ∀ old ∈ before.taskRuns.rows, selected old → ∃ run ∈ after.taskRuns.rows, Leaves old run
  stays : ∀ old ∈ before.taskRuns.rows, ¬selected old → old ∈ after.taskRuns.rows

/-- Changing selected waiting runs so that they wait no more rewrites them. -/
theorem changeRuns_rewrites {selected : TaskRunRow → Bool} {change : TaskRunRow → TaskRunRow}
    {keyed : ∀ run, (change run).id = run.id}
    (leaves : ∀ run, selected run = true → Leaves run (change run))
    (h : db.changeRuns selected change keyed = .ok ((), db')) :
    Rewrites (fun run => selected run = true) db db' := by
  simp only [Database.changeRuns, Answer.bind_eq_ok, accepted_eq_ok] at h
  obtain ⟨taskRuns, hupdate, h⟩ := h
  cases h
  obtain ⟨hrows, hnext⟩ := SerialTable.update_eq_some hupdate
  refine ⟨hnext, rfl, fun run hrun => ?_, fun old hold hselected => ?_, fun old hold hselected =>
    (SerialTable.mem_update hupdate).mpr ⟨old, hold, if_neg hselected⟩⟩
  · obtain ⟨old, hold, hchanged⟩ := (SerialTable.mem_update hupdate).mp hrun
    by_cases hselected : selected old = true
    · rw [if_pos hselected] at hchanged
      exact .inr ⟨old, hold, hselected, hchanged ▸ leaves old hselected⟩
    · rw [if_neg hselected] at hchanged
      subst hchanged
      exact .inl ⟨hold, hselected⟩
  · refine ⟨change old, (SerialTable.mem_update hupdate).mpr ⟨old, hold, if_pos hselected⟩,
      leaves old hselected⟩

/-- A manual start moves the waiting run it names. -/
theorem updateManualRunning_rewrites {taskRunId startedAt : Bytes}
    (h : db.updateManualRunning pg taskRunId startedAt = .ok ((), db')) :
    ∃ id, pg.idParam taskRunId = .ok id ∧
      Rewrites (fun run => (some run.id == id && run.status == .pending) = true) db db' := by
  simp only [Database.updateManualRunning, Answer.bind_eq_ok] at h
  obtain ⟨id, hid, instant, -, h⟩ := h
  refine ⟨id, hid, changeRuns_rewrites (fun run hrun => ?_) h⟩
  simp only [Bool.and_eq_true, beq_iff_eq] at hrun
  exact ⟨⟨rfl, rfl, rfl, rfl, rfl, rfl, rfl, rfl, rfl⟩, hrun.2, by simp⟩

/-- The run that a manual start moves is running. -/
theorem running_of_updateManualRunning {taskRunId startedAt : Bytes}
    (h : db.updateManualRunning pg taskRunId startedAt = .ok ((), db')) :
    ∀ run ∈ db'.taskRuns.rows, run ∈ db.taskRuns.rows ∨ run.status = .running := by
  simp only [Database.updateManualRunning, Database.changeRuns, Answer.bind_eq_ok,
    accepted_eq_ok] at h
  obtain ⟨id, -, instant, -, taskRuns, hupdate, h⟩ := h
  cases h
  intro run hrun
  obtain ⟨old, hold, rfl⟩ := (SerialTable.mem_update hupdate).mp hrun
  split
  · exact .inr rfl
  · exact .inl hold

/-- Giving up the waiting runs of a task moves exactly these. -/
theorem updatePendingManualFailed_rewrites {taskId summary : Bytes}
    (h : db.updatePendingManualFailed pg session taskId summary = .ok ((), db')) :
    ∃ id, pg.idParam taskId = .ok id ∧
      Rewrites (fun run => (id.any fun id => Database.isPendingManual id run) = true) db db' := by
  simp only [Database.updatePendingManualFailed, Answer.bind_eq_ok] at h
  obtain ⟨id, hid, summary, -, h⟩ := h
  refine ⟨id, hid, changeRuns_rewrites (fun run hrun => ?_) h⟩
  obtain ⟨id, -, hpending⟩ := (Option.any_eq_true _ _).mp hrun
  simp only [Database.isPendingManual, Bool.and_eq_true, beq_iff_eq] at hpending
  exact ⟨⟨rfl, rfl, rfl, rfl, rfl, rfl, rfl, rfl, rfl⟩, hpending.1.2, by simp⟩

/-- Switching a task rewrites its row. -/
theorem updateTaskEnabled_ok {taskId : Bytes} {enabled : Bool}
    (h : db.updateTaskEnabled pg taskId enabled = .ok ((), db')) :
    ∃ id, pg.idParam taskId = .ok id ∧ db'.taskRuns = db.taskRuns ∧
      ∀ task ∈ db'.tasks.rows, task ∈ db.tasks.rows ∨
        some task.id = id ∧ task.enabled = enabled ∧ ∃ old ∈ db.tasks.rows, SameTask old task := by
  simp only [Database.updateTaskEnabled, Answer.bind_eq_ok, accepted_eq_ok] at h
  obtain ⟨id, hid, tasks, hupdate, h⟩ := h
  cases h
  refine ⟨id, hid, rfl, fun task htask => ?_⟩
  obtain ⟨old, hold, hchanged⟩ := (SerialTable.mem_update hupdate).mp htask
  by_cases hselected : (some old.id == id) = true
  · rw [if_pos hselected] at hchanged
    subst hchanged
    exact .inr ⟨by simpa using hselected, rfl, old, hold, rfl, rfl, rfl⟩
  · rw [if_neg hselected] at hchanged
    subst hchanged
    exact .inl hold

end LabBridge.Server
