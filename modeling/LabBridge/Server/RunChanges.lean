import LabBridge.Server.RunWrites

/-!
# What a statement of the protocol changes

A statement leaves the runs, appends one, or takes some out of the waiting state. The index
entry that an insert announces excludes what the run it appends excludes, and a run that
waits no more only gives entries up.
-/

namespace LabBridge.Server

open ByteText LabBridge.Core Storage Interaction

variable {pg : Postgres} {session : Session} {db db' view reached : Database} {γ : Type}
  {statement : Statement γ} {answer : γ} {stage stage' : LockStage}

/-- The execution key under which a statement stores a run. -/
def Statement.entersKey : {α : Type} → Statement α → Option Bytes
  | _, .insertScheduledRun record => some record.executionKey
  | _, .insertManualRun request _ => some request.executionKey
  | _, _ => none

/-- A run is stored under the execution key that a statement sends, or under none. -/
def Statement.StoresKey (pg : Postgres) {α : Type} (statement : Statement α) (run : TaskRunRow) :
    Prop :=
  match statement.entersKey with
  | none => run.executionKey = none
  | some key => ∃ received, pg.varcharParam 128 key = .ok received ∧
      run.executionKey = some received

/-- Two runs exclude each other mutually. -/
theorem clash_comm (left right : TaskRunRow) : left.clash right = right.clash left := by
  simp only [TaskRunRow.clash]
  grind

/-- A run that waits no more excludes only what it excluded before. -/
theorem Leaves.clash {before after run : TaskRunRow} (h : Leaves before after)
    (hfree : before.clash run = false) : after.clash run = false := by
  have hmoved : (after.status == .pending) = false := by simpa using h.moved
  simp only [TaskRunRow.clash, Bool.or_eq_false_iff, hmoved, Bool.false_and, Bool.and_false,
    h.same.nodeCode, h.same.executionKey] at hfree ⊢
  exact ⟨hfree.1, trivial⟩

/-- Two stored runs do not exclude each other. -/
theorem clash_eq_false {left right : TaskRunRow} (hleft : left ∈ db.taskRuns.rows)
    (hright : right ∈ db.taskRuns.rows) (hne : left ≠ right) : left.clash right = false := by
  by_contra hclash
  rw [Bool.not_eq_false] at hclash
  exact hne (SerialTable.eq_of_clash clash_comm hleft hright hclash)

/-- Two runs that are appended are one. -/
theorem Appends.eq {left right : TaskRunRow} (hleft : Appends db db' left)
    (hright : Appends db db' right) : left = right := by
  have hrows := hleft.rows.symm.trans hright.rows
  simpa using hrows

/-- Nothing is appended by nothing. -/
theorem Appends.counts {run : TaskRunRow} (h : Appends db db' run) :
    db'.taskRuns.next ≠ db.taskRuns.next := by
  rw [h.next]
  omega

/-- The entry of an operator run excludes what the run does, which is stored under its key. -/
theorem entry_insertManualRun {request : ManualTaskRunRequest} {json : Bytes}
    {answer : Option Bytes} {run : TaskRunRow}
    (h : db.insertManualRun pg session request json = .ok (answer, db'))
    (happends : Appends db db' run) :
    (Statement.insertManualRun request json).StoresKey pg run ∧
      ∃ entry, (Statement.insertManualRun request json).entry pg db = some entry ∧
        ∀ other : TaskRunRow, other.clash entry = other.clash run := by
  simp only [Database.insertManualRun, Answer.bind_eq_ok] at h
  obtain ⟨id, hid, nodeCode, hnode, trigger, htrigger, key, hkey, parent, -, files, -, h⟩ := h
  split at h
  · cases h
    exact absurd rfl happends.counts
  · rename_i task htask
    obtain ⟨-, hmem, -⟩ := ownTask_eq_some htask
    have hstore {parent : Option RowId} (h : Database.insertManualRun.store session db task
        trigger key parent files = .ok (answer, db')) :
        (Statement.insertManualRun request json).StoresKey pg run ∧
          ∃ entry, (Statement.insertManualRun request json).entry pg db = some entry ∧
            ∀ other : TaskRunRow, other.clash entry = other.clash run := by
      rcases storeRun_appends hmem (fun _ => rfl) (fun _ => rfl) h with
        ⟨-, hdb, -⟩ | ⟨id, -, hstored⟩
      · exact absurd (congrArg (fun db => db.taskRuns.next) hdb) happends.counts
      · rw [happends.eq hstored]
        have hentry : (Statement.insertManualRun request json).entry pg db = some {
            id := 0
            taskId := task.id
            nodeCode := task.nodeCode
            status := .pending
            triggerType := trigger
            executionKey := some key } := by
          simp only [Statement.entry, hid, hnode, htrigger, hkey, htask, Option.map_some]
        exact ⟨⟨key, hkey, rfl⟩, _, hentry, fun other => rfl⟩
    split at h
    · cases h
    · split at h
      · cases h
      · exact hstore h
    · exact hstore h

/-- The entry of a scheduled run excludes what the run does, which is stored under its key. -/
theorem entry_insertScheduledRun {record : TaskRunRecord} {answer : Option Bytes}
    {run : TaskRunRow} (h : db.insertScheduledRun pg record = .ok (answer, db'))
    (happends : Appends db db' run) :
    (Statement.insertScheduledRun record).StoresKey pg run ∧
      ∃ entry, (Statement.insertScheduledRun record).entry pg db = some entry ∧
        ∀ other : TaskRunRow, other.clash entry = other.clash run := by
  simp only [Database.insertScheduledRun, Answer.bind_eq_ok] at h
  obtain ⟨id, hid, nodeCode, hnode, startedAt, -, summary, -, trigger, htrigger, key, hkey,
    slot, -, h⟩ := h
  split at h
  · cases h
    exact absurd rfl happends.counts
  · rename_i task htask
    obtain ⟨-, hmem, -⟩ := ownTask_eq_some htask
    rcases storeRun_appends hmem (fun _ => rfl) (fun _ => rfl) h with
      ⟨-, hdb, -⟩ | ⟨id, -, hstored⟩
    · exact absurd (congrArg (fun db => db.taskRuns.next) hdb) happends.counts
    · rw [happends.eq hstored]
      have hentry : (Statement.insertScheduledRun record).entry pg db = some {
          id := 0
          taskId := task.id
          nodeCode := task.nodeCode
          status := record.status
          triggerType := trigger
          executionKey := some key } := by
        simp only [Statement.entry, hid, hnode, htrigger, hkey, htask, Option.map_some]
      exact ⟨⟨key, hkey, rfl⟩, _, hentry, fun other => rfl⟩

/-- An unkeyed running run has no key and excludes nothing. -/
theorem clash_insertRun {record : TaskRunRecord} {answer : Option Bytes} {run : TaskRunRow}
    (hrunning : record.status = .running) (h : db.insertRun pg record = .ok (answer, db'))
    (happends : Appends db db' run) :
    (Statement.insertRun record).StoresKey pg run ∧
      ∀ other : TaskRunRow, other.clash run = false := by
  simp only [Database.insertRun, Answer.bind_eq_ok] at h
  obtain ⟨id, -, nodeCode, -, startedAt, -, summary, -, trigger, -, h⟩ := h
  split at h
  · cases h
    exact absurd rfl happends.counts
  · rename_i task htask
    obtain ⟨-, hmem, -⟩ := ownTask_eq_some htask
    rcases storeRun_appends hmem (fun _ => rfl) (fun _ => rfl) h with
      ⟨-, hdb, -⟩ | ⟨id, -, hstored⟩
    · exact absurd (congrArg (fun db => db.taskRuns.next) hdb) happends.counts
    · rw [happends.eq hstored]
      refine ⟨rfl, fun other => ?_⟩
      cases hkey : other.executionKey <;> simp [TaskRunRow.clash, hrunning, hkey]

/-- What a statement of the protocol makes of the runs that are seen: nothing, one more, or
some that wait no more. -/
inductive Changes (pg : Postgres) (view reached : Database) {γ : Type} (statement : Statement γ) :
    Prop
  | nothing (same : reached.taskRuns = view.taskRuns)
  | appends {run : TaskRunRow} (appends : Appends view reached run)
      (key : statement.StoresKey pg run) (entry : ∀ other : TaskRunRow, other.clash run = true →
        ∃ entry, statement.entry pg view = some entry ∧ other.clash entry = true)
  | rewrites {selected : TaskRunRow → Prop} (rewrites : Rewrites selected view reached)

/-- A statement of the protocol changes the runs in these ways only. -/
theorem LockStage.After.changes (h : LockStage.After stage statement answer stage')
    (hexec : statement.exec pg session view = .ok (answer, reached)) :
    Changes pg view reached statement := by
  have hread (hread : statement.IsRead) : Changes pg view reached statement :=
    .nothing (congrArg Database.taskRuns (hread.exec_eq hexec))
  cases h with
  | read isRead => exact hread isRead
  | lock => exact hread trivial
  | see => exact hread trivial
  | clear => exact hread trivial
  | insert =>
    rcases insertManualRun_appends hexec with rfl | ⟨run, happends⟩
    · exact .nothing rfl
    · obtain ⟨hkey, entry, hentry, hsame⟩ := entry_insertManualRun hexec happends
      exact .appends happends hkey fun other hclash => ⟨entry, hentry, (hsame other).trans hclash⟩
  | insertScheduled running =>
    rcases insertScheduledRun_appends running hexec with rfl | ⟨run, happends, -⟩
    · exact .nothing rfl
    · obtain ⟨hkey, entry, hentry, hsame⟩ := entry_insertScheduledRun hexec happends
      exact .appends happends hkey fun other hclash => ⟨entry, hentry, (hsame other).trans hclash⟩
  | insertRun running =>
    rcases insertRun_appends running hexec with rfl | ⟨run, happends, -⟩
    · exact .nothing rfl
    · obtain ⟨hkey, hfree⟩ := clash_insertRun running hexec happends
      refine .appends happends hkey fun other hclash => ?_
      rw [hfree other] at hclash
      cases hclash
  | find => exact hread trivial
  | start =>
    obtain ⟨id, -, hrewrites⟩ := updateManualRunning_rewrites hexec
    exact .rewrites hrewrites
  | passKey => exact hread trivial
  | passLocked => exact hread trivial
  | empty =>
    obtain ⟨id, -, hrewrites⟩ := updatePendingManualFailed_rewrites hexec
    exact .rewrites hrewrites
  | enable =>
    obtain ⟨id, -, hruns, -⟩ := updateTaskEnabled_ok hexec
    exact .nothing hruns
  | disable =>
    obtain ⟨id, -, hruns, -⟩ := updateTaskEnabled_ok hexec
    exact .nothing hruns

/-- What the statements of the protocol write to the runs. -/
structure Writes (before after : Database) : Prop where
  next : before.taskRuns.next ≤ after.taskRuns.next
  runs : ∀ run ∈ after.taskRuns.rows, run ∈ before.taskRuns.rows ∨
    before.taskRuns.next ≤ (run.id : ℕ) ∧ OwnedRun before.tasks.rows run ∨
      ∃ old ∈ before.taskRuns.rows, Leaves old run

/-- What is changed is written so. -/
theorem Changes.writes (h : Changes pg view reached statement) : Writes view reached := by
  cases h with
  | nothing same =>
    constructor
    · rw [same]
    · rw [same]
      exact fun _ => .inl
  | appends happends _ _ =>
    constructor
    · rw [happends.next]
      exact Nat.le_succ _
    · intro other hother
      rw [happends.rows] at hother
      rcases List.mem_append.mp hother with hold | hnew
      · exact .inl hold
      · rw [List.mem_singleton.mp hnew]
        exact .inr (.inl ⟨happends.id.ge, happends.owned⟩)
  | rewrites hrewrites =>
    constructor
    · exact hrewrites.next.ge
    · intro run hrun
      rcases hrewrites.origin run hrun with ⟨hold, -⟩ | ⟨old, hold, -, hleaves⟩
      · exact .inl hold
      · exact .inr (.inr ⟨old, hold, hleaves⟩)

end LabBridge.Server
