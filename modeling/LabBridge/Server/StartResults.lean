import LabBridge.Server.Progress

/-!
# What a start answers

A manual start that ends with a result names the run under its execution key, which no
longer waits. A scheduled start with a key names the run under its node and key, created
just now or found; it answers that the run is running in both cases.
-/

namespace LabBridge.Server

open ByteText LabBridge.Core Storage

variable {R : Runtime} {pg : Postgres} {session : Session} {db db' : Database}

/-- The runs under the same node and key are one run. -/
theorem eq_of_executionKey {left right : TaskRunRow} {key : Bytes}
    (hleft : left ∈ db.taskRuns.rows) (hright : right ∈ db.taskRuns.rows)
    (hnode : left.nodeCode = right.nodeCode) (hkey : left.executionKey = some key)
    (hkey' : right.executionKey = some key) : left = right := by
  have symm (a b : TaskRunRow) : a.clash b = b.clash a := by
    have flip {a b : TaskRunRow} (h : a.clash b = true) : b.clash a = true := by
      simp only [TaskRunRow.clash, Bool.or_eq_true, Bool.and_eq_true, beq_iff_eq] at h ⊢
      rcases h with ⟨⟨hnode, hsome⟩, hkey⟩ | ⟨⟨htask, ha⟩, hb⟩
      · exact .inl ⟨⟨hnode.symm, hkey ▸ hsome⟩, hkey.symm⟩
      · exact .inr ⟨⟨htask.symm, hb⟩, ha⟩
    exact Bool.eq_iff_iff.mpr ⟨flip, flip⟩
  exact SerialTable.eq_of_clash symm hleft hright
    (by simp [TaskRunRow.clash, hnode, hkey, hkey'])

/-- A session answers a read without order with one of the selected rows. -/
theorem pick_ok {rows : List TaskRunRow} {record : TaskRunRecord}
    (h : (session.pick rows).map (Database.toTaskRunRecord pg) = some record) :
    ∃ run ∈ rows, record = Database.toTaskRunRecord pg run := by
  obtain ⟨run, hpick, rfl⟩ := Option.map_eq_some_iff.mp h
  exact ⟨run, session.pick_mem hpick, rfl⟩

/-- The read by execution key answers with a run under that key. -/
theorem selectRunByKey_ok {key : Bytes} {record : TaskRunRecord}
    (h : db.selectRunByKey pg session key = .ok (some record)) :
    ∃ received run, pg.textParam key = .ok received ∧ run ∈ db.taskRuns.rows ∧
      run.executionKey = some received ∧ record = Database.toTaskRunRecord pg run := by
  simp only [Database.selectRunByKey, Answer.bind_eq_ok, Answer.pure_eq_ok, Except.ok.injEq] at h
  obtain ⟨received, hkey, h⟩ := h
  obtain ⟨run, hrun, rfl⟩ := pick_ok h
  obtain ⟨hmem, hmatch⟩ := List.mem_filter.mp hrun
  exact ⟨received, run, hkey, hmem, by simpa using hmatch, rfl⟩

/-- The read by node and execution key answers with the run under them. -/
theorem selectRunByNodeKey_ok {nodeCode key : Bytes} {record : TaskRunRecord}
    (h : db.selectRunByNodeKey pg session nodeCode key = .ok (some record)) :
    ∃ received run, pg.textParam key = .ok received ∧ run ∈ db.taskRuns.rows ∧
      pg.textParam nodeCode = .ok run.nodeCode ∧ run.executionKey = some received ∧
      record = Database.toTaskRunRecord pg run := by
  simp only [Database.selectRunByNodeKey, Answer.bind_eq_ok, Answer.pure_eq_ok,
    Except.ok.injEq] at h
  obtain ⟨node, hnode, received, hkey, h⟩ := h
  obtain ⟨run, hrun, rfl⟩ := pick_ok h
  obtain ⟨hmem, hmatch⟩ := List.mem_filter.mp hrun
  simp only [Bool.and_eq_true, beq_iff_eq] at hmatch
  exact ⟨received, run, hkey, hmem, by rw [hnode, hmatch.1], hmatch.2, rfl⟩

namespace TaskRunService

open TaskRunRepository

/-- The run that a manual start asks for. -/
structure AsksFor (pg : Postgres) (request : StartTaskRunRequest) (run : TaskRunRow) : Prop where
  key : ∃ received, pg.textParam request.executionKey = .ok received ∧
    run.executionKey = some received
  node : run.nodeCode = request.nodeCode
  task : decimal run.taskId = request.taskId
  trigger : run.triggerType = request.triggerType

/-- A run that keeps its fixed columns is asked for as before. -/
theorem AsksFor.of_same {request : StartTaskRunRequest} {run later : TaskRunRow}
    (h : AsksFor pg request run) (same : SameRun run later) : AsksFor pg request later where
  key := by rw [same.executionKey]; exact h.key
  node := by rw [same.nodeCode]; exact h.node
  task := by rw [same.taskId]; exact h.task
  trigger := by rw [same.triggerType]; exact h.trigger

/-- The field checks of a manual start. -/
structure ValidManual (request : StartTaskRunRequest) : Prop where
  key : ¬(request.executionKey = [] ∨ 128 < request.executionKey.length)
  slot : request.scheduledFor = []
  startedAt : isRfc3339Utc request.startedAt = true

/-- A result that names a stored run with the status it has. -/
structure NamesRun (result : TaskRunCreateResult) (run : TaskRunRow) : Prop where
  id : result.id = decimal run.id
  status : result.runStatus = run.status.toStorage

/-- The answer of a replay names the run as it is stored. -/
theorem namesRun_replayResult (run : TaskRunRow) :
    NamesRun (replayResult (Database.toTaskRunRecord pg run)) run := ⟨rfl, rfl⟩

/-- A manual start that ends with a result names the run it asks for, which does not wait. -/
theorem startManual_yields {request : StartTaskRunRequest} {result : TaskRunCreateResult}
    (h : Tx.Yields pg session (startManual request) db result db') :
    ValidManual request ∧ ∃ run ∈ db'.taskRuns.rows, AsksFor pg request run ∧
      run.status ≠ .pending ∧ NamesRun result run := by
  simp only [startManual, Tx.yields_unless_refuse, Tx.yields_sql_bind, Statement.exec,
    Statement.reading_eq_ok] at h
  obtain ⟨hkey, hslot, hstarted, answer, mid, ⟨hselect, rfl⟩, h⟩ := h
  refine ⟨⟨hkey, not_not.mp hslot, by simpa using hstarted⟩, ?_⟩
  cases answer with
  | none => simp at h
  | some record =>
    obtain ⟨received, run, hreceived, hmem, hrunKey, rfl⟩ := selectRunByKey_ok hselect
    simp only [Tx.yields_unless_refuse] at h
    obtain ⟨hmatch, h⟩ := h
    simp only [not_or, not_not] at hmatch
    have hasks : AsksFor pg request run :=
      ⟨⟨received, hreceived, hrunKey⟩, hmatch.1, hmatch.2.1, hmatch.2.2⟩
    rw [Tx.yields_ite] at h
    rcases h with ⟨hstatus, h⟩ | ⟨hstatus, h⟩
    · obtain ⟨rfl, rfl⟩ := Tx.yields_pure.mp h
      exact ⟨run, hmem, hasks, hstatus, namesRun_replayResult run⟩
    simp only [Tx.yields_sql_bind, Tx.yields_unless_refuse, Statement.exec,
      Statement.reading_eq_ok] at h
    obtain ⟨found, mid, ⟨-, rfl⟩, -, locked, mid, ⟨hlocked, rfl⟩, h⟩ := h
    rcases selectRunById_ok hlocked with rfl | ⟨same, hsame, hid, rfl⟩
    · simp at h
    obtain rfl : run = same := by
      refine SerialTable.eq_of_key_eq hmem hsame ?_
      simpa [Database.toTaskRunRecord] using hid
    -- The lock and the read before it see the same row, so only the update is left.
    simp only [Tx.yields_ite, hstatus, false_and, false_or, not_false_iff, true_and,
      Tx.yields_sql_bind, Statement.exec, Database.updateManualRunning, Answer.bind_eq_ok] at h
    obtain ⟨answer, mid, ⟨id, hid, instant, -, hchange⟩, h⟩ := h
    obtain ⟨rfl, rfl⟩ := Tx.yields_pure.mp h
    obtain ⟨taskRuns, rfl, hrows⟩ := changeRuns_ok hchange
    obtain rfl : some run.id = id := by simpa [Database.toTaskRunRecord] using hid
    have hpending : run.status = .pending := not_not.mp hstatus
    refine ⟨{ run with status := .running, startedAt := some instant }, ?_,
      hasks.of_same ⟨rfl, rfl, rfl, rfl, rfl, rfl, rfl, rfl, rfl⟩, by simp, rfl, rfl⟩
    rw [hrows]
    exact List.mem_map.mpr ⟨run, hmem, by simp [hpending]⟩

/-- The run that a scheduled start asks for. -/
structure AsksForSlot (pg : Postgres) (request : StartTaskRunRequest) (run : TaskRunRow) :
    Prop where
  key : ∃ received, pg.textParam request.executionKey = .ok received ∧
    run.executionKey = some received
  node : pg.textParam request.nodeCode = .ok run.nodeCode
  task : pg.idParam request.taskId = .ok (some run.taskId)
  slot : pg.utcColumn run.scheduledFor = request.scheduledFor

/-- A run that keeps its fixed columns is asked for as before. -/
theorem AsksForSlot.of_same {request : StartTaskRunRequest} {run later : TaskRunRow}
    (h : AsksForSlot pg request run) (same : SameRun run later) :
    AsksForSlot pg request later where
  key := by rw [same.executionKey]; exact h.key
  node := by rw [same.nodeCode]; exact h.node
  task := by rw [same.taskId]; exact h.task
  slot := by rw [same.scheduledFor]; exact h.slot

/-- The enabled task of the node that a scheduled start names. -/
structure SlotTask (pg : Postgres) (request : StartTaskRunRequest) (db : Database)
    (task : TaskRow) : Prop where
  named : pg.idParam request.taskId = .ok (some task.id)
  stored : task ∈ db.tasks.rows
  enabled : task.enabled = true
  node : task.nodeCode = request.nodeCode

/-- The task read by its identifier is stored under it. -/
theorem selectTask_ok {taskId : Bytes} {record : TaskRecord}
    (h : db.selectTask pg taskId = .ok (some record)) :
    ∃ task ∈ db.tasks.rows, pg.idParam taskId = .ok (some task.id) ∧
      record.nodeCode = task.nodeCode ∧ record.enabled = task.enabled := by
  simp only [Database.selectTask, Answer.bind_eq_ok, Answer.pure_eq_ok, Except.ok.injEq] at h
  obtain ⟨id, hid, h⟩ := h
  obtain ⟨task, hfind, rfl⟩ := Option.map_eq_some_iff.mp h
  obtain ⟨rfl, hmem⟩ := find_of_param hfind
  exact ⟨task, hmem, hid, rfl, rfl⟩

/-- A time in the form the checks accept is read back as it was sent. -/
theorem utcColumn_of_timeParam {value : Bytes} {instant : Timestamp}
    (hform : isRfc3339Utc value = true) (h : pg.timeParam value = .ok instant) :
    pg.utcColumn (some instant) = value := by
  obtain ⟨same, hsame, htext⟩ := pg.timestamptz_rfc3339 hform
  simp only [Postgres.timeParam, Postgres.textParam,
    pg.receive_ascii (ascii_of_isRfc3339Utc hform), accepted_some, Answer.ok_bind, hsame,
    Except.ok.injEq] at h
  rw [← h]
  exact htext

/-- The checks of a start that carries a key or a slot. -/
theorem checkScheduled_eq_none {request : StartTaskRunRequest} :
    checkScheduled request = none ↔
      request.executionKey ≠ [] ∧ request.executionKey.length ≤ 128 ∧
        request.triggerType = text "scheduled" ∧ isRfc3339Utc request.scheduledFor = true ∧
        isRfc3339Utc request.startedAt = true := by
  simp [checkScheduled, ite_eq_iff]

/-- The insert of a scheduled start creates the run it asks for or changes nothing. -/
theorem insertScheduledRun_ok {request : StartTaskRunRequest} {answer : Option Bytes}
    (hlength : request.executionKey.length ≤ 128)
    (hslot : isRfc3339Utc request.scheduledFor = true)
    (h : db.insertScheduledRun pg (scheduledRecord request) = .ok (answer, db')) :
    (answer = none ∧ db' = db) ∨
      ∃ run, answer = some (decimal (run : TaskRunRow).id) ∧ AsksForSlot pg request run ∧
        run.status = .running ∧ db'.taskRuns.rows = db.taskRuns.rows ++ [run] ∧
        ∀ other ∈ db.taskRuns.rows, other.clash run = false := by
  simp only [Database.insertScheduledRun, Answer.bind_eq_ok] at h
  obtain ⟨id, hid, node, hnode, startedAt, -, summary, -, trigger, -, key, hkey, slot, hslotTime,
    h⟩ := h
  split at h
  · cases h
    exact .inl ⟨rfl, rfl⟩
  · rename_i task htask
    obtain ⟨rfl, hmem, rfl⟩ := ownTask_eq_some htask
    rcases storeRun_ok h with ⟨rfl, rfl⟩ | ⟨stored, taskRuns, rfl, rfl, hrows, hfresh⟩
    · exact .inl ⟨rfl, rfl⟩
    · have hreceived : pg.textParam request.executionKey = .ok key :=
        ReceiptRepository.textParam_of_varcharParam hlength hkey
      refine .inr ⟨_, ?_, ?_, ?_, hrows, hfresh⟩
      · rfl
      · exact ⟨⟨key, hreceived, rfl⟩, hnode, hid, utcColumn_of_timeParam hslot hslotTime⟩
      · rfl

/-- How a scheduled start with a key or a slot ends with a result. -/
inductive ScheduledStart (pg : Postgres) (request : StartTaskRunRequest) (db : Database)
    (run : TaskRunRow) (db' : Database) : Prop
  | created (running : run.status = .running)
      (rows : db'.taskRuns.rows = db.taskRuns.rows ++ [run])
      (fresh : ∀ other ∈ db.taskRuns.rows, other.clash run = false)
  | found (unchanged : db' = db) (stored : run ∈ db.taskRuns.rows)
      (sameTask : decimal run.taskId = request.taskId)

/-- A scheduled start with a key or a slot names the run it asks for and answers that it is
running. -/
theorem startScheduled_yields {request : StartTaskRunRequest} {result : TaskRunCreateResult}
    (hkeyed : isScheduledStart request = true)
    (h : Tx.Yields pg session (startScheduled request) db result db') :
    checkScheduled request = none ∧ (∃ task, SlotTask pg request db task) ∧
      ∃ run, AsksForSlot pg request run ∧ ScheduledStart pg request db run db' ∧
        result.id = decimal run.id ∧ result.runStatus = text "running" := by
  simp only [startScheduled, hkeyed, if_true, Bool.not_true, Bool.false_eq_true, if_false] at h
  split at h
  · simp at h
  rename_i hcheck
  obtain ⟨-, hlength, -, hslot, -⟩ := checkScheduled_eq_none.mp hcheck
  simp only [Tx.yields_sql_bind, Statement.exec, Statement.reading_eq_ok] at h
  obtain ⟨answer, mid, ⟨hselect, rfl⟩, h⟩ := h
  cases answer with
  | none => simp at h
  | some record =>
    obtain ⟨task, htask, hid, hrecordNode, hrecordEnabled⟩ := selectTask_ok hselect
    simp only [Tx.yields_unless_refuse, Tx.yields_bind] at h
    obtain ⟨henabled, hnode, started, mid, hstarted, h⟩ := h
    have hslotTask : SlotTask pg request db task :=
      ⟨hid, htask, by simpa [← hrecordEnabled] using henabled,
        hrecordNode.symm.trans (not_not.mp hnode)⟩
    refine ⟨hcheck, ⟨task, hslotTask⟩, ?_⟩
    obtain ⟨hsame, rfl, rfl⟩ := h
    simp only [createOrFindScheduled, Tx.yields_sql_bind, Statement.exec] at hstarted
    obtain ⟨answer, mid, hinsert, hstarted⟩ := hstarted
    rcases insertScheduledRun_ok hlength hslot hinsert with
      ⟨rfl, rfl⟩ | ⟨run, rfl, hasks, hrunning, hrows, hfresh⟩
    · simp only [Tx.yields_sql_bind, Statement.exec, Statement.reading_eq_ok] at hstarted
      obtain ⟨answer, mid, ⟨hselect, rfl⟩, hstarted⟩ := hstarted
      cases answer with
      | none => simp at hstarted
      | some existing =>
        obtain ⟨received, run, hreceived, hmem, hrunNode, hrunKey, rfl⟩ :=
          selectRunByNodeKey_ok hselect
        obtain ⟨rfl, rfl⟩ := Tx.yields_pure.mp hstarted
        simp only [true_and, not_or, not_not] at hsame
        obtain ⟨hsameTask, hsameSlot⟩ := hsame
        refine ⟨run, ⟨⟨received, hreceived, hrunKey⟩, hrunNode, ?_, hsameSlot⟩,
          .found rfl hmem hsameTask, rfl, rfl⟩
        rw [← hsameTask]
        exact pg.idParam_decimal run.taskId
    · obtain ⟨rfl, rfl⟩ := Tx.yields_pure.mp hstarted
      exact ⟨run, hasks, .created hrunning hrows hfresh, rfl, rfl⟩

end TaskRunService

end LabBridge.Server
