import LabBridge.Server.TruthfulStart
import LabBridge.Server.Reference

/-!
# Sending a start again

An accepted start is sent again unchanged after any later steps. A manual start is answered
from its run unless another node has a run under the same execution key. A scheduled start
is answered from its run only while its task is enabled, and only when it carried a key and
named the task by its plain numeral.
-/

namespace LabBridge.Server

open ByteText LabBridge.Core Storage

namespace TaskRunService

open TaskRunRepository

variable {R : Runtime} {pg : Postgres} {session : Session} {db db' : Database}
  {request : StartTaskRunRequest}

/-- Every undisturbed repetition is answered with the run and creates none. -/
def Replays (R : Runtime) (request : StartTaskRunRequest) (id : Bytes) (db : Database) : Prop :=
  ∀ session : Session, session.fault = none → ∃ result later,
    (start request).execute R.postgres session db = (.ok result, later) ∧ result.id = id ∧
      later.taskRuns.rows.map TaskRunRow.id = db.taskRuns.rows.map TaskRunRow.id

/-- No other node has a run under the key of a manual start; a scheduled start has a key or a
slot and names an enabled task by its numeral. -/
def CanReplay (pg : Postgres) (request : StartTaskRunRequest) (db : Database) : Prop :=
  if isManualStart request = true then
    ∀ run ∈ db.taskRuns.rows, ∀ received, pg.textParam request.executionKey = .ok received →
      run.executionKey = some received → run.nodeCode = request.nodeCode
  else
    isScheduledStart request = true ∧
      ∃ task ∈ db.tasks.rows, request.taskId = decimal task.id ∧ task.enabled = true

/-- A start that passes the first checks runs its branch. -/
theorem start_eq {result : TaskRunCreateResult}
    (h : Tx.Yields pg session (start request) db result db') :
    start request =
      if isManualStart request then startManual request else startScheduled request := by
  rw [start, Tx.yields_unless_refuse, Tx.yields_unless_refuse] at h
  rw [start, if_neg h.1, if_neg h.2.1]

/-- A read without order that can only find one row finds it. -/
theorem pick_eq {rows : List TaskRunRow} {run : TaskRunRow} (hrun : run ∈ rows)
    (unique : ∀ other ∈ rows, other = run) : session.pick rows = some run := by
  obtain ⟨kept, hkept⟩ := Option.isSome_iff_exists.mp
    (session.pick_isSome (List.ne_nil_of_mem hrun))
  rw [hkept, unique kept (session.pick_mem hkept)]

/-- A manual start is answered from its run when no other run has its key. -/
theorem startManual_replay (hvalid : ValidManual request) {run : TaskRunRow}
    (hrun : run ∈ db.taskRuns.rows) (hasks : AsksFor pg request run)
    (hstatus : run.status ≠ .pending)
    (unique : ∀ other ∈ db.taskRuns.rows, other.executionKey = run.executionKey → other = run) :
    Tx.Yields pg session (startManual request) db
      (replayResult (Database.toTaskRunRecord pg run)) db := by
  obtain ⟨received, hreceived, hkey⟩ := hasks.key
  have hpick : session.pick (db.runsByKey received) = some run := by
    refine pick_eq (List.mem_filter.mpr ⟨hrun, by simpa using hkey⟩) fun other hother => ?_
    obtain ⟨hmem, hmatch⟩ := List.mem_filter.mp hother
    exact unique other hmem ((beq_iff_eq.mp hmatch).trans hkey.symm)
  have hselect : db.selectRunByKey pg session request.executionKey =
      .ok (some (Database.toTaskRunRecord pg run)) := by
    simp [Database.selectRunByKey, hreceived, hpick]
  have hmatch : ¬((Database.toTaskRunRecord pg run).nodeCode ≠ request.nodeCode ∨
      (Database.toTaskRunRecord pg run).taskId ≠ request.taskId ∨
      (Database.toTaskRunRecord pg run).triggerType ≠ request.triggerType) := by
    simp [Database.toTaskRunRecord, hasks.node, hasks.task, hasks.trigger]
  simp only [startManual, Tx.yields_unless_refuse]
  refine ⟨hvalid.key, by simp [hvalid.slot], by simp [hvalid.startedAt], ?_⟩
  refine Tx.yields_sql_bind.mpr ⟨_, db, Statement.reading_eq_ok.mpr ⟨hselect, rfl⟩, ?_⟩
  rw [Tx.yields_unless_refuse, Tx.yields_ite]
  exact ⟨hmatch, .inl ⟨hstatus, Tx.yields_pure.mpr ⟨rfl, rfl⟩⟩⟩

/-- A key of a row that is stored under a serial key names no other row by another text. -/
theorem task_eq_of_numeral {task other : TaskRow} (htask : task ∈ db.tasks.rows)
    (hother : other ∈ db.tasks.rows) (hnamed : pg.idParam request.taskId = .ok (some task.id))
    (hnumeral : request.taskId = decimal other.id) : other = task := by
  rw [hnumeral, Postgres.idParam_decimal] at hnamed
  exact SerialTable.eq_of_key_eq hother htask (by simpa using hnamed)

/-- A stored task is read by its identifier. -/
theorem selectTask_of_mem {taskId : Bytes} {task : TaskRow}
    (hnamed : pg.idParam taskId = .ok (some task.id)) (hstored : task ∈ db.tasks.rows) :
    ∃ record, db.selectTask pg taskId = .ok (some record) ∧ record.nodeCode = task.nodeCode ∧
      record.enabled = task.enabled := by
  have hfind : (some task.id).bind db.tasks.find? = some task := SerialTable.find?_key hstored
  simp only [Database.selectTask, hnamed, Answer.ok_bind, hfind, Option.map_some]
  exact ⟨_, rfl, rfl, rfl⟩

/-- The time forms that the checks accept are accepted by the database. -/
theorem timeParam_isOk (pg : Postgres) {value : Bytes} (hform : isRfc3339Utc value = true) :
    ∃ instant, pg.timeParam value = .ok instant := by
  obtain ⟨instant, hinstant, -⟩ := pg.timestamptz_rfc3339 hform
  refine ⟨instant, ?_⟩
  simp [Postgres.timeParam, Postgres.textParam, pg.receive_ascii (ascii_of_isRfc3339Utc hform),
    hinstant]

/-- The insert of a scheduled start whose run exists stores nothing. -/
theorem insertScheduledRun_found (hcheck : checkScheduled request = none) {run : TaskRunRow}
    (hrun : run ∈ db.taskRuns.rows) (hasks : AsksForSlot pg request run) :
    db.insertScheduledRun pg (scheduledRecord request) = .ok (none, db) := by
  obtain ⟨-, hlength, htrigger, hslot, hstarted⟩ := checkScheduled_eq_none.mp hcheck
  obtain ⟨received, hreceived, hkey⟩ := hasks.key
  obtain ⟨startedAt, hstartedAt⟩ := timeParam_isOk pg hstarted
  obtain ⟨slot, hslotTime⟩ := timeParam_isOk pg hslot
  have hfits := ReceiptRepository.varcharParam_key hlength hreceived
  have hsummary : pg.textParam [] = .ok [] := pg.textParam_ascii (by simp)
  have htriggerFits : pg.varcharParam 32 (text "scheduled") = .ok (text "scheduled") :=
    pg.varcharParam_ascii (by decide +kernel) (by decide +kernel)
  have htriggerText : (scheduledRecord request).triggerType = text "scheduled" := by
    simp [scheduledRecord, htrigger]
  simp only [Database.insertScheduledRun, htriggerText]
  simp only [scheduledRecord, hasks.task, hasks.node, hstartedAt, hsummary, htriggerFits, hfits,
    hslotTime, Answer.ok_bind]
  split
  · rfl
  · rename_i task htask
    obtain ⟨-, -, hnode⟩ := ownTask_eq_some htask
    have hsome : db.hasExecutionKey task.nodeCode received = true :=
      List.any_eq_true.mpr ⟨run, hrun, by simp [hnode, hkey]⟩
    unfold Database.storeRun
    rw [SerialTable.insert_eq_duplicate.mpr ⟨run, hrun, by
      simp [TaskRunRow.clash, hnode, hkey]⟩]
    simp [hsome]

/-- A scheduled start is answered from its run while its task is enabled. -/
theorem startScheduled_replay (hkeyed : isScheduledStart request = true)
    (hcheck : checkScheduled request = none) {task : TaskRow}
    (htask : SlotTask pg request db task) {run : TaskRunRow} (hrun : run ∈ db.taskRuns.rows)
    (hasks : AsksForSlot pg request run) (hsameTask : decimal run.taskId = request.taskId) :
    Tx.Yields pg session (startScheduled request) db ⟨decimal run.id, true, text "running"⟩
      db := by
  obtain ⟨received, hreceived, hkey⟩ := hasks.key
  obtain ⟨record, hrecord, hnode, henabled⟩ := selectTask_of_mem htask.named htask.stored
  have hpick : session.pick (db.taskRuns.rows.filter fun other =>
      other.nodeCode == run.nodeCode && other.executionKey == some received) = some run := by
    refine pick_eq (List.mem_filter.mpr ⟨hrun, by simp [hkey]⟩) fun other hother => ?_
    obtain ⟨hmem, hmatch⟩ := List.mem_filter.mp hother
    simp only [Bool.and_eq_true, beq_iff_eq] at hmatch
    exact eq_of_executionKey hmem hrun hmatch.1 hmatch.2 hkey
  have hfound : Tx.Yields pg session (createOrFindScheduled (scheduledRecord request)) db
      ⟨Database.toTaskRunRecord pg run, false⟩ db := by
    refine Tx.yields_sql_bind.mpr ⟨none, db, insertScheduledRun_found hcheck hrun hasks, ?_⟩
    refine Tx.yields_sql_bind.mpr ⟨some (Database.toTaskRunRecord pg run), db,
      Statement.reading_eq_ok.mpr ⟨?_, rfl⟩, Tx.yields_pure.mpr ⟨rfl, rfl⟩⟩
    simp [Database.selectRunByNodeKey, scheduledRecord, hasks.node, hreceived, hpick]
  simp only [startScheduled, hkeyed, if_true, hcheck]
  refine Tx.yields_sql_bind.mpr ⟨some record, db, Statement.reading_eq_ok.mpr ⟨hrecord, rfl⟩, ?_⟩
  simp only [henabled, htask.enabled, hnode, htask.node, Bool.not_true, Bool.false_eq_true,
    if_false, ne_eq, not_true_eq_false]
  refine Tx.yields_bind.mpr ⟨_, db, hfound, ?_⟩
  rw [Tx.yields_unless_refuse]
  refine ⟨?_, Tx.yields_pure.mpr ⟨rfl, rfl⟩⟩
  simp [Database.toTaskRunRecord, hsameTask, hasks.slot]

/-- A scheduled start without key and slot always creates a run. -/
theorem startScheduled_unkeyed_yields {result : TaskRunCreateResult}
    (hunkeyed : isScheduledStart request = false)
    (h : Tx.Yields pg session (startScheduled request) db result db') :
    ∃ run, db'.taskRuns.rows = db.taskRuns.rows ++ [run] := by
  simp only [startScheduled, hunkeyed, Bool.false_eq_true, if_false, Tx.yields_sql_bind,
    Statement.exec, Statement.reading_eq_ok] at h
  obtain ⟨answer, mid, ⟨-, rfl⟩, h⟩ := h
  cases answer with
  | none => simp at h
  | some task =>
    simp only [Tx.yields_unless_refuse, Bool.not_false, if_true, create, Tx.yields_bind,
      Tx.yields_sql, Statement.exec] at h
    obtain ⟨-, -, id, mid, ⟨answer, mid', hinsert, hid⟩, h⟩ := h
    obtain ⟨-, rfl⟩ := Tx.yields_pure.mp h
    cases answer with
    | none => simp at hid
    | some id =>
      obtain ⟨-, rfl⟩ := Tx.yields_pure.mp hid
      simp only [Database.insertRun, Answer.bind_eq_ok] at hinsert
      obtain ⟨taskId, -, node, -, startedAt, -, summary, -, trigger, -, h⟩ := hinsert
      split at h
      · cases h
      · rcases storeRun_ok h with ⟨hnone, -⟩ | ⟨key, taskRuns, -, rfl, hrows, -⟩
        · cases hnone
        · exact ⟨_, hrows⟩

/-- The session in which a read without order prefers a given row. -/
def preferring (run : TaskRunRow) : Session where
  now := 0
  pick rows := if run ∈ rows then some run else rows.head?
  pick_mem := by
    intro rows kept h
    split at h
    · cases h
      assumption
    · exact List.mem_of_mem_head? h
  pick_isSome := by
    intro rows h
    split
    · rfl
    · exact List.isSome_head?.mpr h

/-- A manual start that finds the run of another node is refused. -/
theorem not_yields_of_other_node {result : TaskRunCreateResult} {run : TaskRunRow}
    {received : Bytes} (hreceived : pg.textParam request.executionKey = .ok received)
    (hpick : session.pick (db.runsByKey received) = some run)
    (hnode : run.nodeCode ≠ request.nodeCode) :
    ¬Tx.Yields pg session (startManual request) db result db' := by
  intro h
  simp only [startManual, Tx.yields_unless_refuse, Tx.yields_sql_bind, Statement.exec,
    Statement.reading_eq_ok, Database.selectRunByKey, hreceived, Answer.ok_bind, hpick,
    Option.map_some, Answer.pure_eq_ok, Except.ok.injEq] at h
  obtain ⟨-, -, -, answer, mid, ⟨rfl, rfl⟩, h⟩ := h
  rw [Tx.yields_unless_refuse] at h
  exact h.1 (.inl hnode)

/-- A repeated manual start is answered from its run exactly when no other node has a run
under its key. -/
theorem replays_manual_iff {run : TaskRunRow} {before : Database} {result : TaskRunCreateResult}
    {after : Database} (hmanual : isManualStart request = true)
    (hstart : Tx.Yields R.postgres session (start request) before result after)
    (hvalid : ValidManual request) (hrun : run ∈ db.taskRuns.rows)
    (hasks : AsksFor R.postgres request run) (hstatus : run.status ≠ .pending) :
    Replays R request (decimal run.id) db ↔ CanReplay R.postgres request db := by
  have hbranch : start request = startManual request := by rw [start_eq hstart, if_pos hmanual]
  obtain ⟨received, hreceived, hkey⟩ := hasks.key
  rw [CanReplay, if_pos hmanual]
  constructor
  · intro hreplays other hother key hkeyReceived hotherKey
    obtain rfl := Except.ok.inj (hreceived.symm.trans hkeyReceived)
    by_contra hnode
    obtain ⟨answer, later, hanswer, -, -⟩ := hreplays (preferring other) rfl
    have hyields := Tx.yields_of_execute_eq hanswer
    rw [hbranch] at hyields
    refine not_yields_of_other_node hreceived (if_pos ?_) hnode hyields
    exact List.mem_filter.mpr ⟨hother, by simpa using hotherKey⟩
  · intro hnodes session hfault
    rw [hbranch]
    refine ⟨replayResult (Database.toTaskRunRecord R.postgres run), db,
      Tx.execute_of_yields hfault (startManual_replay hvalid hrun hasks hstatus
        fun other hother hotherKey => ?_), rfl, rfl⟩
    rw [hkey] at hotherKey
    exact eq_of_executionKey hother hrun
      ((hnodes other hother received hreceived hotherKey).trans hasks.node.symm) hotherKey hkey

/-- Adding a run changes the list of identifiers. -/
theorem ids_ne_of_append {run : TaskRunRow} (h : db'.taskRuns.rows = db.taskRuns.rows ++ [run]) :
    db'.taskRuns.rows.map TaskRunRow.id ≠ db.taskRuns.rows.map TaskRunRow.id := by
  intro hids
  have hlength := congrArg List.length hids
  simp [h] at hlength

/-- A repeated scheduled start is answered from its run exactly when it has a key or a slot
and names an enabled task by its numeral. -/
theorem replays_scheduled_iff {run : TaskRunRow} {before : Database}
    {result : TaskRunCreateResult} {after : Database}
    (hscheduled : isManualStart request = false)
    (hstart : Tx.Yields R.postgres session (start request) before result after)
    (hkeyed : isScheduledStart request = true) (hcheck : checkScheduled request = none)
    {task : TaskRow} (htask : task ∈ db.tasks.rows)
    (hnamed : R.postgres.idParam request.taskId = .ok (some task.id))
    (hnode : task.nodeCode = request.nodeCode) (hrun : run ∈ db.taskRuns.rows)
    (hasks : AsksForSlot R.postgres request run) :
    Replays R request (decimal run.id) db ↔ CanReplay R.postgres request db := by
  have hbranch : start request = startScheduled request := by
    rw [start_eq hstart, if_neg (by simp [hscheduled])]
  rw [CanReplay, if_neg (by simp [hscheduled])]
  constructor
  · intro hreplays
    refine ⟨hkeyed, ?_⟩
    obtain ⟨answer, later, hanswer, -, hids⟩ := hreplays (.first 0) rfl
    have hyields := Tx.yields_of_execute_eq hanswer
    rw [hbranch] at hyields
    obtain ⟨-, ⟨slot, hslot⟩, found, hfound, hstarted, -, -⟩ :=
      startScheduled_yields hkeyed hyields
    cases hstarted with
    | created _ hrows _ => exact absurd hids (ids_ne_of_append hrows)
    | found _ _ hsameTask =>
      refine ⟨slot, hslot.stored, ?_, hslot.enabled⟩
      have hid : some found.taskId = some slot.id :=
        Except.ok.inj (hfound.task.symm.trans hslot.named)
      rw [← hsameTask, Option.some.inj hid]
  · rintro ⟨-, other, hother, hnumeral, henabled⟩ session hfault
    obtain rfl := task_eq_of_numeral htask hother hnamed hnumeral
    have hsameTask : decimal run.taskId = request.taskId := by
      have hid : some run.taskId = some other.id :=
        Except.ok.inj (hasks.task.symm.trans hnamed)
      rw [hnumeral, Option.some.inj hid]
    rw [hbranch]
    exact ⟨⟨decimal run.id, true, text "running"⟩, db,
      Tx.execute_of_yields hfault (startScheduled_replay hkeyed hcheck
        ⟨hnamed, hother, henabled, hnode⟩ hrun hasks hsameTask), rfl, rfl⟩

/-- A start without key and slot never replays: it creates a run each time. -/
theorem not_replays_unkeyed {before : Database} {result : TaskRunCreateResult}
    {after : Database} {id : Bytes} (hscheduled : isManualStart request = false)
    (hstart : Tx.Yields R.postgres session (start request) before result after)
    (hunkeyed : isScheduledStart request = false) : ¬Replays R request id db := by
  intro hreplays
  obtain ⟨answer, later, hanswer, -, hids⟩ := hreplays (.first 0) rfl
  have hyields := Tx.yields_of_execute_eq hanswer
  rw [start_eq hstart, if_neg (by simp [hscheduled])] at hyields
  obtain ⟨run, hrows⟩ := startScheduled_unkeyed_yields hunkeyed hyields
  exact ids_ne_of_append hrows hids

/-- After any steps, an accepted start is answered again with its run, without a new run,
exactly when the repetition can replay: no other node has a run under the key of a manual
start, or a scheduled start has a key or a slot and names an enabled task by its numeral. -/
theorem start_replay_iff (R : Runtime) {request : StartTaskRunRequest} {session : Session}
    {db accepted later : Database} {result : TaskRunCreateResult}
    (h : (start request).execute R.postgres session db = (.ok result, accepted))
    (steps : Steps R anyCall accepted later) :
    Replays R request result.id later ↔ CanReplay R.postgres request later := by
  have hstart := Tx.yields_of_execute_eq h
  rcases start_yields hstart with ⟨hmanual, hbranch⟩ | ⟨hscheduled, hbranch⟩
  · obtain ⟨hvalid, run, hrun, hasks, hstatus, hnames⟩ := startManual_yields hbranch
    obtain ⟨kept, hkept, same, hpending⟩ := steps.exists_same hrun
    rw [hnames.id, ← same.id]
    exact replays_manual_iff hmanual hstart hvalid hkept (hasks.of_same same) (hstatus ∘ hpending)
  · cases hkeyed : isScheduledStart request with
    | false =>
      refine iff_of_false (not_replays_unkeyed hscheduled hstart hkeyed) ?_
      simp [CanReplay, hscheduled, hkeyed]
    | true =>
      obtain ⟨hcheck, ⟨task, htask⟩, run, hasks, hstarted, hid, -⟩ :=
        startScheduled_yields hkeyed hbranch
      have hrun : run ∈ accepted.taskRuns.rows := by
        cases hstarted with
        | created _ hrows _ => rw [hrows]; simp
        | found hunchanged hstored _ => exact hunchanged ▸ hstored
      have htaskAfter : ∃ moved ∈ accepted.tasks.rows, SameTask task moved := by
        have progress := TaskRunService.starts_of_yields (R := R) (start_starting request) hstart
        exact ⟨task, by rw [progress.tasks]; exact htask.stored, .refl task⟩
      obtain ⟨moved, hmoved, sameTask⟩ := htaskAfter
      obtain ⟨kept, hkept, same, -⟩ := steps.exists_same hrun
      obtain ⟨last, hlast, sameLast⟩ := steps.exists_same_task hmoved
      have hsame := sameTask.trans sameLast
      rw [hid, ← same.id]
      refine replays_scheduled_iff hscheduled hstart hkeyed hcheck hlast ?_
        (hsame.nodeCode.trans htask.node) hkept (hasks.of_same same)
      rw [hsame.id]
      exact htask.named

/-- The first start on the site is answered again after its manifest, while its task is enabled. -/
theorem start_replay_site :
    Steps Reference.runtime anyCall (Reference.after [.start Reference.scheduledStart])
        (Reference.after Reference.startedCalls) ∧
      Replays Reference.runtime Reference.scheduledStart (text "1")
        (Reference.after Reference.startedCalls) := by
  have hcan : CanReplay Reference.runtime.postgres Reference.scheduledStart
      (Reference.after Reference.startedCalls) := by
    rw [CanReplay, if_neg (by decide)]
    exact ⟨by decide, by decide +kernel⟩
  have hstart : (start Reference.scheduledStart).execute Reference.postgres
      (.first Reference.now) Reference.site =
        (.ok ⟨text "1", false, text "running"⟩,
          Reference.after [.start Reference.scheduledStart]) :=
    Prod.ext (by decide +kernel) rfl
  have hsteps : Steps Reference.runtime anyCall
      (Reference.after [.start Reference.scheduledStart])
      (Reference.after Reference.startedCalls) :=
    .single (.serve (.manifest (Reference.manifest "files-1")) _ trivial)
  exact ⟨hsteps, (start_replay_iff Reference.runtime hstart hsteps).mpr hcan⟩

/-- A scheduled start that was accepted is refused once its task is disabled. -/
theorem not_start_replay :
    (Call.start Reference.scheduledStart).serve Reference.runtime (.first Reference.now)
        Reference.site =
      (.ok (.start ⟨text "1", false, text "running"⟩),
        Reference.after [.start Reference.scheduledStart]) ∧
    Steps Reference.runtime anyCall (Reference.after [.start Reference.scheduledStart])
      (Reference.after [.start Reference.scheduledStart, .setEnabled (text "1") false]) ∧
    ((start Reference.scheduledStart).execute Reference.postgres (.first Reference.now)
        (Reference.after [.start Reference.scheduledStart, .setEnabled (text "1") false])).1 =
      .error (.refused (.conflict (text "task is disabled"))) :=
  ⟨Reference.start_site, .single (.serve (.setEnabled (text "1") false) _ trivial),
    by decide +kernel⟩

end TaskRunService

end LabBridge.Server
