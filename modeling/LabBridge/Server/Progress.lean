import LabBridge.Server.System

/-!
# What every step keeps

Whatever is served, nodes and tasks stay, every run keeps its identity and moves forward,
and committed receipts stay as they are. The invariants of reachable states follow.
-/

namespace LabBridge.Server

open ByteText LabBridge.Core Storage Interaction

variable {R : Runtime} {session : Session} {db db' : Database}
  {reported : TaskRunStatus → Prop}

/-- The moves of a run in one step; `reported` says in which states a report may end it. -/
inductive RunMove (reported : TaskRunStatus → Prop) (before after : TaskRunRow) : Prop
  | stay (unchanged : after = before)
  | start (pending : before.status = .pending) (running : after.status = .running)
      (same : SameRun before after)
  | disable (pending : before.status = .pending) (failed : after.status = .failed)
      (same : SameRun before after)
  | finish (isOpen : before.status.isTerminal = false) (allowed : reported before.status)
      (ended : after.status.isTerminal = true) (same : SameRun before after)

/-- A move keeps the fixed columns. -/
theorem RunMove.same {before after : TaskRunRow} (h : RunMove reported before after) :
    SameRun before after := by
  cases h with
  | stay unchanged => exact unchanged ▸ .refl _
  | start _ _ same => exact same
  | disable _ _ same => exact same
  | finish _ _ _ same => exact same

/-- A run that has ended moves no more. -/
theorem RunMove.eq_of_isTerminal {before after : TaskRunRow} (h : RunMove reported before after)
    (hterminal : before.status.isTerminal = true) : after = before := by
  cases h with
  | stay unchanged => exact unchanged
  | start pending => simp [pending, TaskRunStatus.isTerminal] at hterminal
  | disable pending => simp [pending, TaskRunStatus.isTerminal] at hterminal
  | finish isOpen => simp [isOpen] at hterminal

/-- A committed receipt: complete, and of a run of its node. -/
structure SettledReceipt (taskRuns : List TaskRunRow) (receipt : ReceiptRow) : Prop where
  complete : receipt.response.isSome = true
  owner : ∃ run ∈ taskRuns, run.id = receipt.taskRunId ∧ run.nodeCode = receipt.nodeCode

/-- A task belongs to a registered node. -/
def OfNode (nodes : List NodeRow) (task : TaskRow) : Prop :=
  ∃ node ∈ nodes, node.nodeCode = task.nodeCode

/-- What a step does to nodes, tasks, runs and receipts. -/
structure Progress (pg : Postgres) (reported : TaskRunStatus → Prop) (before after : Database) :
    Prop where
  codes : ∀ node ∈ after.nodes.rows,
    node ∈ before.nodes.rows ∨ pg.receive node.nodeCode = some node.nodeCode
  nodes : ∀ node ∈ before.nodes.rows, ∃ same ∈ after.nodes.rows, same.nodeCode = node.nodeCode
  tasks : Evolves SameTask (OfNode after.nodes.rows) before.tasks.rows after.tasks.rows
  taskRuns : Evolves (RunMove reported) (NewRun after.tasks.rows) before.taskRuns.rows
    after.taskRuns.rows
  receipts : ∃ added, after.receipts.rows = before.receipts.rows ++ added ∧
    ∀ receipt ∈ added, SettledReceipt after.taskRuns.rows receipt

namespace Progress

/-- Unchanged nodes, tasks, runs and receipts are progress. -/
theorem of_rows_eq (hnodes : db'.nodes.rows = db.nodes.rows)
    (htasks : db'.tasks.rows = db.tasks.rows) (hruns : db'.taskRuns.rows = db.taskRuns.rows)
    (hreceipts : db'.receipts.rows = db.receipts.rows) : Progress R.postgres reported db db' := by
  refine ⟨?_, ?_, ?_, ?_, [], by simpa using hreceipts, by simp⟩
  · rw [hnodes]
    exact fun _ => .inl
  · rw [hnodes]
    exact fun node hnode => ⟨node, hnode, rfl⟩
  · rw [htasks]
    exact .refl .refl _
  · rw [hruns]
    exact .refl (fun _ => .stay rfl) _

/-- Unchanged tables are progress. -/
theorem of_contents_eq (h : db'.contents = db.contents) : Progress R.postgres reported db db' :=
  of_rows_eq (congrArg Contents.nodes h) (congrArg Contents.tasks h)
    (congrArg Contents.taskRuns h) (congrArg Contents.receipts h)

/-- Configuration is progress. -/
theorem of_configures (h : Configures R.postgres db db') : Progress R.postgres reported db db' := by
  refine ⟨fun node hnode => .inr (h.codes node hnode), h.nodes, ?_, ?_, [],
    by simp [h.receipts], by simp⟩
  · obtain ⟨added, hrows, hadded⟩ := h.tasks
    rw [hrows]
    exact .of_append .refl hadded
  · rw [h.taskRuns]
    exact .refl (fun _ => .stay rfl) _

/-- Starting runs is progress. -/
theorem of_starts (h : Starts db db') : Progress R.postgres reported db db' := by
  refine ⟨?_, ?_, ?_, ?_, [], by simp [h.elsewhere.receipts], by simp⟩
  · rw [h.elsewhere.nodes]
    exact fun _ => .inl
  · rw [h.elsewhere.nodes]
    exact fun node hnode => ⟨node, hnode, rfl⟩
  · rw [h.tasks]
    exact .refl .refl _
  · rw [h.tasks]
    refine h.taskRuns.mono (fun run _ moved move => ?_) id
    cases move with
    | stay unchanged => exact .stay unchanged
    | start pending running same => exact .start pending running same

/-- Switching a task is progress. -/
theorem of_switches (h : Switches db db') : Progress R.postgres reported db db' := by
  refine ⟨?_, ?_, h.tasks.mono (fun _ _ _ => id) False.elim, ?_, [],
    by simp [h.elsewhere.receipts], by simp⟩
  · rw [h.elsewhere.nodes]
    exact fun _ => .inl
  · rw [h.elsewhere.nodes]
    exact fun node hnode => ⟨node, hnode, rfl⟩
  · refine h.taskRuns.mono (fun run _ moved move => ?_) False.elim
    cases move with
    | stay unchanged => exact .stay unchanged
    | disable pending failed same => exact .disable pending failed same

/-- An accepted request is progress when the runs moved. -/
theorem of_accepted {claim : AgentReportReceiptClaim} {run : RowId}
    {response : AgentReportReceiptResponse}
    (h : Accepted R.postgres claim run response db db')
    (hruns : Evolves (RunMove reported) (NewRun db'.tasks.rows) db.taskRuns.rows
      db'.taskRuns.rows) :
    Progress R.postgres reported db db' := by
  obtain ⟨receipt, hreceipt, -, hrows⟩ := h.receipt
  refine ⟨?_, ?_, ?_, hruns, [receipt], hrows, fun row hrow => ?_⟩
  · rw [show db'.nodes = db.nodes from h.evidence.nodes]
    exact fun _ => .inl
  · rw [show db'.nodes = db.nodes from h.evidence.nodes]
    exact fun node hnode => ⟨node, hnode, rfl⟩
  · rw [show db'.tasks = db.tasks from h.evidence.tasks]
    exact .refl .refl _
  · rw [List.mem_singleton.mp hrow]
    obtain ⟨owner, howner, hid, hnode⟩ := hreceipt.owner
    obtain ⟨moved, hmoved, move⟩ := hruns.exists_moved howner
    exact ⟨hreceipt.answers.2, moved, hmoved, move.same.id.trans hid,
      move.same.nodeCode.trans hnode⟩

end Progress

/-- An alert that at most was acknowledged or closed. -/
structure SameAlert (before after : AlertRow) : Prop where
  id : after.id = before.id
  taskRunId : after.taskRunId = before.taskRunId

/-- The update of a disposition changes alerts in place and nothing else. -/
theorem updateAlert_ok {pg : Postgres} {alertId : Bytes} {acknowledge answer : Bool}
    (h : db.updateAlert pg session alertId acknowledge = .ok (answer, db')) :
    ∃ alerts, db' = { db with alerts := alerts } ∧
      Evolves SameAlert (fun _ => False) db.alerts.rows alerts.rows := by
  simp only [Database.updateAlert, Answer.bind_eq_ok, accepted_eq_ok] at h
  obtain ⟨id, -, alerts, hupdate, h⟩ := h
  cases h
  refine ⟨alerts, rfl, ?_⟩
  rw [(SerialTable.update_eq_some hupdate).1]
  refine .of_selected (fun _ => ⟨rfl, rfl⟩) fun alert _ _ => ?_
  cases acknowledge <;> exact ⟨rfl, rfl⟩

/-- Disposing of an alert changes alerts in place and nothing else. -/
theorem disposeAlert_yields {alertId : Bytes} {acknowledge : Bool} {result : AlertRecord}
    (h : Tx.Yields R.postgres session (AlertService.disposeAlert alertId acknowledge) db result
      db') :
    ∃ alerts, db' = { db with alerts := alerts } ∧
      Evolves SameAlert (fun _ => False) db.alerts.rows alerts.rows := by
  simp only [AlertService.disposeAlert, Tx.yields_unless_refuse, Tx.yields_sql_bind,
    Statement.exec, Statement.reading_eq_ok] at h
  obtain ⟨-, answer, mid, ⟨-, rfl⟩, h⟩ := h
  cases answer with
  | none => simp at h
  | some alert =>
    rw [Tx.yields_unless_refuse, Tx.yields_ite] at h
    obtain ⟨-, ⟨-, h⟩ | ⟨-, h⟩⟩ := h
    · obtain ⟨-, rfl⟩ := Tx.yields_pure.mp h
      exact ⟨db.alerts, rfl, .refl (fun _ => ⟨rfl, rfl⟩) _⟩
    · simp only [Tx.yields_sql_bind, Tx.yields_unless_raise, Statement.exec,
        Statement.reading_eq_ok] at h
      obtain ⟨updated, mid, hupdate, -, reread, mid', ⟨-, rfl⟩, h⟩ := h
      cases reread with
      | none => simp at h
      | some reread =>
        obtain ⟨-, rfl⟩ := Tx.yields_pure.mp h
        exact updateAlert_ok hupdate

/-- A call either left every row as it was or ended with a result that was committed. -/
theorem Call.serve_cases (call : Call) (session : Session) (db : Database) :
    (call.serve R session db).2.contents = db.contents ∨
      ∃ reply, (call.serve R session db).1 = .ok reply ∧
        Tx.Yields R.postgres session (call.transaction R) db reply
          (call.serve R session db).2 := by
  unfold serve
  rcases h : (Tx.execute (call.transaction R) R.postgres session db).1 with stop | reply
  · exact .inl (Tx.contents_of_execute_error h)
  · exact .inr ⟨reply, rfl, Tx.yields_of_execute h⟩

/-- The runs move when one of them is finished. -/
theorem evolves_of_finish {moves : TaskRunRow → TaskRunRow → Prop} {fresh : TaskRunRow → Prop}
    (stay : ∀ run, moves run run) {run : TaskRunRow} (hmem : run ∈ db.taskRuns.rows)
    {change : TaskRunRow → TaskRunRow} (hmove : moves run (change run))
    (hrows : db'.taskRuns.rows = db.taskRuns.rows.map fun other =>
      if some other.id == some run.id then change other else other) :
    Evolves moves fresh db.taskRuns.rows db'.taskRuns.rows := by
  rw [hrows]
  refine .of_selected stay fun other hother hselected => ?_
  obtain rfl := SerialTable.eq_of_key_eq hother hmem (by simpa using hselected)
  exact hmove

/-- Whether a call reports only on runs in the given states. -/
def Call.Reports (R : Runtime) (reported : TaskRunStatus → Prop) (db : Database) : Call → Prop
  | .report request => ∀ run, OwnRun R.postgres request.taskRunId request.nodeCode run db →
      reported run.status
  | _ => True

/-- A served call is progress. -/
theorem Call.serve_progress {call : Call} (hreports : call.Reports R reported db)
    (session : Session) : Progress R.postgres reported db (call.serve R session db).2 := by
  rcases call.serve_cases session db with h | ⟨reply, -, h⟩
  · exact .of_contents_eq h
  · revert h
    generalize (call.serve R session db).2 = db'
    intro h
    cases call <;> simp only [transaction, Tx.yields_bind, Tx.yields_pure] at h <;>
      obtain ⟨result, db', h, -, rfl⟩ := h
    case start request =>
      exact .of_starts (TaskRunService.starts_of_yields
        (TaskRunService.start_starting request) h)
    case trigger taskId key =>
      exact .of_starts (TaskRunService.starts_of_yields
        (TaskRunService.applyManualRun_starting _ _ _ _ _) h)
    case retry taskRunId key =>
      exact .of_starts (TaskRunService.starts_of_yields
        (TaskRunService.requestRetryRun_starting _ _) h)
    case setEnabled taskId enabled => exact .of_switches (setTaskEnabled_yields h)
    case disposeAlert alertId acknowledge =>
      obtain ⟨alerts, rfl, -⟩ := disposeAlert_yields h
      exact .of_rows_eq rfl rfl rfl rfl
    case manifest request =>
      obtain ⟨run, response, -, ⟨-, rfl, -⟩ | ⟨-, hruns, -, haccepted⟩⟩ :=
        AgentReportService.acceptRawFileManifest_yields h
      · exact .of_contents_eq rfl
      · refine .of_accepted haccepted ?_
        rw [hruns]
        exact .refl (fun _ => .stay rfl) _
    case report request =>
      obtain ⟨hterminal, run, response, hrun, ⟨-, rfl, -⟩ |
        ⟨-, hopen, ⟨change, hchange, hruns⟩, haccepted⟩⟩ :=
        AgentReportService.acceptTaskRunReport_yields h
      · exact .of_contents_eq rfl
      · refine .of_accepted haccepted (evolves_of_finish (fun _ => .stay rfl) hrun.stored ?_ hruns)
        exact .finish hopen (hreports run hrun) (by rw [(hchange run).status]; exact hterminal)
          (hchange run).toSameRun

/-- A permitted step is progress. -/
theorem Step.progress {permitted : Call → Database → Prop} (h : Step R permitted db db')
    (hreports : ∀ call, permitted call db → call.Reports R reported db) :
    Progress R.postgres reported db db' := by
  cases h with
  | serve call session allowed => exact Call.serve_progress (hreports call allowed) session
  | configure configures => exact .of_configures configures

/-- Every call reports on runs in some state. -/
theorem Call.reports_any (call : Call) : call.Reports R (fun _ => True) db := by
  cases call with
  | report request => exact fun _ _ => trivial
  | _ => trivial

/-- What holds between the tables of every reachable state. -/
structure Sound (pg : Postgres) (db : Database) : Prop where
  codes : ∀ node ∈ db.nodes.rows, pg.receive node.nodeCode = some node.nodeCode
  taskNodes : ∀ task ∈ db.tasks.rows, OfNode db.nodes.rows task
  runTasks : ∀ run ∈ db.taskRuns.rows,
    ∃ task ∈ db.tasks.rows, task.id = run.taskId ∧ task.nodeCode = run.nodeCode
  receipts : ∀ receipt ∈ db.receipts.rows, SettledReceipt db.taskRuns.rows receipt

/-- The fresh schema is sound. -/
theorem sound_empty {pg : Postgres} : Sound pg .empty where
  codes := by simp [Database.empty]
  taskNodes := by simp [Database.empty]
  runTasks := by simp [Database.empty]
  receipts := by simp [Database.empty]

/-- Progress keeps the tables sound. -/
theorem Progress.sound (h : Progress R.postgres reported db db') (hsound : Sound R.postgres db) : Sound R.postgres db' where
  codes := fun node hnode => (h.codes node hnode).elim (hsound.codes node) id
  taskNodes := by
    intro task htask
    rcases h.tasks.origin htask with ⟨source, hsource, same⟩ | hfresh
    · obtain ⟨node, hnode, hcode⟩ := hsound.taskNodes source hsource
      obtain ⟨kept, hkept, hcode'⟩ := h.nodes node hnode
      exact ⟨kept, hkept, (hcode'.trans hcode).trans same.nodeCode.symm⟩
    · exact hfresh
  runTasks := by
    intro run hrun
    rcases h.taskRuns.origin hrun with ⟨source, hsource, move⟩ | hfresh
    · obtain ⟨task, htask, hid, hnode⟩ := hsound.runTasks source hsource
      obtain ⟨kept, hkept, same⟩ := h.tasks.exists_moved htask
      exact ⟨kept, hkept, (same.id.trans hid).trans move.same.taskId.symm,
        (same.nodeCode.trans hnode).trans move.same.nodeCode.symm⟩
    · exact hfresh.task
  receipts := by
    intro receipt hreceipt
    obtain ⟨added, hrows, hadded⟩ := h.receipts
    rw [hrows] at hreceipt
    rcases List.mem_append.mp hreceipt with hold | hnew
    · obtain ⟨hcomplete, run, hrun, hid, hnode⟩ := hsound.receipts receipt hold
      obtain ⟨moved, hmoved, move⟩ := h.taskRuns.exists_moved hrun
      exact ⟨hcomplete, moved, hmoved, move.same.id.trans hid, move.same.nodeCode.trans hnode⟩
    · exact hadded receipt hnew

/-- A run of steps keeps the tables sound. -/
theorem Steps.sound {permitted : Call → Database → Prop} (h : Steps R permitted db db')
    (hsound : Sound R.postgres db) : Sound R.postgres db' := by
  induction h with
  | refl => exact hsound
  | tail _ step ih => exact (step.progress fun call _ => call.reports_any).sound ih

/-- Every reachable state is sound. -/
theorem Reachable.sound (h : Reachable R db) : Sound R.postgres db := Steps.sound h sound_empty

/-- A run never waits again. -/
theorem RunMove.pending_of_pending {before after : TaskRunRow} (h : RunMove reported before after)
    (hpending : after.status = .pending) : before.status = .pending := by
  cases h with
  | stay unchanged => exact unchanged ▸ hpending
  | start _ running => simp [running] at hpending
  | disable pending => exact pending
  | finish _ _ ended => simp [hpending, TaskRunStatus.isTerminal] at ended

/-- A run of the tables is found again after any steps, with its fixed columns, and does not
wait again. -/
theorem Steps.exists_same {permitted : Call → Database → Prop} (h : Steps R permitted db db')
    {run : TaskRunRow} (hrun : run ∈ db.taskRuns.rows) :
    ∃ later ∈ db'.taskRuns.rows, SameRun run later ∧
      (later.status = .pending → run.status = .pending) := by
  induction h with
  | refl => exact ⟨run, hrun, .refl run, id⟩
  | tail _ step ih =>
    obtain ⟨later, hlater, same, hpending⟩ := ih
    obtain ⟨moved, hmoved, move⟩ :=
      (step.progress fun call _ => call.reports_any).taskRuns.exists_moved hlater
    exact ⟨moved, hmoved, same.trans move.same, hpending ∘ move.pending_of_pending⟩

/-- A committed receipt stays after any steps. -/
theorem Steps.mem_receipts {permitted : Call → Database → Prop} (h : Steps R permitted db db')
    {receipt : ReceiptRow} (hreceipt : receipt ∈ db.receipts.rows) :
    receipt ∈ db'.receipts.rows := by
  induction h with
  | refl => exact hreceipt
  | tail _ step ih =>
    obtain ⟨added, hrows, -⟩ := (step.progress fun call _ => call.reports_any).receipts
    rw [hrows]
    exact List.mem_append_left _ ih

/-- A task is found again after any steps. -/
theorem Steps.exists_same_task {permitted : Call → Database → Prop}
    (h : Steps R permitted db db') {task : TaskRow} (htask : task ∈ db.tasks.rows) :
    ∃ later ∈ db'.tasks.rows, SameTask task later := by
  induction h with
  | refl => exact ⟨task, htask, .refl task⟩
  | tail _ step ih =>
    obtain ⟨later, hlater, same⟩ := ih
    obtain ⟨moved, hmoved, move⟩ :=
      (step.progress fun call _ => call.reports_any).tasks.exists_moved hlater
    exact ⟨moved, hmoved, same.trans move⟩

end LabBridge.Server
