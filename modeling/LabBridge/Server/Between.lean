import LabBridge.Server.Interleaving
import LabBridge.Server.Progress

/-!
# What comes between the transactions on runs

Manifests, reports, alerts and configuration add tasks and move stored runs. They leave the
disabled tasks without waiting runs, and what a start has told.
-/

namespace LabBridge.Server

open ByteText LabBridge.Core Storage Interaction

variable {R : Runtime} {db db' : Database}

/-- No run waits for a disabled task. -/
def Quiet (db : Database) : Prop :=
  ∀ task ∈ db.tasks.rows, task.enabled = false →
    ∀ run ∈ db.taskRuns.rows, Database.isPendingManual task.id run = false

/-- What comes between the transactions on runs: other requests and configuration. -/
def Between (R : Runtime) : Database → Database → Prop :=
  Step R fun call _ => call.concernsRuns = false

/-- What comes between adds tasks and moves the stored runs. -/
theorem Between.moves (h : Between R db db') :
    (∃ added, db'.tasks.rows = db.tasks.rows ++ added) ∧
      Evolves (RunMove fun _ => True) (fun _ => False) db.taskRuns.rows db'.taskRuns.rows := by
  cases h with
  | configure configures =>
    obtain ⟨added, hrows, -⟩ := configures.tasks
    refine ⟨⟨added, hrows⟩, ?_⟩
    rw [configures.taskRuns]
    exact .refl (fun _ => .stay rfl) _
  | serve call session elsewhere =>
    rcases call.serve_cases session db with h | ⟨reply, -, h⟩
    · rw [show (call.serve R session db).2.tasks.rows = db.tasks.rows from
        congrArg Contents.tasks h, show (call.serve R session db).2.taskRuns.rows =
        db.taskRuns.rows from congrArg Contents.taskRuns h]
      exact ⟨⟨[], by simp⟩, .refl (fun _ => .stay rfl) _⟩
    · revert h
      generalize (call.serve R session db).2 = db'
      intro h
      cases call <;> simp only [Call.concernsRuns, Bool.true_eq_false] at elsewhere <;>
        simp only [Call.transaction, Tx.yields_bind, Tx.yields_pure] at h <;>
        obtain ⟨result, db', h, -, rfl⟩ := h
      case disposeAlert alertId acknowledge =>
        obtain ⟨alerts, rfl, -⟩ := disposeAlert_yields h
        exact ⟨⟨[], by simp⟩, .refl (fun _ => .stay rfl) _⟩
      case manifest request =>
        obtain ⟨run, response, -, ⟨-, rfl, -⟩ | ⟨-, hruns, -, haccepted⟩⟩ :=
          AgentReportService.acceptRawFileManifest_yields h
        · exact ⟨⟨[], by simp⟩, .refl (fun _ => .stay rfl) _⟩
        · refine ⟨⟨[], by simp [show db'.tasks = db.tasks from haccepted.evidence.tasks]⟩, ?_⟩
          rw [hruns]
          exact .refl (fun _ => .stay rfl) _
      case report request =>
        obtain ⟨hterminal, run, response, hrun, ⟨-, rfl, -⟩ |
          ⟨-, hopen, ⟨change, hchange, hruns⟩, haccepted⟩⟩ :=
          AgentReportService.acceptTaskRunReport_yields h
        · exact ⟨⟨[], by simp⟩, .refl (fun _ => .stay rfl) _⟩
        · refine ⟨⟨[], by simp [show db'.tasks = db.tasks from haccepted.evidence.tasks]⟩, ?_⟩
          refine evolves_of_finish (fun _ => .stay rfl) hrun.stored ?_ hruns
          exact .finish hopen trivial (by rw [(hchange run).status]; exact hterminal)
            (hchange run).toSameRun

/-- A run that waits for a task has waited for it before. -/
theorem RunMove.isPendingManual {reported : TaskRunStatus → Prop} {before after : TaskRunRow}
    (h : RunMove reported before after) {task : RowId}
    (hwaits : Database.isPendingManual task after = true) :
    Database.isPendingManual task before = true := by
  simp only [Database.isPendingManual, Bool.and_eq_true, beq_iff_eq] at hwaits ⊢
  obtain ⟨⟨htask, hpending⟩, hmanual⟩ := hwaits
  refine ⟨⟨h.same.taskId ▸ htask, h.pending_of_pending hpending⟩, ?_⟩
  simpa only [TaskRunRow.isManual, h.same.triggerType] using hmanual

/-- What comes between keeps the disabled tasks quiet. -/
theorem Between.quiet (h : Between R db db') (hsound : Sound R.postgres db) (hquiet : Quiet db) :
    Quiet db' := by
  obtain ⟨⟨added, htasks⟩, hmoves⟩ := h.moves
  intro task htask hdisabled run hrun
  by_contra hwaits
  rw [Bool.not_eq_false] at hwaits
  obtain ⟨source, hsource, move⟩ | hfresh := hmoves.origin hrun
  · have hwaited := move.isPendingManual hwaits
    obtain ⟨owner, howner, hid, -⟩ := hsound.runTasks source hsource
    have hsame : source.taskId = task.id := by
      simp only [Database.isPendingManual, Bool.and_eq_true, beq_iff_eq] at hwaited
      exact hwaited.1.1
    have howner' : owner ∈ db'.tasks.rows := htasks ▸ List.mem_append_left added howner
    obtain rfl := SerialTable.eq_of_key_eq howner' htask (hid.trans hsame)
    rw [hquiet owner howner hdisabled source hsource] at hwaited
    cases hwaited
  · exact hfresh

/-- A run that a manual start has called running is stored and waits no more. -/
def Told (pg : Postgres) (db : Database) (answered : Answered) : Prop :=
  ∀ request result, answered.call = .start request →
    TaskRunService.isManualStart request = true → answered.result = .ok (.start result) →
    result.runStatus = text "running" →
    ∃ run ∈ db.taskRuns.rows, pg.idParam result.id = .ok (some run.id) ∧ run.status ≠ .pending

/-- What comes between leaves what was told. -/
theorem Between.told (h : Between R db db') {answered : Answered}
    (htold : Told R.postgres db answered) : Told R.postgres db' answered := by
  intro request result hcall hmanual hresult hrunning
  obtain ⟨run, hrun, hid, hmoved⟩ := htold request result hcall hmanual hresult hrunning
  obtain ⟨later, hlater, move⟩ := h.moves.2.exists_moved hrun
  exact ⟨later, hlater, move.same.id ▸ hid, hmoved ∘ move.pending_of_pending⟩

end LabBridge.Server
