import LabBridge.Server.StartResults
import LabBridge.Server.Reference

/-!
# The status a start answers

A manual start answers the status its run is stored with. A scheduled start answers that
its run is running, also when it finds a run that has ended; so its answer is the stored
status exactly when no run under its node and key has left that status.
-/

namespace LabBridge.Server

open ByteText LabBridge.Core Storage

namespace TaskRunService

variable {pg : Postgres} {session : Session} {db db' : Database}

/-- A start that ends with a result is a manual or a scheduled one. -/
theorem start_yields {request : StartTaskRunRequest} {result : TaskRunCreateResult}
    (h : Tx.Yields pg session (start request) db result db') :
    (isManualStart request = true ∧
        Tx.Yields pg session (startManual request) db result db') ∨
      (isManualStart request = false ∧
        Tx.Yields pg session (startScheduled request) db result db') := by
  rw [start, Tx.yields_unless_refuse, Tx.yields_unless_refuse, Tx.yields_ite] at h
  obtain ⟨-, -, h | h⟩ := h
  · exact .inl h
  · exact .inr ⟨by simpa using h.1, h.2⟩

/-- A run stored under the node and execution key of a request. -/
structure UnderKey (pg : Postgres) (request : StartTaskRunRequest) (run : TaskRunRow) : Prop where
  key : ∃ received, pg.textParam request.executionKey = .ok received ∧
    run.executionKey = some received
  node : pg.textParam request.nodeCode = .ok run.nodeCode

/-- The run that a scheduled start asks for stands under its node and key. -/
theorem AsksForSlot.underKey {request : StartTaskRunRequest} {run : TaskRunRow}
    (h : AsksForSlot pg request run) : UnderKey pg request run := ⟨h.key, h.node⟩

/-- Two runs under one node and key share both. -/
theorem UnderKey.same {request : StartTaskRunRequest} {left right : TaskRunRow}
    (hleft : UnderKey pg request left) (hright : UnderKey pg request right) :
    left.nodeCode = right.nodeCode ∧
      ∃ key, left.executionKey = some key ∧ right.executionKey = some key := by
  obtain ⟨key, hkey, hleftKey⟩ := hleft.key
  obtain ⟨key', hkey', hrightKey⟩ := hright.key
  obtain rfl := Except.ok.inj (hkey.symm.trans hkey')
  exact ⟨Except.ok.inj (hleft.node.symm.trans hright.node), key, hleftKey, hrightKey⟩

/-- The answered run is stored with the answered status. -/
def Truthful (result : TaskRunCreateResult) (db : Database) : Prop :=
  ∃ run ∈ db.taskRuns.rows, NamesRun result run

/-- A manual start, or one whose node and key name no run that left the running state. -/
def AnswersTruth (pg : Postgres) (request : StartTaskRunRequest) (db : Database) : Prop :=
  isManualStart request = true ∨
    ∀ run ∈ db.taskRuns.rows, UnderKey pg request run → run.status = .running

/-- The answer of a scheduled start is true when the run it names is running. -/
theorem truthful_iff_running {result : TaskRunCreateResult} {run : TaskRunRow}
    (hrun : run ∈ db.taskRuns.rows) (hid : result.id = decimal run.id)
    (hstatus : result.runStatus = text "running") :
    Truthful result db ↔ run.status = .running := by
  constructor
  · rintro ⟨other, hother, hnames⟩
    have hsame : (run.id : ℕ) = other.id := decimal_inj.mp (hid.symm.trans hnames.id)
    obtain rfl := SerialTable.eq_of_key_eq hrun hother (Fin.ext hsame)
    exact TaskRunStatus.toStorage_injective (hnames.status.symm.trans hstatus)
  · intro hrunning
    exact ⟨run, hrun, hid, by rw [hstatus, hrunning]; rfl⟩

/-- A start with an execution key answers the stored status of its run exactly when it is a
manual one or its node and key name no run that left the running state; then it never sends
an agent to collect for a run that has ended. -/
theorem start_truthful_iff (R : Runtime) {session : Session} {db db' : Database}
    {request : StartTaskRunRequest} {result : TaskRunCreateResult}
    (hkey : request.executionKey ≠ [])
    (h : (start request).execute R.postgres session db = (.ok result, db')) :
    (Truthful result db' ↔ AnswersTruth R.postgres request db) ∧
      (AnswersTruth R.postgres request db → result.runStatus = text "running" →
        ∀ run ∈ db'.taskRuns.rows, result.id = decimal run.id →
          run.status.isTerminal = false) := by
  have hyields := Tx.yields_of_execute_eq h
  have htruth : Truthful result db' ↔ AnswersTruth R.postgres request db := by
    rcases start_yields hyields with ⟨hmanual, hstart⟩ | ⟨hmanual, hstart⟩
    · obtain ⟨-, run, hrun, -, -, hnames⟩ := startManual_yields hstart
      exact iff_of_true ⟨run, hrun, hnames⟩ (.inl hmanual)
    · have hkeyed : isScheduledStart request = true := by simp [isScheduledStart, hkey]
      obtain ⟨-, -, run, hasks, hstarted, hid, hstatus⟩ := startScheduled_yields hkeyed hstart
      cases hstarted with
      | created hrunning hrows hfresh =>
        have hmem : run ∈ db'.taskRuns.rows := by rw [hrows]; simp
        refine iff_of_true ((truthful_iff_running hmem hid hstatus).mpr hrunning)
          (.inr fun other hother hunder => ?_)
        obtain ⟨hnode, key, hotherKey, hrunKey⟩ := hunder.same hasks.underKey
        have hclash : other.clash run = true := by
          simp [TaskRunRow.clash, hnode, hotherKey, hrunKey]
        rw [hfresh other hother] at hclash
        cases hclash
      | found hunchanged hstored _ =>
        subst hunchanged
        rw [truthful_iff_running hstored hid hstatus, AnswersTruth, hmanual]
        refine ⟨fun hrunning => .inr fun other hother hunder => ?_, fun h => ?_⟩
        · obtain ⟨hnode, key, hotherKey, hrunKey⟩ := hunder.same hasks.underKey
          rw [eq_of_executionKey hother hstored hnode hotherKey hrunKey]
          exact hrunning
        · rcases h with h | h
          · cases h
          · exact h run hstored hasks.underKey
  refine ⟨htruth, fun hanswers hrunning run hrun hid => ?_⟩
  have hstatus := (truthful_iff_running hrun hid hrunning).mp (htruth.mpr hanswers)
  rw [hstatus]
  rfl

/-- The first start on the site answers the stored status. -/
theorem start_truthful_site :
    Truthful ⟨text "1", false, text "running"⟩
      ((start Reference.scheduledStart).execute Reference.postgres (.first Reference.now)
        Reference.site).2 :=
  (start_truthful_iff Reference.runtime (by decide) (Prod.ext (by decide +kernel) rfl)).1.mpr
    (.inr fun run hrun => absurd hrun (by simp [Reference.site, Database.empty]))

/-- A scheduled start that is sent again after its run was reported as succeeded is answered
with a running run, which is not what is stored. -/
theorem not_start_truthful :
    Reachable Reference.runtime
        (Reference.after [.start Reference.scheduledStart, .report (Reference.report [])]) ∧
      ((start Reference.scheduledStart).execute Reference.postgres (.first Reference.now)
          (Reference.after [.start Reference.scheduledStart, .report (Reference.report [])])).1 =
        .ok ⟨text "1", true, text "running"⟩ ∧
      ¬Truthful ⟨text "1", true, text "running"⟩
        ((start Reference.scheduledStart).execute Reference.postgres (.first Reference.now)
          (Reference.after [.start Reference.scheduledStart, .report (Reference.report [])])).2 := by
  refine ⟨Reference.reachable_after _, by decide +kernel, ?_⟩
  rintro ⟨run, hrun, hnames⟩
  have hended : ∀ run ∈ ((start Reference.scheduledStart).execute Reference.postgres
      (.first Reference.now) (Reference.after
        [.start Reference.scheduledStart, .report (Reference.report [])])).2.taskRuns.rows,
      run.status.toStorage ≠ text "running" := by
    decide +kernel
  exact hended run hrun hnames.status.symm

end TaskRunService

end LabBridge.Server
