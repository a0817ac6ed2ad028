import LabBridge.Server.RunChanges

/-!
# Transactions in flight

What a transaction knows about the committed tables, given how far it has come, and what its
own versions are. The facts concern only rows that it has locked, so they survive every
commit of a transaction that has locked other rows.
-/

namespace LabBridge.Server

open ByteText LabBridge.Core Storage Interaction

variable {R : Runtime} {pg : Postgres} {db view reached committed : Database} {own : Patch}
  {flight other : Flight} {others : List Flight} {result : Except Stop Reply}

/-- What the tables under some versions hold. -/
structure Overlaid (own : Patch) (db view : Database) : Prop where
  runs : ∀ {run}, run ∈ view.taskRuns.rows ↔ run ∈ own.runs ∨
    run ∈ db.taskRuns.rows ∧ ∀ version ∈ own.runs, version.id ≠ run.id
  tasks : ∀ {task}, task ∈ view.tasks.rows ↔ task ∈ own.tasks ∨
    task ∈ db.tasks.rows ∧ ∀ version ∈ own.tasks, version.id ≠ task.id
  next : view.taskRuns.next = db.taskRuns.next
  nodes : view.nodes = db.nodes
  receipts : view.receipts = db.receipts

/-- Laying versions over the tables shows them. -/
theorem overlaid_of_overlay (h : own.overlay db = some view) : Overlaid own db view := by
  unfold Patch.overlay at h
  split at h
  · rename_i taskRuns tasks hruns htasks
    cases h
    exact ⟨SerialTable.mem_overlay hruns, SerialTable.mem_overlay htasks,
      SerialTable.next_overlay hruns, rfl, rfl⟩
  · cases h

/-- Without versions the committed tables are seen. -/
@[simp] theorem overlay_empty (db : Database) : ({} : Patch).overlay db = some db := by
  simp [Patch.overlay]

/-- How a transaction comes to its next statement. -/
structure Runs (R : Runtime) (db : Database) (others : List Flight) (flight next : Flight)
    (committed : Database) {γ : Type} (statement : Statement γ) (rest : γ → Tx Reply) (answer : γ)
    (view reached : Database) : Prop where
  issues : flight.rest = .call statement rest
  sees : flight.own.overlay db = some view
  executes : statement.exec R.postgres flight.session view = .ok (answer, reached)
  free : ∀ other ∈ others, other.blocks R.postgres db view reached statement = false
  next : next = { flight with
    rest := rest answer
    own := flight.own.record view reached
    heldTasks := flight.heldTasks ++ statement.lockedTask R.postgres view
    heldRuns := flight.heldRuns ++ statement.lockedRun R.postgres view ++
      rewrittenRuns view reached ++ (flight.own.record view reached).runs.map TaskRunRow.id }
  committed : committed = { db with taskRuns := db.taskRuns.advance reached.taskRuns.next }

/-- A transaction that goes on has run its next statement. -/
theorem advance_goes {next : Flight}
    (h : flight.advance R db others = some (.goes next committed)) :
    ∃ (γ : Type) (statement : Statement γ) (rest : γ → Tx Reply) (answer : γ)
      (view reached : Database), Runs R db others flight next committed statement rest answer
        view reached := by
  unfold Flight.advance at h
  split at h
  · cases h
  · cases h
  · rename_i _ statement rest view hrest hview
    split at h
    · cases h
    · rename_i answer reached hexec
      split at h
      · cases h
      · rename_i hfree
        cases h
        refine ⟨_, statement, rest, answer, view, reached, hrest, hview, hexec, ?_, rfl, rfl⟩
        simpa using hfree
  · cases h

/-- A transaction that ends commits its result or leaves the tables. -/
theorem advance_ends (h : flight.advance R db others = some (.ends committed result)) :
    (∃ reply, flight.rest = .ret reply ∧ flight.own.overlay db = some committed ∧
      result = .ok reply) ∨
      committed = db ∧ ∃ stop, result = .error stop ∧
        (flight.rest = .stop stop ∨ ∃ fault, stop = .failed fault) := by
  unfold Flight.advance at h
  split at h
  · rename_i stop hrest
    cases h
    exact .inr ⟨rfl, stop, rfl, .inl hrest⟩
  · rename_i reply view hrest hview
    cases h
    exact .inl ⟨reply, hrest, hview, rfl⟩
  · split at h
    · rename_i fault _
      cases h
      exact .inr ⟨rfl, _, rfl, .inr ⟨fault, rfl⟩⟩
    · split at h
      · cases h
      · cases h
  · cases h

/-- Two transactions have locked different rows. -/
structure Apart (left right : Flight) : Prop where
  tasks : ∀ id ∈ left.heldTasks, id ∉ right.heldTasks
  runs : ∀ id ∈ left.heldRuns, id ∉ right.heldRuns

/-- Locking different rows is mutual. -/
theorem Apart.symm (h : Apart flight other) : Apart other flight where
  tasks id hid hid' := h.tasks id hid' hid
  runs id hid hid' := h.runs id hid' hid

/-- The versions of a transaction belong to rows it has locked. A version of a stored run takes
it out of the waiting state; a run that waits is a new one of a task that is enabled; a task
that is disabled keeps no waiting run. -/
structure Tidy (db : Database) (flight : Flight) : Prop where
  below : ∀ id ∈ flight.heldRuns, (id : ℕ) < db.taskRuns.next
  heldRuns : ∀ version ∈ flight.own.runs, version.id ∈ flight.heldRuns
  heldTasks : ∀ version ∈ flight.own.tasks, version.id ∈ flight.heldTasks
  tasks : ∀ version ∈ flight.own.tasks, ∃ task ∈ db.tasks.rows, SameTask task version
  owned : ∀ version ∈ flight.own.runs, OwnedRun db.tasks.rows version
  moved : ∀ version ∈ flight.own.runs, ∀ run ∈ db.taskRuns.rows, run.id = version.id →
    Leaves run version
  waiting : ∀ version ∈ flight.own.runs, version.status = .pending →
    version.taskId ∈ flight.heldTasks ∧
      ∀ task ∈ db.tasks.rows, task.id = version.taskId → task.enabled = true
  disabled : ∀ version ∈ flight.own.tasks, version.enabled = false →
    (∀ run ∈ flight.own.runs, run.status ≠ .pending) ∧
      ∀ run ∈ db.taskRuns.rows, Database.isPendingManual version.id run = true →
        ∃ given ∈ flight.own.runs, given.id = run.id

namespace LockStage

/-- A task that a transaction has locked. -/
def Locks (pg : Postgres) (flight : Flight) (taskId : Bytes) (task : RowId) : Prop :=
  pg.idParam taskId = .ok (some task) ∧ task ∈ flight.heldTasks

/-- What a transaction knows in a stage. -/
def Holds (pg : Postgres) (db : Database) (flight : Flight) : LockStage → Prop
  | reading => flight.own = {}
  | locked taskId => flight.own = {} ∧ ∃ task, Locks pg flight taskId task
  | enabled taskId nodeCode => flight.own = {} ∧ ∃ task ∈ db.tasks.rows,
      Locks pg flight taskId task.id ∧ task.enabled = true ∧ task.nodeCode = nodeCode
  | clear taskId nodeCode executionKey => flight.own = {} ∧ ∃ task ∈ db.tasks.rows,
      Locks pg flight taskId task.id ∧ task.enabled = true ∧ task.nodeCode = nodeCode ∧
        ∀ run ∈ db.taskRuns.rows, Database.isPendingManual task.id run = true →
          run.executionKey.getD [] = executionKey
  | emptied taskId => flight.own.tasks = [] ∧ ∃ task, Locks pg flight taskId task ∧
      (∀ run ∈ flight.own.runs, run.status ≠ .pending) ∧
        ∀ run ∈ db.taskRuns.rows, Database.isPendingManual task run = true →
          ∃ given ∈ flight.own.runs, given.id = run.id
  | found taskRunId => flight.own = {} ∧ ∃ run ∈ db.taskRuns.rows,
      pg.idParam taskRunId = .ok (some run.id) ∧ run.status = .pending ∧ run.id ∈ flight.heldRuns
  | passed taskRunId => ∃ run, pg.idParam taskRunId = .ok (some run.id) ∧
      run.status = .running ∧ (run ∈ flight.own.runs ∨ run ∈ db.taskRuns.rows)
  | done => True

end LockStage

section Commit

/-- A run that does not wait is left alone by every commit. -/
theorem mem_of_not_pending (htidy : Tidy db flight) (hcommit : Overlaid flight.own db committed)
    {run : TaskRunRow} (hrun : run ∈ db.taskRuns.rows) (hmoved : run.status ≠ .pending) :
    run ∈ committed.taskRuns.rows := by
  refine hcommit.runs.mpr (.inr ⟨hrun, fun version hversion hid => ?_⟩)
  exact hmoved (htidy.moved version hversion run hrun hid.symm).pending

/-- A run is found again after every commit. -/
theorem exists_sameRun (htidy : Tidy db flight) (hcommit : Overlaid flight.own db committed)
    {run : TaskRunRow} (hrun : run ∈ db.taskRuns.rows) :
    ∃ same ∈ committed.taskRuns.rows, SameRun run same := by
  by_cases htouched : ∃ version ∈ flight.own.runs, version.id = run.id
  · obtain ⟨version, hversion, hid⟩ := htouched
    exact ⟨version, hcommit.runs.mpr (.inl hversion),
      (htidy.moved version hversion run hrun hid.symm).same⟩
  · refine ⟨run, hcommit.runs.mpr (.inr ⟨hrun, fun version hversion hid => ?_⟩), .refl run⟩
    exact htouched ⟨version, hversion, hid⟩

/-- A task is found again after a commit, at most switched. -/
theorem exists_sameTask (htidy : Tidy db flight) (hcommit : Overlaid flight.own db committed)
    {task : TaskRow} (htask : task ∈ db.tasks.rows) :
    ∃ same ∈ committed.tasks.rows, SameTask task same := by
  by_cases htouched : ∃ version ∈ flight.own.tasks, version.id = task.id
  · obtain ⟨version, hversion, hid⟩ := htouched
    obtain ⟨old, hold, same⟩ := htidy.tasks version hversion
    obtain rfl := SerialTable.eq_of_key_eq hold htask (same.id.symm.trans hid)
    exact ⟨version, hcommit.tasks.mpr (.inl hversion), same⟩
  · refine ⟨task, hcommit.tasks.mpr (.inr ⟨htask, fun version hversion hid => ?_⟩), .refl task⟩
    exact htouched ⟨version, hversion, hid⟩

/-- A run keeps a task of its node through a commit. -/
theorem OwnedRun.commit (htidy : Tidy db flight) (hcommit : Overlaid flight.own db committed)
    {run : TaskRunRow} (h : OwnedRun db.tasks.rows run) : OwnedRun committed.tasks.rows run := by
  obtain ⟨task, htask, hid, hnode⟩ := h
  obtain ⟨same, hsame, hfixed⟩ := exists_sameTask htidy hcommit htask
  exact ⟨same, hsame, hfixed.id.trans hid, hfixed.nodeCode.trans hnode⟩

/-- A task that another transaction has locked is committed as it is. -/
theorem mem_task_of_apart (hapart : Apart flight other) (htidy : Tidy db flight)
    (hcommit : Overlaid flight.own db committed) {task : TaskRow}
    (hheld : task.id ∈ other.heldTasks) :
    task ∈ committed.tasks.rows ↔ task ∈ db.tasks.rows := by
  constructor
  · intro htask
    rcases hcommit.tasks.mp htask with hown | ⟨hstored, -⟩
    · exact absurd hheld (hapart.tasks _ (htidy.heldTasks task hown))
    · exact hstored
  · intro htask
    refine hcommit.tasks.mpr (.inr ⟨htask, fun version hversion hid => ?_⟩)
    exact hapart.tasks _ (htidy.heldTasks version hversion) (hid ▸ hheld)

/-- A run that another transaction has locked is committed as it is. -/
theorem mem_run_of_apart (hapart : Apart flight other) (htidy : Tidy db flight)
    (hcommit : Overlaid flight.own db committed) {run : TaskRunRow}
    (hheld : run.id ∈ other.heldRuns) (hrun : run ∈ db.taskRuns.rows) :
    run ∈ committed.taskRuns.rows := by
  refine hcommit.runs.mpr (.inr ⟨hrun, fun version hversion hid => ?_⟩)
  exact hapart.runs _ (htidy.heldRuns version hversion) (hid ▸ hheld)

/-- A run that waits for a task which another transaction has locked is not the work of the
one that commits. -/
theorem mem_of_waits (hapart : Apart flight other) (htidy : Tidy db flight)
    (hcommit : Overlaid flight.own db committed) {run : TaskRunRow} {task : RowId}
    (hheld : task ∈ other.heldTasks) (hwaits : Database.isPendingManual task run = true)
    (hrun : run ∈ committed.taskRuns.rows) : run ∈ db.taskRuns.rows := by
  simp only [Database.isPendingManual, Bool.and_eq_true, beq_iff_eq] at hwaits
  rcases hcommit.runs.mp hrun with hown | ⟨hstored, -⟩
  · have hlocked := (htidy.waiting run hown hwaits.1.2).1
    rw [hwaits.1.1] at hlocked
    exact absurd hheld (hapart.tasks _ hlocked)
  · exact hstored

/-- The facts about a transaction survive the commit of one that has locked other rows. -/
theorem Tidy.commit (hother : Tidy db other) (hapart : Apart flight other)
    (htidy : Tidy db flight) (hcommit : Overlaid flight.own db committed) :
    Tidy committed other where
  below id hid := hcommit.next ▸ hother.below id hid
  heldRuns := hother.heldRuns
  heldTasks := hother.heldTasks
  tasks version hversion := by
    obtain ⟨task, htask, same⟩ := hother.tasks version hversion
    have hheld : task.id ∈ other.heldTasks := same.id ▸ hother.heldTasks version hversion
    exact ⟨task, (mem_task_of_apart hapart htidy hcommit hheld).mpr htask, same⟩
  owned version hversion := (hother.owned version hversion).commit htidy hcommit
  moved version hversion run hrun hid := by
    rcases hcommit.runs.mp hrun with hown | ⟨hstored, -⟩
    · have hheld := hother.heldRuns version hversion
      rw [← hid] at hheld
      exact absurd hheld (hapart.runs _ (htidy.heldRuns run hown))
    · exact hother.moved version hversion run hstored hid
  waiting version hversion hpending := by
    obtain ⟨hheld, henabled⟩ := hother.waiting version hversion hpending
    refine ⟨hheld, fun task htask hid => henabled task ?_ hid⟩
    exact (mem_task_of_apart hapart htidy hcommit (hid ▸ hheld)).mp htask
  disabled version hversion hdisabled := by
    obtain ⟨hgone, hgiven⟩ := hother.disabled version hversion hdisabled
    refine ⟨hgone, fun run hrun hwaits => hgiven run ?_ hwaits⟩
    exact mem_of_waits hapart htidy hcommit (hother.heldTasks version hversion) hwaits hrun

/-- What a transaction knows survives the commit of one that has locked other rows. -/
theorem LockStage.Holds.commit {stage : LockStage} (h : stage.Holds pg db other)
    (hapart : Apart flight other) (htidy : Tidy db flight)
    (hcommit : Overlaid flight.own db committed) : stage.Holds pg committed other := by
  cases stage with
  | reading => exact h
  | locked taskId => exact h
  | enabled taskId nodeCode =>
    obtain ⟨hown, task, htask, hlocks, henabled⟩ := h
    exact ⟨hown, task, (mem_task_of_apart hapart htidy hcommit hlocks.2).mpr htask, hlocks,
      henabled⟩
  | clear taskId nodeCode executionKey =>
    obtain ⟨hown, task, htask, hlocks, henabled, hnode, hsame⟩ := h
    refine ⟨hown, task, (mem_task_of_apart hapart htidy hcommit hlocks.2).mpr htask, hlocks,
      henabled, hnode, fun run hrun hwaits => hsame run ?_ hwaits⟩
    exact mem_of_waits hapart htidy hcommit hlocks.2 hwaits hrun
  | emptied taskId =>
    obtain ⟨hown, task, hlocks, hgone, hgiven⟩ := h
    refine ⟨hown, task, hlocks, hgone, fun run hrun hwaits => hgiven run ?_ hwaits⟩
    exact mem_of_waits hapart htidy hcommit hlocks.2 hwaits hrun
  | found taskRunId =>
    obtain ⟨hown, run, hrun, hid, hpending, hheld⟩ := h
    exact ⟨hown, run, mem_run_of_apart hapart htidy hcommit hheld hrun, hid, hpending, hheld⟩
  | passed taskRunId =>
    obtain ⟨run, hid, hrunning, hown | hstored⟩ := h
    · exact ⟨run, hid, hrunning, .inl hown⟩
    · refine ⟨run, hid, hrunning, .inr (mem_of_not_pending htidy hcommit hstored ?_)⟩
      simp [hrunning]
  | done => trivial

end Commit

end LabBridge.Server
