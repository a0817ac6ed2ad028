import LabBridge.Server.Flights

/-!
# A statement of a transaction in flight

Running a statement of the protocol keeps what is known about the transaction, gives it the
locks of the rows it writes, and leaves those of the others to them.
-/

namespace LabBridge.Server

open ByteText LabBridge.Core Storage Interaction

variable {R : Runtime} {db committed view reached : Database} {flight next other : Flight}
  {others : List Flight} {γ : Type} {statement : Statement γ} {rest : γ → Tx Reply} {answer : γ}
  {stage stage' : LockStage}

/-- A statement that writes nothing leaves the versions as they are. -/
@[simp] theorem record_self (own : Patch) (view : Database) : own.record view view = own := by
  simp [Patch.record]

/-- No run is rewritten by nothing. -/
@[simp] theorem rewrittenRuns_self (view : Database) : rewrittenRuns view view = [] := by
  simp [rewrittenRuns]

/-- A row that a rewritten one replaces is locked. -/
theorem mem_rewrittenRuns {old run : TaskRunRow} (hold : old ∈ view.taskRuns.rows)
    (hrun : run ∈ reached.taskRuns.rows) (hleaves : Leaves old run) :
    run.id ∈ rewrittenRuns view reached := by
  rw [hleaves.same.id]
  refine List.mem_map_of_mem (List.mem_filter.mpr ⟨hold, decide_eq_true fun hstays => ?_⟩)
  have heq := SerialTable.eq_of_key_eq hstays hrun hleaves.same.id.symm
  exact hleaves.moved (heq ▸ hleaves.pending)

/-- A run row that a statement selects for update is one of those it sees. -/
theorem lockedRun_mem {run : RowId} (h : run ∈ statement.lockedRun R.postgres view) :
    ∃ row ∈ view.taskRuns.rows, row.id = run := by
  unfold Statement.lockedRun at h
  split at h
  · split at h
    · obtain ⟨hmem, -⟩ := List.mem_filter.mp h
      exact List.mem_map.mp hmem
    · cases h
  · cases h

namespace Runs

variable (hruns : Runs R db others flight next committed statement rest answer view reached)

include hruns

/-- The committed runs stay, but for the counter. -/
theorem runs_eq : committed.taskRuns.rows = db.taskRuns.rows := by
  rw [hruns.committed]
  rfl

/-- The committed tasks stay. -/
theorem tasks_eq : committed.tasks = db.tasks := by rw [hruns.committed]

/-- The registered nodes stay. -/
theorem nodes_eq : committed.nodes = db.nodes := by rw [hruns.committed]

/-- The counter covers what is stored. -/
theorem next_le : db.taskRuns.next ≤ committed.taskRuns.next ∧
    reached.taskRuns.next ≤ committed.taskRuns.next := by
  rw [hruns.committed]
  exact ⟨le_max_left _ _, le_max_right _ _⟩

/-- Versions are those that were held, and the changed rows. -/
theorem mem_own {version : TaskRunRow} (h : version ∈ next.own.runs) :
    version ∈ flight.own.runs ∨
      version ∈ reached.taskRuns.rows ∧ version ∉ view.taskRuns.rows := by
  rw [hruns.next] at h
  rcases mem_supersede.mp h with hnew | ⟨hold, -⟩
  · exact .inr (mem_changedRows.mp hnew)
  · exact .inl hold

/-- Every version is of a row that is locked. -/
theorem heldRuns_own {version : TaskRunRow} (h : version ∈ next.own.runs) :
    version.id ∈ next.heldRuns := by
  rw [hruns.next] at h ⊢
  exact List.mem_append_right _ (List.mem_map_of_mem h)

/-- What is locked stays locked. -/
theorem heldTasks_mono {task : RowId} (h : task ∈ flight.heldTasks) : task ∈ next.heldTasks := by
  rw [hruns.next]
  exact List.mem_append_left _ h

/-- Runs that are locked stay locked. -/
theorem heldRuns_mono {run : RowId} (h : run ∈ flight.heldRuns) : run ∈ next.heldRuns := by
  rw [hruns.next]
  simp [h]

/-- The locked runs are the ones locked before, ones that are seen, and versions. -/
theorem mem_heldRuns {run : RowId} (h : run ∈ next.heldRuns) :
    run ∈ flight.heldRuns ∨
      (run ∈ statement.lockedRun R.postgres view ++ rewrittenRuns view reached) ∨
        ∃ version ∈ next.own.runs, version.id = run := by
  rw [hruns.next] at h
  rcases List.mem_append.mp h with h | hversion
  · rw [List.append_assoc] at h
    exact (List.mem_append.mp h).imp_right .inl
  · refine .inr (.inr ?_)
    rw [hruns.next]
    exact List.mem_map.mp hversion

/-- Locked runs have been numbered. -/
theorem below (htidy : Tidy db flight) :
    ∀ run ∈ next.heldRuns, (run : ℕ) < committed.taskRuns.next := by
  intro run hrun
  obtain ⟨hdb, hreached⟩ := hruns.next_le
  have hview := (overlaid_of_overlay hruns.sees).next
  have hseen {row : TaskRunRow} (h : row ∈ view.taskRuns.rows) :
      (row.id : ℕ) < committed.taskRuns.next :=
    lt_of_lt_of_le (hview ▸ view.taskRuns.below row h) hdb
  rcases hruns.mem_heldRuns hrun with hold | hlocked | ⟨version, hversion, rfl⟩
  · exact lt_of_lt_of_le (htidy.below run hold) hdb
  · rcases List.mem_append.mp hlocked with hlocked | hrewritten
    · obtain ⟨row, hrow, rfl⟩ := lockedRun_mem hlocked
      exact hseen hrow
    · obtain ⟨row, hrow, rfl⟩ := List.mem_map.mp hrewritten
      exact hseen (List.mem_filter.mp hrow).1
  · rcases hruns.mem_own hversion with hold | ⟨hnew, -⟩
    · exact lt_of_lt_of_le (htidy.below _ (htidy.heldRuns version hold)) hdb
    · exact lt_of_lt_of_le (reached.taskRuns.below version hnew) hreached

/-- A statement locks only rows that the others have not locked. -/
theorem apart (htidy : Tidy db flight) (hafter : LockStage.After stage statement answer stage')
    (hmem : other ∈ others) (hapart : Apart flight other) (hother : Tidy db other) :
    Apart next other := by
  have hfree := hruns.free other hmem
  simp only [Flight.blocks, Bool.or_eq_false_iff, List.any_eq_false, List.contains_iff_mem] at hfree
  obtain ⟨⟨htasks, hlocked⟩, -⟩ := hfree
  constructor
  · intro task htask
    rw [hruns.next] at htask
    rcases List.mem_append.mp htask with hold | hnew
    · exact hapart.tasks task hold
    · exact htasks task hnew
  · intro run hrun
    rcases hruns.mem_heldRuns hrun with hold | hnew | ⟨version, hversion, rfl⟩
    · exact hapart.runs run hold
    · exact hlocked run hnew
    · rcases hruns.mem_own hversion with hold | ⟨hnew, hfresh⟩
      · exact hapart.runs _ (htidy.heldRuns version hold)
      · rcases (hafter.changes hruns.executes).writes.runs version hnew with hseen | ⟨hid, -⟩ |
          ⟨old, hold, hleaves⟩
        · exact absurd hseen hfresh
        · intro hheld
          have hbelow := hother.below _ hheld
          rw [← (overlaid_of_overlay hruns.sees).next] at hbelow
          omega
        · exact hlocked _ (List.mem_append_right _ (mem_rewrittenRuns hold hnew hleaves))

/-- The facts about another transaction stay. -/
theorem tidy_other (hother : Tidy db other) : Tidy committed other where
  below run hrun := lt_of_lt_of_le (hother.below run hrun) hruns.next_le.1
  heldRuns := hother.heldRuns
  heldTasks := hother.heldTasks
  tasks := hruns.tasks_eq ▸ hother.tasks
  owned := hruns.tasks_eq ▸ hother.owned
  moved := hruns.runs_eq ▸ hother.moved
  waiting := hruns.tasks_eq ▸ hother.waiting
  disabled := hruns.runs_eq ▸ hother.disabled

/-- What a transaction knows of the committed tables stays. -/
theorem holds_committed {known : LockStage} (h : known.Holds R.postgres db other) :
    known.Holds R.postgres committed other := by
  cases known <;> simp only [LockStage.Holds, hruns.tasks_eq, hruns.runs_eq] <;> exact h

/-- A statement that only reads keeps the facts about its transaction. -/
theorem tidy_of_read (htidy : Tidy db flight) (hread : reached = view) : Tidy committed next := by
  have hown : next.own = flight.own := by
    rw [hruns.next, hread]
    exact record_self _ _
  constructor
  · exact hruns.below htidy
  · exact fun version hversion => hruns.heldRuns_own hversion
  · rw [hown]
    exact fun version hversion => hruns.heldTasks_mono (htidy.heldTasks version hversion)
  · rw [hown, hruns.tasks_eq]
    exact htidy.tasks
  · rw [hown, hruns.tasks_eq]
    exact htidy.owned
  · rw [hown, hruns.runs_eq]
    exact htidy.moved
  · rw [hown, hruns.tasks_eq]
    exact fun version hversion hpending =>
      (htidy.waiting version hversion hpending).imp_left hruns.heldTasks_mono
  · rw [hown, hruns.runs_eq]
    exact htidy.disabled

/-- A statement that only reads keeps what its transaction knows. -/
theorem holds_of_read (h : stage.Holds R.postgres db flight) (hread : reached = view) :
    stage.Holds R.postgres committed next := by
  have hown : next.own = flight.own := by
    rw [hruns.next, hread]
    exact record_self _ _
  have hlocks {taskId : Bytes} {task : RowId}
      (h : LockStage.Locks R.postgres flight taskId task) :
      LockStage.Locks R.postgres next taskId task := h.imp_right hruns.heldTasks_mono
  cases stage <;>
    simp only [LockStage.Holds, hown, hruns.tasks_eq, hruns.runs_eq] at h ⊢
  case reading => exact h
  case locked taskId =>
    obtain ⟨hempty, task, htask⟩ := h
    exact ⟨hempty, task, hlocks htask⟩
  case enabled taskId nodeCode =>
    obtain ⟨hempty, task, hmem, htask, henabled⟩ := h
    exact ⟨hempty, task, hmem, hlocks htask, henabled⟩
  case clear taskId nodeCode executionKey =>
    obtain ⟨hempty, task, hmem, htask, henabled⟩ := h
    exact ⟨hempty, task, hmem, hlocks htask, henabled⟩
  case emptied taskId =>
    obtain ⟨hempty, task, htask, hgone⟩ := h
    exact ⟨hempty, task, hlocks htask, hgone⟩
  case found taskRunId =>
    obtain ⟨hempty, run, hmem, hid, hpending, hheld⟩ := h
    exact ⟨hempty, run, hmem, hid, hpending, hruns.heldRuns_mono hheld⟩
  case passed taskRunId => exact h

/-- A transaction without versions sees the committed tables. -/
theorem view_eq (hown : flight.own = {}) : view = db := by
  have hsees := hruns.sees
  rw [hown, overlay_empty] at hsees
  exact (Option.some.inj hsees).symm

/-- The first statement that writes runs starts the versions of its transaction. -/
theorem own_of_empty (hown : flight.own = {}) :
    next.own.runs = changedRows db.taskRuns.rows reached.taskRuns.rows ∧
      next.own.tasks = changedRows db.tasks.rows reached.tasks.rows := by
  rw [hruns.next, hown, hruns.view_eq hown]
  simp [Patch.record]

/-- A run that a first write moves becomes a version. -/
theorem mem_own_of_leaves (hown : flight.own = {}) {old run : TaskRunRow}
    (hold : old ∈ db.taskRuns.rows) (hrun : run ∈ reached.taskRuns.rows)
    (hleaves : Leaves old run) : run ∈ next.own.runs := by
  rw [(hruns.own_of_empty hown).1]
  refine mem_changedRows.mpr ⟨hrun, fun hstays => ?_⟩
  have heq := SerialTable.eq_of_key_eq hstays hold hleaves.same.id
  exact hleaves.moved (heq ▸ hleaves.pending)

/-- A first write of runs keeps the facts about its transaction. -/
theorem tidy_of_first (htidy : Tidy db flight) (hown : flight.own = {})
    (htasks : reached.tasks = db.tasks)
    (hwritten : ∀ run ∈ reached.taskRuns.rows, run ∉ db.taskRuns.rows →
      OwnedRun db.tasks.rows run ∧
        (∀ old ∈ db.taskRuns.rows, old.id = run.id → Leaves old run) ∧
        (run.status = .pending → run.taskId ∈ flight.heldTasks ∧
          ∀ task ∈ db.tasks.rows, task.id = run.taskId → task.enabled = true)) :
    Tidy committed next := by
  obtain ⟨hversions, hnone⟩ := hruns.own_of_empty hown
  rw [htasks, changedRows_self] at hnone
  have hchanged {version : TaskRunRow} (h : version ∈ next.own.runs) :=
    hwritten version (mem_changedRows.mp (hversions ▸ h)).1 (mem_changedRows.mp (hversions ▸ h)).2
  constructor
  · exact hruns.below htidy
  · exact fun version hversion => hruns.heldRuns_own hversion
  · simp [hnone]
  · simp [hnone]
  · rw [hruns.tasks_eq]
    exact fun version hversion => (hchanged hversion).1
  · rw [hruns.runs_eq]
    exact fun version hversion => (hchanged hversion).2.1
  · rw [hruns.tasks_eq]
    exact fun version hversion hpending =>
      ((hchanged hversion).2.2 hpending).imp_left hruns.heldTasks_mono
  · simp [hnone]

/-- Appending one run first keeps the facts about its transaction. -/
theorem tidy_of_append (htidy : Tidy db flight) (hown : flight.own = {})
    (happends : reached = db ∨ ∃ run, Appends db reached run ∧
      (run.status = .pending → run.taskId ∈ flight.heldTasks ∧
        ∀ task ∈ db.tasks.rows, task.id = run.taskId → task.enabled = true)) :
    Tidy committed next := by
  rcases happends with hsame | ⟨run, happends, hwaiting⟩
  · refine hruns.tidy_of_read htidy ?_
    rw [hsame, hruns.view_eq hown]
  · refine hruns.tidy_of_first htidy hown happends.tasks fun version hversion hfresh => ?_
    rw [happends.rows] at hversion
    obtain rfl : version = run := by
      rcases List.mem_append.mp hversion with hold | hnew
      · exact absurd hold hfresh
      · exact List.mem_singleton.mp hnew
    refine ⟨happends.owned, fun old hold hid => ?_, hwaiting⟩
    have hbelow := db.taskRuns.below old hold
    rw [hid, happends.id] at hbelow
    exact absurd hbelow (lt_irrefl _)

/-- Taking runs out of the waiting state first keeps the facts about its transaction. -/
theorem tidy_of_rewrite {selected : TaskRunRow → Prop}
    (htidy : Tidy db flight) (hown : flight.own = {})
    (howned : ∀ run ∈ db.taskRuns.rows, OwnedRun db.tasks.rows run)
    (hrewrites : Rewrites selected db reached) : Tidy committed next := by
  refine hruns.tidy_of_first htidy hown hrewrites.tasks fun version hversion hfresh => ?_
  rcases hrewrites.origin version hversion with ⟨hold, -⟩ | ⟨old, hold, -, hleaves⟩
  · exact absurd hold hfresh
  · refine ⟨?_, fun other hother hid => ?_, fun hpending => absurd hpending hleaves.moved⟩
    · obtain ⟨task, htask, hid, hnode⟩ := howned old hold
      exact ⟨task, htask, hid.trans hleaves.same.taskId.symm,
        hnode.trans hleaves.same.nodeCode.symm⟩
    · rwa [SerialTable.eq_of_key_eq hother hold (hid.trans hleaves.same.id)]

end Runs

/-- A run that is found waiting for a task is the only one. -/
theorem eq_of_waits {task : RowId} {left right : TaskRunRow} (hleft : left ∈ db.taskRuns.rows)
    (hright : right ∈ db.taskRuns.rows) (hwaits : Database.isPendingManual task left = true)
    (hwaits' : Database.isPendingManual task right = true) : left = right := by
  simp only [Database.isPendingManual, Bool.and_eq_true, beq_iff_eq] at hwaits hwaits'
  refine SerialTable.eq_of_clash ?_ hleft hright ?_
  · intro left right
    simp only [TaskRunRow.clash]
    grind
  · simp [TaskRunRow.clash, hwaits, hwaits']

/-- A task that is locked for update is held. -/
theorem locks_of_select {taskId : Bytes} {db' : Database}
    (h : (Statement.selectTaskForUpdate taskId).exec R.postgres flight.session db =
      .ok (true, db')) :
    ∃ task, R.postgres.idParam taskId = .ok (some task) ∧
      task ∈ (Statement.selectTaskForUpdate taskId).lockedTask R.postgres db := by
  obtain ⟨hanswer, -⟩ := Statement.reading_eq_ok.mp h
  simp only [Database.selectTaskForUpdate, Answer.bind_eq_ok, Answer.pure_eq_ok,
    Except.ok.injEq] at hanswer
  obtain ⟨id, hid, hsome⟩ := hanswer
  obtain ⟨task, htask⟩ := Option.isSome_iff_exists.mp hsome
  obtain ⟨rfl, hmem⟩ := find_of_param htask
  refine ⟨task.id, hid, ?_⟩
  simp only [Statement.lockedTask, hid, List.mem_filter, beq_iff_eq, and_true]
  exact List.mem_map_of_mem hmem

namespace Runs

variable (hruns : Runs R db others flight next committed statement rest answer view reached)

include hruns

/-- Switching the task that is locked keeps the facts about its transaction, when no run waits
for a task that is disabled. -/
theorem tidy_of_switch {taskId : Bytes} {enabled : Bool} {task : RowId} (htidy : Tidy db flight)
    (hown : flight.own.tasks = []) (hlocks : LockStage.Locks R.postgres flight taskId task)
    (hexec : (Statement.updateTaskEnabled taskId enabled).exec R.postgres flight.session view =
      .ok ((), reached))
    (hgiven : enabled = false → (∀ run ∈ flight.own.runs, run.status ≠ .pending) ∧
      ∀ run ∈ db.taskRuns.rows, Database.isPendingManual task run = true →
        ∃ given ∈ flight.own.runs, given.id = run.id) : Tidy committed next := by
  obtain ⟨id, hid, hsame, hswitched⟩ := updateTaskEnabled_ok hexec
  rw [hlocks.1] at hid
  cases hid
  have hversions : next.own.runs = flight.own.runs := by
    rw [hruns.next]
    simp [Patch.record, hsame]
  have hchanged {version : TaskRow} (h : version ∈ next.own.tasks) :
      version.id = task ∧ version.enabled = enabled ∧
        ∃ old ∈ db.tasks.rows, SameTask old version := by
    rw [hruns.next] at h
    simp only [Patch.record, hown, nil_supersede] at h
    obtain ⟨hmem, hfresh⟩ := mem_changedRows.mp h
    rcases hswitched version hmem with hstays | ⟨hid, henabled, old, hold, same⟩
    · exact absurd hstays hfresh
    · refine ⟨by simpa using hid, henabled, old, ?_, same⟩
      simpa [hown] using (overlaid_of_overlay hruns.sees).tasks.mp hold
  constructor
  · exact hruns.below htidy
  · exact fun version hversion => hruns.heldRuns_own hversion
  · intro version hversion
    rw [(hchanged hversion).1]
    exact hruns.heldTasks_mono hlocks.2
  · rw [hruns.tasks_eq]
    exact fun version hversion => (hchanged hversion).2.2
  · rw [hversions, hruns.tasks_eq]
    exact htidy.owned
  · rw [hversions, hruns.runs_eq]
    exact htidy.moved
  · rw [hversions, hruns.tasks_eq]
    exact fun version hversion hpending =>
      (htidy.waiting version hversion hpending).imp_left hruns.heldTasks_mono
  · rw [hversions, hruns.runs_eq]
    intro version hversion hdisabled
    obtain ⟨rfl, henabled, -⟩ := hchanged hversion
    exact hgiven (henabled.symm.trans hdisabled)

/-- A statement of the protocol keeps the facts about its transaction, which then knows what
the stage it has reached says. -/
theorem keeps (htidy : Tidy db flight) (hholds : stage.Holds R.postgres db flight)
    (howned : ∀ run ∈ db.taskRuns.rows, OwnedRun db.tasks.rows run)
    (hcodes : ∀ task ∈ db.tasks.rows, R.postgres.textParam task.nodeCode = .ok task.nodeCode)
    (hafter : LockStage.After stage statement answer stage') :
    Tidy committed next ∧ stage'.Holds R.postgres committed next := by
  have hexec := hruns.executes
  have hread (hread : statement.IsRead) : reached = view := hread.exec_eq hexec
  have hempty (hread : reached = view) (hown : flight.own = {}) : next.own = {} := by
    rw [hruns.next, hread, record_self, hown]
  cases hafter with
  | read isRead =>
    exact ⟨hruns.tidy_of_read htidy (hread isRead), hruns.holds_of_read hholds (hread isRead)⟩
  | lock =>
    refine ⟨hruns.tidy_of_read htidy (hread trivial), hempty (hread trivial) hholds, ?_⟩
    obtain ⟨task, hid, hlocked⟩ := locks_of_select hexec
    refine ⟨task, hid, ?_⟩
    rw [hruns.next]
    exact List.mem_append_right _ hlocked
  | see henabled =>
    obtain ⟨hown, id, hid, hheld⟩ := hholds
    refine ⟨hruns.tidy_of_read htidy (hread trivial), hempty (hread trivial) hown, ?_⟩
    rw [hruns.view_eq hown] at hexec
    obtain ⟨task, hmem, hid', hnode, hswitch⟩ :=
      TaskRunService.selectTask_ok (Statement.reading_eq_ok.mp hexec).1
    rw [hid] at hid'
    cases hid'
    rw [hruns.tasks_eq]
    exact ⟨task, hmem, ⟨hid, hruns.heldTasks_mono hheld⟩, hswitch ▸ henabled, hnode.symm⟩
  | clear hsame =>
    obtain ⟨hown, task, hmem, hlocks, henabled, hnode⟩ := hholds
    refine ⟨hruns.tidy_of_read htidy (hread trivial), hempty (hread trivial) hown, task, ?_⟩
    rw [hruns.tasks_eq, hruns.runs_eq]
    refine ⟨hmem, hlocks.imp_right hruns.heldTasks_mono, henabled, hnode, fun run hrun hwaits => ?_⟩
    rw [hruns.view_eq hown] at hexec
    have hanswer := (Statement.reading_eq_ok.mp hexec).1
    simp only [Database.selectPendingManual, hlocks.1, Answer.ok_bind, Answer.pure_eq_ok,
      Option.bind_some, Except.ok.injEq] at hanswer
    rw [SerialTable.find?_of_forall hrun hwaits fun other hother hwaits' =>
      eq_of_waits hother hrun hwaits' hwaits] at hanswer
    exact hsame _ hanswer.symm
  | insert =>
    obtain ⟨hown, task, hmem, hlocks, henabled, hnode, -⟩ := hholds
    rw [hruns.view_eq hown] at hexec
    refine ⟨hruns.tidy_of_append htidy hown ?_, trivial⟩
    have hcode := hcodes task hmem
    nth_rewrite 1 [hnode] at hcode
    rcases insertManualRun_ok hmem hlocks.1 hcode hexec with
      ⟨-, hsame, -⟩ | ⟨run, -, happends, hasked⟩
    · exact .inl hsame
    · refine .inr ⟨run, happends, fun _ => ?_⟩
      have htask : task.id = run.taskId := by simpa [hlocks.1] using hasked.task
      refine ⟨htask ▸ hlocks.2, fun other hother hid => ?_⟩
      rw [SerialTable.eq_of_key_eq hother hmem (hid.trans htask.symm)]
      exact henabled
  | insertScheduled running =>
    rw [hruns.view_eq hholds] at hexec
    refine ⟨hruns.tidy_of_append htidy hholds ?_, trivial⟩
    refine (insertScheduledRun_appends running hexec).imp_right fun hsome => ?_
    obtain ⟨run, happends, hrunning⟩ := hsome
    exact ⟨run, happends, fun hpending => by simp [hrunning] at hpending⟩
  | insertRun running =>
    rw [hruns.view_eq hholds] at hexec
    refine ⟨hruns.tidy_of_append htidy hholds ?_, trivial⟩
    refine (insertRun_appends running hexec).imp_right fun hsome => ?_
    obtain ⟨run, happends, hrunning⟩ := hsome
    exact ⟨run, happends, fun hpending => by simp [hrunning] at hpending⟩
  | @find taskId taskRunId run hwaits =>
    refine ⟨hruns.tidy_of_read htidy (hread trivial), hempty (hread trivial) hholds.1, ?_⟩
    rw [hruns.view_eq hholds.1] at hexec
    rcases selectRunById_ok (Statement.reading_eq_ok.mp hexec).1 with hnone | ⟨run, hmem, hid, hrun⟩
    · cases hnone
    · cases hrun
      refine ⟨run, hruns.runs_eq ▸ hmem, hid, hwaits, ?_⟩
      rw [hruns.next, hruns.view_eq hholds.1]
      have hlocked : run.id ∈ Statement.lockedRun R.postgres db (.selectRunForUpdate taskRunId) := by
        simp only [Statement.lockedRun, hid, List.mem_filter, beq_self_eq_true, and_true]
        exact List.mem_map_of_mem hmem
      simp [hlocked]
  | start =>
    obtain ⟨hown, run, hrun, hid, hpending, -⟩ := hholds
    rw [hruns.view_eq hown] at hexec
    obtain ⟨id, hid', hrewrites⟩ := updateManualRunning_rewrites hexec
    rw [hid] at hid'
    cases hid'
    refine ⟨hruns.tidy_of_rewrite htidy hown howned hrewrites, ?_⟩
    obtain ⟨moved, hmem, hleaves⟩ := hrewrites.found run hrun (by simp [hpending])
    have hown' := hruns.mem_own_of_leaves hown hrun hmem hleaves
    refine ⟨moved, hleaves.same.id ▸ hid, ?_, .inl hown'⟩
    rcases running_of_updateManualRunning hexec moved hmem with hstays | hrunning
    · rw [(hruns.own_of_empty hown).1] at hown'
      exact absurd hstays (mem_changedRows.mp hown').2
    · exact hrunning
  | passKey hrunning =>
    refine ⟨hruns.tidy_of_read htidy (hread trivial), ?_⟩
    rw [hruns.view_eq hholds] at hexec
    obtain ⟨received, run, -, hmem, -, rfl⟩ :=
      selectRunByKey_ok (Statement.reading_eq_ok.mp hexec).1
    exact ⟨run, R.postgres.idParam_decimal run.id, hrunning, .inr (hruns.runs_eq ▸ hmem)⟩
  | passLocked hrunning =>
    refine ⟨hruns.tidy_of_read htidy (hread trivial), ?_⟩
    rw [hruns.view_eq hholds.1] at hexec
    rcases selectRunById_ok (Statement.reading_eq_ok.mp hexec).1 with hnone | ⟨run, hmem, -, hrun⟩
    · cases hnone
    · cases hrun
      exact ⟨run, R.postgres.idParam_decimal run.id, hrunning, .inr (hruns.runs_eq ▸ hmem)⟩
  | empty =>
    obtain ⟨hown, task, hlocks⟩ := hholds
    rw [hruns.view_eq hown] at hexec
    obtain ⟨id, hid, hrewrites⟩ := updatePendingManualFailed_rewrites hexec
    rw [hlocks.1] at hid
    cases hid
    obtain ⟨hversions, hnone⟩ := hruns.own_of_empty hown
    rw [hrewrites.tasks, changedRows_self] at hnone
    refine ⟨hruns.tidy_of_rewrite htidy hown howned hrewrites, hnone, task,
      hlocks.imp_right hruns.heldTasks_mono, fun run hrun => ?_, fun old hold hwaits => ?_⟩
    · rw [hversions] at hrun
      obtain ⟨hmem, hfresh⟩ := mem_changedRows.mp hrun
      rcases hrewrites.origin run hmem with ⟨hstays, -⟩ | ⟨old, -, -, hleaves⟩
      · exact absurd hstays hfresh
      · exact hleaves.moved
    · rw [hruns.runs_eq] at hold
      obtain ⟨run, hmem, hleaves⟩ := hrewrites.found old hold (by simpa using hwaits)
      exact ⟨run, hruns.mem_own_of_leaves hown hold hmem hleaves, hleaves.same.id⟩
  | enable =>
    obtain ⟨hown, task, hlocks⟩ := hholds
    refine ⟨hruns.tidy_of_switch htidy (by rw [hown]) hlocks hexec fun hdisabled => ?_, trivial⟩
    cases hdisabled
  | disable =>
    obtain ⟨hown, task, hlocks, hgone, hgiven⟩ := hholds
    exact ⟨hruns.tidy_of_switch htidy hown hlocks hexec fun _ => ⟨hgone, hgiven⟩, trivial⟩

end Runs

end LabBridge.Server
