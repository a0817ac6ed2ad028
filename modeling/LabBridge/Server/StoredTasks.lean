import LabBridge.Server.CreatedTasks

/-!
# The stored tasks

Every task that is stored can be executed, in every state the control plane reaches: nothing a
task needs is taken away, and what it was created with stays. A task that was stopped can
therefore be started again.
-/

namespace LabBridge.Server

open ByteText LabBridge.Core Storage Interaction ControlTx

variable (R : Runtime)

/-- A task that can be executed. -/
structure ExecutableTask (db : Database) (task : TaskRow) : Prop where
  positive : 0 < (task.id : ℕ)
  taskType : task.taskType = text "local_file_import"
  parserType : task.parserType = text "csv_observation"
  schedule : ∃ schedule, CronSchedule.parse task.scheduleExpr = .ok schedule
  node : ∃ node ∈ db.nodes.rows, node.nodeCode = task.nodeCode
  source : db.SourceFor R task.nodeCode task.dataSourceId
  rules : ∀ binding ∈ db.orderedQcRules task.id, db.RuleFor R binding.qcRuleId
  count : 1 ≤ (db.orderedQcRules task.id).length ∧ (db.orderedQcRules task.id).length ≤ 5

/-- How the configuration grows: nodes stay registered, data sources, rules and executable tasks
are added behind the stored ones, tasks are switched, and added tasks are given bindings. -/
structure Grows (before after : Database) : Prop where
  nodes : ∀ node ∈ before.nodes.rows, ∃ same ∈ after.nodes.rows, same.nodeCode = node.nodeCode
  dataSources : before.dataSources.rows <+: after.dataSources.rows
  qcRules : before.qcRules.rows <+: after.qcRules.rows
  serial : before.tasks.next ≤ after.tasks.next
  tasks : Evolves SwitchedTask (fun task => ∀ old ∈ before.tasks.rows, old.id ≠ task.id)
    before.tasks.rows after.tasks.rows
  executable : ∀ task ∈ after.tasks.rows,
    (∃ old ∈ before.tasks.rows, SwitchedTask old task) ∨ ExecutableTask R after task
  taskQcRules : ∃ added, after.taskQcRules = before.taskQcRules ++ added ∧
    ∀ binding ∈ added, (∀ old ∈ before.tasks.rows, old.id ≠ binding.taskId) ∧
      ∃ task ∈ after.tasks.rows, task.id = binding.taskId

/-- Tables whose tasks can be executed and whose bindings belong to tasks. -/
structure TasksExecutable (db : Database) : Prop where
  serial : 0 < db.tasks.next
  tasks : ∀ task ∈ db.tasks.rows, ExecutableTask R db task
  bindings : ∀ binding ∈ db.taskQcRules, ∃ task ∈ db.tasks.rows, task.id = binding.taskId

variable {R} {pg : Postgres} {session : Session} {db db' : Database} {α : Type}

/-- The fresh schema has no tasks. -/
theorem tasksExecutable_empty : TasksExecutable R .empty where
  serial := by decide
  tasks := by simp [Database.empty]
  bindings := by simp [Database.empty]

/-- A switched task keeps its key. -/
theorem SwitchedTask.id {before after : TaskRow} (h : SwitchedTask before after) :
    after.id = before.id := by
  obtain ⟨enabled, rfl⟩ := h
  rfl

namespace Grows

/-- The rules of a stored task stay as they are. -/
theorem orderedQcRules (h : Grows R db db') {task : TaskRow} (htask : task ∈ db.tasks.rows) :
    db'.orderedQcRules task.id = db.orderedQcRules task.id := by
  obtain ⟨added, hbindings, hadded⟩ := h.taskQcRules
  have hnone : added.filter (fun binding => binding.taskId == task.id) = [] := by
    apply List.filter_eq_nil_iff.mpr
    intro binding hbinding
    simpa using fun heq => (hadded binding hbinding).1 task htask (Eq.symm heq)
  rw [Database.orderedQcRules, hbindings, List.filter_append, hnone, List.append_nil]
  rfl

/-- What a task needs of its data source stays. -/
theorem sourceFor (h : Grows R db db') {nodeCode : Bytes} {id : RowId}
    (hsource : db.SourceFor R nodeCode id) : db'.SourceFor R nodeCode id := by
  obtain ⟨source, hmem, hrest⟩ := hsource
  exact ⟨source, h.dataSources.subset hmem, hrest⟩

/-- What a task needs of a rule stays. -/
theorem ruleFor (h : Grows R db db') {id : RowId} (hrule : db.RuleFor R id) :
    db'.RuleFor R id := by
  obtain ⟨rule, hmem, hrest⟩ := hrule
  exact ⟨rule, h.qcRules.subset hmem, hrest⟩

/-- A stored task that can be executed can be executed later, switched or not. -/
theorem executableTask (h : Grows R db db') {task moved : TaskRow} (hmem : task ∈ db.tasks.rows)
    (hswitched : SwitchedTask task moved) (htask : ExecutableTask R db task) :
    ExecutableTask R db' moved := by
  obtain ⟨enabled, rfl⟩ := hswitched
  obtain ⟨node, hnode, hcode⟩ := htask.node
  obtain ⟨same, hsame, hcode'⟩ := h.nodes node hnode
  exact {
    positive := htask.positive
    taskType := htask.taskType
    parserType := htask.parserType
    schedule := htask.schedule
    node := ⟨same, hsame, hcode'.trans hcode⟩
    source := h.sourceFor htask.source
    rules := by
      intro binding hbinding
      rw [h.orderedQcRules hmem] at hbinding
      exact h.ruleFor (htask.rules binding hbinding)
    count := by
      rw [h.orderedQcRules hmem]
      exact htask.count }

/-- Tables that can be executed can be executed when they have grown. -/
theorem tasksExecutable (h : Grows R db db') (hdb : TasksExecutable R db) :
    TasksExecutable R db' where
  serial := lt_of_lt_of_le hdb.serial h.serial
  tasks := by
    intro task htask
    rcases h.executable task htask with ⟨old, hold, hswitched⟩ | hexecutable
    · exact h.executableTask hold hswitched (hdb.tasks old hold)
    · exact hexecutable
  bindings := by
    intro binding hbinding
    obtain ⟨added, hbindings, hadded⟩ := h.taskQcRules
    rw [hbindings] at hbinding
    rcases List.mem_append.mp hbinding with hbinding | hbinding
    · obtain ⟨task, htask, hid⟩ := hdb.bindings binding hbinding
      obtain ⟨moved, hmoved, hswitched⟩ := h.tasks.exists_moved htask
      exact ⟨moved, hmoved, hswitched.id.trans hid⟩
    · exact (hadded binding hbinding).2

/-- Growing twice is growing. -/
theorem trans {a b c : Database} (first : Grows R a b) (second : Grows R b c) : Grows R a c where
  nodes := by
    intro node hnode
    obtain ⟨kept, hkept, hcode⟩ := first.nodes node hnode
    obtain ⟨same, hsame, hcode'⟩ := second.nodes kept hkept
    exact ⟨same, hsame, hcode'.trans hcode⟩
  dataSources := first.dataSources.trans second.dataSources
  qcRules := first.qcRules.trans second.qcRules
  serial := first.serial.trans second.serial
  tasks := by
    have hsecond : Evolves SwitchedTask (fun task => ∀ old ∈ a.tasks.rows, old.id ≠ task.id)
        b.tasks.rows c.tasks.rows := by
      refine second.tasks.mono (fun _ _ _ hswitched => hswitched) ?_
      intro task hfresh old hold
      obtain ⟨moved, hmoved, hswitched⟩ := first.tasks.exists_moved hold
      exact hswitched.id ▸ hfresh moved hmoved
    refine first.tasks.trans SwitchedTask.trans ?_ hsecond
    intro task moved hfresh hswitched old hold
    rw [hswitched.id]
    exact hfresh old hold
  executable := by
    intro task htask
    rcases second.executable task htask with ⟨middle, hmiddle, hswitched⟩ | hexecutable
    · rcases first.executable middle hmiddle with ⟨old, hold, hbefore⟩ | hexecutable
      · exact .inl ⟨old, hold, hbefore.trans hswitched⟩
      · exact .inr (second.executableTask hmiddle hswitched hexecutable)
    · exact .inr hexecutable
  taskQcRules := by
    obtain ⟨added, hrows, hadded⟩ := first.taskQcRules
    obtain ⟨more, hrows', hmore⟩ := second.taskQcRules
    refine ⟨added ++ more, by rw [hrows', hrows, List.append_assoc], ?_⟩
    intro binding hbinding
    rcases List.mem_append.mp hbinding with hbinding | hbinding
    · obtain ⟨hfresh, task, htask, hid⟩ := hadded binding hbinding
      obtain ⟨moved, hmoved, hswitched⟩ := second.tasks.exists_moved htask
      exact ⟨hfresh, moved, hmoved, hswitched.id.trans hid⟩
    · obtain ⟨hfresh, htask⟩ := hmore binding hbinding
      refine ⟨fun old hold heq => ?_, htask⟩
      obtain ⟨moved, hmoved, hswitched⟩ := first.tasks.exists_moved hold
      exact hfresh moved hmoved (hswitched.id.trans heq)

/-- Where tasks and their bindings stay, the configuration grows with its other objects. -/
theorem of_tasks (nodes : ∀ node ∈ db.nodes.rows, ∃ same ∈ db'.nodes.rows,
      same.nodeCode = node.nodeCode)
    (dataSources : db.dataSources.rows <+: db'.dataSources.rows)
    (qcRules : db.qcRules.rows <+: db'.qcRules.rows)
    (serial : db.tasks.next ≤ db'.tasks.next)
    (tasks : Evolves SwitchedTask (fun _ => False) db.tasks.rows db'.tasks.rows)
    (taskQcRules : db'.taskQcRules = db.taskQcRules) : Grows R db db' where
  nodes := nodes
  dataSources := dataSources
  qcRules := qcRules
  serial := serial
  tasks := tasks.mono (fun _ _ _ hswitched => hswitched) False.elim
  executable := fun task htask => .inl ((tasks.origin htask).resolve_right not_false)
  taskQcRules := ⟨[], by simpa using taskQcRules, by simp⟩

/-- What keeps the configuration lets it grow. -/
theorem of_keeps (h : KeepsConfiguration db db') : Grows R db db' :=
  of_tasks (fun node hnode => ⟨node, h.nodes ▸ hnode, rfl⟩) (h.dataSources ▸ List.prefix_rfl)
    (h.qcRules ▸ List.prefix_rfl) h.serial.ge h.tasks h.taskQcRules

/-- A configuration that stays has grown. -/
theorem refl (db : Database) : Grows R db db := of_keeps (.refl db)

/-- A rollback keeps the configuration. -/
theorem rollback (before after : Database) : Grows R before (before.rollback after) :=
  of_tasks (fun node hnode => ⟨node, hnode, rfl⟩) List.prefix_rfl List.prefix_rfl
    (le_max_left _ _) (.refl .refl _) rfl

/-- A statement beside tasks lets the configuration grow. -/
theorem of_besideTasks (stores : StoresText pg) (codes : Coded pg db)
    {statement : ConfigStatement α} (allowed : statement.IsBesideTasks) {answer : α}
    (h : statement.exec pg db = .ok (answer, db')) : Grows R db db' := by
  have hnodes := (ConfigStatement.exec_configures stores codes h).nodes
  cases statement with
  | insertTask record => exact allowed.elim
  | upsertTaskQcRule taskId qcRuleId sortOrder => exact allowed.elim
  | insertDataSource record =>
    simp only [ConfigStatement.exec, Database.insertDataSource, Answer.bind_eq_ok] at h
    obtain ⟨nodeCode, -, sourceType, -, name, -, configJson, -, h⟩ := h
    split at h
    · cases h
      exact .refl db
    · simp only [Answer.bind_eq_ok, stored_eq_ok] at h
      obtain ⟨⟨id, dataSources⟩, hdataSources, h⟩ := h
      cases h
      have hrows := (SerialTable.insert_eq_ok hdataSources).2.1
      exact of_tasks hnodes ⟨_, hrows.symm⟩ List.prefix_rfl le_rfl (.refl .refl _) rfl
  | insertRule record =>
    simp only [ConfigStatement.exec, Database.insertRule, Answer.bind_eq_ok, stored_eq_ok] at h
    obtain ⟨name, -, ruleType, -, ruleConfigJson, -, ⟨id, qcRules⟩, hqcRules, h⟩ := h
    cases h
    have hrows := (SerialTable.insert_eq_ok hqcRules).2.1
    exact of_tasks hnodes List.prefix_rfl ⟨_, hrows.symm⟩ le_rfl (.refl .refl _) rfl
  | upsertNode record =>
    simp only [ConfigStatement.exec, Database.upsertNode, Answer.bind_eq_ok] at h
    obtain ⟨nodeCode, -, name, -, agentVersion, -, lastHeartbeatAt, -, h⟩ := h
    split at h
    all_goals
      simp only [Answer.bind_eq_ok] at h
      obtain ⟨nodes, -, h⟩ := h
      cases h
      exact of_tasks hnodes List.prefix_rfl List.prefix_rfl le_rfl (.refl .refl _) rfl
  | _ => exact (Statement.reading_eq_ok.mp h).2 ▸ .refl _

end Grows

/-! ## Steps -/

/-- A stored task carries a key below the next one. -/
theorem taskId_ne_of_creates {request : ManagementTaskCreateRequest} {row task : TaskRow}
    {rules : List RowId} (h : CreatesTask R request db row rules db')
    (htask : task ∈ db.tasks.rows) : task.id ≠ row.id := by
  intro heq
  have hbelow := db.tasks.below task htask
  rw [heq, h.id] at hbelow
  exact lt_irrefl _ hbelow

/-- No stored binding belongs to a created task. -/
theorem binding_ne_of_creates {request : ManagementTaskCreateRequest} {row : TaskRow}
    {rules : List RowId} (hdb : TasksExecutable R db) (h : CreatesTask R request db row rules db') :
    ∀ binding ∈ db.taskQcRules, binding.taskId ≠ row.id := by
  intro binding hbinding heq
  obtain ⟨task, htask, hid⟩ := hdb.bindings binding hbinding
  exact taskId_ne_of_creates h htask (hid.trans heq)

/-- A created task has the rules that were asked for, in the order of the last places that name
them. -/
theorem orderedQcRules_of_creates {request : ManagementTaskCreateRequest} {row : TaskRow}
    {rules : List RowId} (hdb : TasksExecutable R db) (h : CreatesTask R request db row rules db') :
    (db'.orderedQcRules row.id).map TaskQcRuleRow.qcRuleId = rules.dedup :=
  orderedQcRules_bindingsFrom (binding_ne_of_creates hdb h) h.bindings

/-- A created task can be executed. -/
theorem executableTask_of_creates {request : ManagementTaskCreateRequest} {row : TaskRow}
    {rules : List RowId} (hdb : TasksExecutable R db) (h : CreatesTask R request db row rules db') :
    ExecutableTask R db' row := by
  have horder := orderedQcRules_of_creates hdb h
  have hlength : (db'.orderedQcRules row.id).length = rules.dedup.length := by
    rw [← horder, List.length_map]
  have hnodes : db'.nodes = db.nodes := by rw [h.elsewhere]
  have hdataSources : db'.dataSources = db.dataSources := by rw [h.elsewhere]
  have hqcRules : db'.qcRules = db.qcRules := by rw [h.elsewhere]
  exact {
    positive := h.id ▸ hdb.serial
    taskType := h.taskType
    parserType := h.parserType
    schedule := h.schedule
    node := by
      rw [hnodes]
      exact h.node
    source := by
      unfold Database.SourceFor
      rw [hdataSources]
      exact h.source
    rules := by
      intro binding hbinding
      have hrule : binding.qcRuleId ∈ rules := by
        rw [← List.mem_dedup, ← horder]
        exact List.mem_map_of_mem hbinding
      unfold Database.RuleFor
      rw [hqcRules]
      exact h.executable _ hrule
    count := by
      rw [hlength]
      refine ⟨List.length_pos_of_ne_nil fun hnil => h.count.1 (List.dedup_eq_nil _ |>.mp hnil), ?_⟩
      exact (List.dedup_sublist rules).length_le.trans h.count.2 }

/-- Creating a task lets the configuration grow. -/
theorem grows_of_creates {request : ManagementTaskCreateRequest} {row : TaskRow}
    {rules : List RowId} (hdb : TasksExecutable R db) (h : CreatesTask R request db row rules db') :
    Grows R db db' where
  nodes := by
    rw [h.elsewhere]
    exact fun node hnode => ⟨node, hnode, rfl⟩
  dataSources := h.elsewhere ▸ List.prefix_rfl
  qcRules := h.elsewhere ▸ List.prefix_rfl
  serial := by
    rw [h.serial]
    exact Nat.le_succ _
  tasks := by
    rw [h.rows]
    apply Evolves.of_append .refl
    intro task htask old hold
    rw [List.mem_singleton.mp htask]
    exact taskId_ne_of_creates h hold
  executable := by
    rw [h.rows]
    intro task htask
    rcases List.mem_append.mp htask with htask | htask
    · exact .inl ⟨task, htask, .refl task⟩
    · rw [List.mem_singleton.mp htask]
      exact .inr (executableTask_of_creates hdb h)
  taskQcRules := by
    refine ⟨(bindingsFrom row.id 0 rules).foldl (upsert Database.bindingKey) [], ?_, ?_⟩
    · rw [h.bindings, foldl_upsert_bindingsFrom (binding_ne_of_creates hdb h)]
    · intro binding hbinding
      rcases mem_foldl_upsert hbinding with hbinding | hbinding
      · cases hbinding
      · obtain ⟨htask, -⟩ := mem_bindingsFrom hbinding
        refine ⟨fun old hold => htask ▸ taskId_ne_of_creates h hold, row, ?_, htask.symm⟩
        rw [h.rows]
        exact List.mem_append_right _ (List.mem_singleton_self row)

/-- A call lets the configuration grow. -/
theorem Call.grows (call : Call) (session : Session) (db : Database) :
    Grows R db (call.serve R session db).2 := by
  rcases hserve : (call.serve R session db).1 with stop | reply
  · obtain ⟨reached, hreached⟩ := Tx.rollback_of_execute_error hserve
    exact Eq.symm hreached ▸ .rollback db reached
  · exact .of_keeps (Tx.yields_of_execute hserve).keepsConfiguration

/-- A statement beside tasks lets the configuration grow. -/
theorem grows_of_answer (stores : StoresText pg) (codes : Coded pg db)
    {statement : ControlStatement α} (allowed : BesideTasks α statement) {answer : α}
    (h : (controlStore pg session).answer _ statement db = .ok (answer, db')) :
    Grows R db db' := by
  cases statement with
  | inl statement =>
    rw [Statement.IsRead.exec_eq allowed (answer_inl.mp h)]
    exact .refl db
  | inr statement => exact .of_besideTasks stores codes allowed (answer_inr.mp h)

/-- A transaction beside tasks lets the configuration grow. -/
theorem grows_of_execute (stores : StoresText pg) (codes : Coded pg db) {tx : ControlTx α}
    (calls : tx.Calls BesideTasks) (lost : Stop) (fault : Option ℕ) :
    Grows R db ((controlStore pg session).execute tx lost fault db).2 := by
  have hrelated : Coded pg db →
      Coded pg ((controlStore pg session).execute tx lost fault db).2 ∧
        Grows R db ((controlStore pg session).execute tx lost fault db).2 := by
    apply Store.execute_related calls fun before after =>
      Coded pg before → Coded pg after ∧ Grows R before after
    · exact fun before coded => ⟨coded, .refl before⟩
    · intro first second third hfirst hsecond coded
      obtain ⟨hmiddle, hgrows⟩ := hfirst coded
      exact ⟨(hsecond hmiddle).1, hgrows.trans (hsecond hmiddle).2⟩
    · intro γ statement before after answer allowed answered coded
      exact ⟨(configures_of_answer stores coded allowed.configuring answered).codes,
        grows_of_answer stores coded allowed answered⟩
    · exact fun _ coded => ⟨coded, .rollback _ _⟩
  exact (hrelated codes).2

/-- A command lets the configuration grow. -/
theorem Command.grows (stores : StoresText R.postgres) (codes : Coded R.postgres db)
    (hdb : TasksExecutable R db) (command : Command) (session : Session) :
    Grows R db (command.serve R session db).2 := by
  cases command with
  | createDataSource request =>
    have hcalls : ((Command.createDataSource request).transaction R).Calls BesideTasks :=
      Program.Calls.bind (ManagementCommandService.createDataSource_besideTasks request)
        fun _ => trivial
    exact grows_of_execute stores codes hcalls _ _
  | createQcRule request =>
    have hcalls : ((Command.createQcRule request).transaction R).Calls BesideTasks :=
      Program.Calls.bind (ManagementCommandService.createQcRule_besideTasks request)
        fun _ => trivial
    exact grows_of_execute stores codes hcalls _ _
  | createTask request =>
    unfold Command.serve
    rcases Store.execute_cases ((Command.createTask request).transaction R) (.failed .outage)
      session.fault db with ⟨error, reached, hserve⟩ | ⟨reply, reached, hserve, h⟩
    · rw [hserve]
      exact .rollback db reached
    · rw [hserve]
      obtain ⟨result, created, hcreate, hreply⟩ := Store.yields_bind.mp h
      obtain ⟨row, rules, hcreates, -⟩ := yields_createTask hcreate
      exact (Store.yields_pure.mp hreply).2 ▸ grows_of_creates hdb hcreates

/-- A step of the control plane lets the configuration grow. -/
theorem ControlStep.grows {before after : ControlState} (stores : StoresText R.postgres)
    (codes : Coded R.postgres before.db) (hdb : TasksExecutable R before.db)
    (besideTasks : InFlightBesideTasks before) (step : ControlStep R before after) :
    Grows R before.db after.db := by
  cases step with
  | call call session => exact call.grows session before.db
  | command command session => exact command.grows stores codes hdb session
  | arrive request => exact .refl before.db
  | @advance left right program next db session split advances =>
    have hprogram : program.Calls BesideTasks := besideTasks program (by simp [split])
    cases advances with
    | call answered =>
      exact grows_of_answer stores codes hprogram.1 (Store.handler_eq_ok.mp answered)
  | leave split => exact .refl before.db

/-- A run of the control plane lets the configuration grow and keeps the tasks executable. -/
theorem ControlSteps.grows {before after : ControlState} (stores : StoresText R.postgres)
    (reachable : Reachable R before.db) (besideTasks : InFlightBesideTasks before)
    (hdb : TasksExecutable R before.db) (run : ControlSteps R before after) :
    Grows R before.db after.db ∧ TasksExecutable R after.db := by
  induction run with
  | refl => exact ⟨.refl _, hdb⟩
  | tail hrun hstep ih =>
    obtain ⟨hgrows, hexecutable⟩ := ih
    obtain ⟨hsteps, hbeside⟩ := ControlSteps.refines stores reachable besideTasks hrun
    have hmiddle : Reachable R _ := reachable.trans hsteps
    have hstep := hstep.grows stores hmiddle.sound.codes hexecutable hbeside
    exact ⟨hgrows.trans hstep, hstep.tasksExecutable hexecutable⟩

/-- The tasks of a reachable state can be executed. -/
theorem ControlReachable.tasksExecutable {state : ControlState} (stores : StoresText R.postgres)
    (h : ControlReachable R state) : TasksExecutable R state.db := by
  have hinitial : Reachable R ControlState.initial.db := .refl
  have hbeside : InFlightBesideTasks .initial := by
    simp [InFlightBesideTasks, ControlState.initial]
  exact (ControlSteps.grows stores hinitial hbeside tasksExecutable_empty h).2

/-! ## What follows for operators -/

/-- The numeral of a positive key is accepted as an identifier. -/
theorem isPositiveId_decimal {id : RowId} (h : 0 < (id : ℕ)) : isPositiveId (decimal id) = true := by
  have hdigits : (decimal id).all (fun b => decide (IsDigit b)) = true := by
    simpa using fun b hb => isDigit_of_mem_decimal hb
  rw [isPositiveId, hdigits, numeralValue_decimal]
  simp [h, decimal_ne_nil]

/-- The identifiers of bound rules name them. -/
theorem names_bindings (bindings : List TaskQcRuleRow) :
    pg.Names (bindings.map fun binding => decimal binding.qcRuleId)
      (bindings.map TaskQcRuleRow.qcRuleId) := by
  apply List.forall₂_map_left_iff.mpr
  apply List.forall₂_map_right_iff.mpr
  apply List.forall₂_same.mpr
  exact fun binding _ => pg.idParam_decimal binding.qcRuleId

/-- A task that can be executed passes the checks on its enabling. -/
theorem yields_validate_of_executable (codes : Coded R.postgres db) {task : TaskRow}
    (h : ExecutableTask R db task) :
    Tx.Yields R.postgres session (validateTaskExecutable R (Database.toTaskRecord task)
      ((db.orderedQcRules task.id).map fun binding => decimal binding.qcRuleId)) db () db := by
  obtain ⟨node, hnode, hcode⟩ := h.node
  have hreceived : R.postgres.receive task.nodeCode = some task.nodeCode := by
    rw [← hcode]
    exact codes node hnode
  apply yields_validateTaskExecutable.mpr
  refine ⟨rfl, ⟨_, hreceived, node, hnode, hcode⟩,
    ⟨task.dataSourceId, R.postgres.idParam_decimal _, h.source⟩, _, names_bindings _, ?_⟩
  intro rule hrule
  obtain ⟨binding, hbinding, rfl⟩ := List.mem_map.mp hrule
  exact h.rules binding hbinding

/-- Switching a task on stores it so. -/
theorem updateTaskEnabled_decimal (pg : Postgres) (db : Database) (id : RowId) (enabled : Bool) :
    ∃ tasks, db.updateTaskEnabled pg (decimal id) enabled = .ok ((), { db with tasks := tasks }) ∧
      (∀ key, tasks.find? key = (db.tasks.find? key).map fun task =>
        if some task.id == some id then { task with enabled := enabled } else task) ∧
      tasks.rows = db.tasks.rows.map fun task =>
        if some task.id == some id then { task with enabled := enabled } else task := by
  have hupdate : ∃ tasks, db.tasks.update (fun task => some task.id == some id)
      (fun task => { task with enabled := enabled }) (fun _ => rfl) = some tasks :=
    SerialTable.update_isSome fun _ _ _ => rfl
  obtain ⟨tasks, htasks⟩ := hupdate
  refine ⟨tasks, ?_, SerialTable.find?_update htasks, (SerialTable.update_eq_some htasks).1⟩
  rw [Database.updateTaskEnabled, Postgres.idParam_decimal, Answer.ok_bind, htasks]
  rfl

/-- Enabling a task that can be executed enables it. -/
theorem yields_setTaskEnabled (codes : Coded R.postgres db) {task : TaskRow}
    (htask : task ∈ db.tasks.rows) (h : ExecutableTask R db task) :
    ∃ tasks, (tasks.rows = db.tasks.rows.map fun other =>
        if some other.id == some task.id then { other with enabled := true } else other) ∧
      Tx.Yields R.postgres session (setTaskEnabled R (decimal task.id) true) db
        ⟨Database.toTaskRecord { task with enabled := true },
          (db.orderedQcRules task.id).map fun binding => decimal binding.qcRuleId⟩
        { db with tasks := tasks } := by
  obtain ⟨tasks, hupdate, hfind, hrows⟩ :=
    updateTaskEnabled_decimal R.postgres db task.id true
  refine ⟨tasks, hrows, ?_⟩
  have hfound : db.tasks.find? task.id = some task := SerialTable.find?_key htask
  have hlocked : db.selectTaskForUpdate R.postgres (decimal task.id) = .ok true := by
    rw [Database.selectTaskForUpdate, Postgres.idParam_decimal, Answer.ok_bind, Option.bind_some,
      hfound]
    rfl
  have hselect : db.selectTask R.postgres (decimal task.id) =
      .ok (some (Database.toTaskRecord task)) := by
    rw [selectTask_decimal, hfound]
    rfl
  have hupdated : ({ db with tasks := tasks } : Database).selectTask R.postgres (decimal task.id) =
      .ok (some (Database.toTaskRecord { task with enabled := true })) := by
    rw [selectTask_decimal, hfind, hfound, Option.map_some, if_pos (by simp)]
    rfl
  unfold setTaskEnabled
  rw [Tx.yields_unless_refuse]
  refine ⟨by simp [isPositiveId_decimal h.positive], ?_⟩
  apply Tx.yields_sql_bind.mpr
  refine ⟨true, db, Statement.reading_eq_ok.mpr ⟨hlocked, rfl⟩, ?_⟩
  rw [Tx.yields_unless_refuse]
  refine ⟨by simp, ?_⟩
  apply Tx.yields_sql_bind.mpr
  refine ⟨_, db, Statement.reading_eq_ok.mpr ⟨hselect, rfl⟩, ?_⟩
  simp only [if_true]
  apply Tx.yields_sql_bind.mpr
  refine ⟨_, db, Statement.reading_eq_ok.mpr ⟨selectTaskQcRuleIds_decimal task.id, rfl⟩, ?_⟩
  apply Tx.yields_bind.mpr
  refine ⟨(), db, yields_validate_of_executable codes h, ?_⟩
  apply Tx.yields_sql_bind.mpr
  refine ⟨(), _, hupdate, ?_⟩
  apply Tx.yields_sql_bind.mpr
  refine ⟨_, _, Statement.reading_eq_ok.mpr ⟨hupdated, rfl⟩, ?_⟩
  apply Tx.yields_sql_bind.mpr
  refine ⟨_, _, Statement.reading_eq_ok.mpr ⟨selectTaskQcRuleIds_decimal task.id, rfl⟩, ?_⟩
  exact Tx.yields_pure.mpr ⟨rfl, rfl⟩

namespace Reference

/-- A collection task on the directory, with the rule. -/
def collection : ManagementTaskCreateRequest where
  nodeCode := text "lab-node"
  dataSourceId := text "1"
  name := text "Collect"
  taskType := text "local_file_import"
  scheduleExpr := text "*/5 * * * *"
  parserType := text "csv_observation"
  qcProfile := text "default"
  qcRuleIds := [text "1"]

/-- The collection task as it is answered. -/
def collected : ManagementTaskResult where
  task := {
    id := text "1"
    nodeCode := text "lab-node"
    dataSourceId := text "1"
    name := text "Collect"
    taskType := text "local_file_import"
    scheduleExpr := text "*/5 * * * *"
    parserType := text "csv_observation"
    qcProfile := text "default"
    enabled := true }
  qcRuleIds := [text "1"]

/-- The tables of a node with a collection task. -/
def collecting : Database := commanded [directory, fields, .createTask collection]

/-- The task of the node. -/
def collectingTask : TaskRow :=
  { task with taskType := text "local_file_import", parserType := text "csv_observation" }

/-- The node with its task is reached. -/
theorem reachable_collecting : ControlReachable runtime ⟨collecting, []⟩ :=
  run_registered.trans (run_commanded _)

end Reference

/-- In every state the control plane reaches, every stored task can be executed, and on a healthy
connection an operator can enable it, whatever happened since it was created or disabled. -/
theorem stored_tasks_executable (stores : StoresText R.postgres) {state : ControlState}
    (reachable : ControlReachable R state) {task : TaskRow} (htask : task ∈ state.db.tasks.rows)
    {session : Session} (healthy : session.fault = none) :
    ExecutableTask R state.db task ∧
      ∃ tasks, (tasks.rows = state.db.tasks.rows.map fun other =>
          if some other.id == some task.id then { other with enabled := true } else other) ∧
        (Call.setEnabled (decimal task.id) true).serve R session state.db =
          (.ok (.task ⟨Database.toTaskRecord { task with enabled := true },
            (state.db.orderedQcRules task.id).map fun binding => decimal binding.qcRuleId⟩),
            { state.db with tasks := tasks }) := by
  have hexecutable := (reachable.tasksExecutable stores).tasks task htask
  obtain ⟨tasks, hrows, hyields⟩ := yields_setTaskEnabled (reachable.refines stores).1.sound.codes
    htask hexecutable
  refine ⟨hexecutable, tasks, hrows, Tx.execute_of_yields healthy ?_⟩
  exact Tx.yields_bind.mpr ⟨_, _, hyields, Tx.yields_pure.mpr ⟨rfl, rfl⟩⟩

/-- The collection task can be executed and enabled. -/
theorem stored_tasks_executable_collecting :
    Reference.collectingTask ∈ Reference.collecting.tasks.rows ∧
      ExecutableTask Reference.runtime Reference.collecting Reference.collectingTask := by
  have hmem : Reference.collectingTask ∈ Reference.collecting.tasks.rows := by decide +kernel
  have hhealthy : (Session.first Reference.now).fault = none := rfl
  exact ⟨hmem, (stored_tasks_executable Reference.storesText Reference.reachable_collecting hmem
    hhealthy).1⟩

/-- A task that was created stays what was asked for: its node, its data source, its schedule and
its rules, in the order of the last places that name them, whatever happens later. -/
theorem created_task_kept (stores : StoresText R.postgres) {before after : ControlState}
    (reachable : ControlReachable R before) {request : ManagementTaskCreateRequest}
    {session : Session} {result : ManagementTaskResult} {created : Database}
    (served : (Command.createTask request).serve R session before.db =
      (.ok (.task result), created))
    (run : ControlSteps R { before with db := created } after) :
    ∃ (row : TaskRow) (rules : List RowId) (enabled : Bool),
      CreatesTask R request before.db row rules created ∧
        (∀ old ∈ before.db.tasks.rows, old.id ≠ row.id) ∧
        result = ⟨Database.toTaskRecord row, rules.dedup.map fun rule : RowId => decimal rule⟩ ∧
        { row with enabled := enabled } ∈ after.db.tasks.rows ∧
        (after.db.orderedQcRules row.id).map TaskQcRuleRow.qcRuleId = rules.dedup := by
  obtain ⟨hreachable, hbeside⟩ := reachable.refines stores
  have hdb := reachable.tasksExecutable stores
  rcases Store.execute_cases ((Command.createTask request).transaction R) (.failed .outage)
    session.fault before.db with ⟨error, reached, hserve⟩ | ⟨reply, reached, hserve, h⟩
  · cases served.symm.trans hserve
  · obtain ⟨hreply, hreached⟩ := Prod.mk.inj (served.symm.trans hserve)
    obtain ⟨answer, stored, hcreate, hanswer⟩ := Store.yields_bind.mp h
    obtain ⟨hresult, hstored⟩ := Store.yields_pure.mp hanswer
    have hsame : answer = result :=
      CommandReply.task.inj (hresult.trans (Except.ok.inj hreply).symm)
    rw [hsame, hstored, ← hreached] at hcreate
    obtain ⟨row, rules, hcreates, hanswered⟩ := yields_createTask hcreate
    have hstep : ControlSteps R before { before with db := created } := by
      have hcommand : ControlStep R before { before with
          db := ((Command.createTask request).serve R session before.db).2 } :=
        .command (.createTask request) session
      rw [served] at hcommand
      exact .single hcommand
    obtain ⟨hsteps, hbeside'⟩ := ControlSteps.refines stores hreachable hbeside hstep
    obtain ⟨-, hcreated⟩ := ControlSteps.grows stores hreachable hbeside hdb hstep
    have hmiddle : Reachable R created := hreachable.trans hsteps
    obtain ⟨hgrows, -⟩ := ControlSteps.grows stores hmiddle hbeside' hcreated run
    have hrow : row ∈ created.tasks.rows := by
      rw [hcreates.rows]
      exact List.mem_append_right _ (List.mem_singleton_self row)
    have horder := orderedQcRules_of_creates hdb hcreates
    obtain ⟨moved, hmoved, enabled, rfl⟩ := hgrows.tasks.exists_moved hrow
    refine ⟨row, rules, enabled, hcreates, fun old hold => taskId_ne_of_creates hcreates hold, ?_,
      hmoved, ?_⟩
    · rw [hanswered, ← horder, List.map_map]
      rfl
    · rw [hgrows.orderedQcRules hrow, horder]

/-- The collection task stays as it was created when it is disabled. -/
theorem created_task_kept_disabled :
    ∃ (row : TaskRow) (rules : List RowId) (enabled : Bool),
      { row with enabled := enabled } ∈ ((Call.setEnabled (text "1") false).serve Reference.runtime
        (.first Reference.now) Reference.collecting).2.tasks.rows ∧
      Reference.collected.qcRuleIds = rules.dedup.map fun rule : RowId => decimal rule := by
  have hserved : (Command.createTask Reference.collection).serve Reference.runtime
      (.first Reference.now) (Reference.commanded [Reference.directory, Reference.fields]) =
        (.ok (.task Reference.collected), Reference.collecting) :=
    Prod.ext (by decide +kernel) rfl
  have hreachable : ControlReachable Reference.runtime
      ⟨Reference.commanded [Reference.directory, Reference.fields], []⟩ :=
    Reference.run_registered.trans (Reference.run_commanded _)
  obtain ⟨row, rules, enabled, -, -, hresult, hrow, -⟩ := created_task_kept Reference.storesText
    hreachable hserved (.single (.call (.setEnabled (text "1") false) (.first Reference.now)))
  exact ⟨row, rules, enabled, hrow, by rw [hresult]⟩

end LabBridge.Server
