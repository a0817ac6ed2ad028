import LabBridge.Server.ControlPlane
import LabBridge.Server.EvidenceOwners
import LabBridge.Server.Reference
import LabBridge.Server.StatementFrames

/-!
# The control plane as a system

Calls and commands are transactions. The requests of nodes are not: any number of them are on
their way at once, and each statement takes effect when it is issued. The configuration steps of
the abstract server are what commands, registrations and heartbeats do, so the system refines it.
-/

namespace LabBridge.Server

open ByteText LabBridge.Core Storage Interaction

variable (R : Runtime)

/-- A text that a column keeps arrives as it is kept: a column cuts a text between characters. -/
structure StoresText (pg : Postgres) : Prop where
  varchar : ∀ {limit : ℕ} {value stored : Bytes}, pg.receive value = some value →
    pg.varchar limit value = some stored → pg.receive stored = some stored

/-- The commands of an operator that create objects. -/
inductive Command
  | createDataSource (request : ManagementDataSourceCreateRequest)
  | createQcRule (request : ManagementQcRuleCreateRequest)
  | createTask (request : ManagementTaskCreateRequest)

/-- The results of commands. -/
inductive CommandReply
  | dataSource (record : DataSourceRecord)
  | qcRule (record : QcRuleRecord)
  | task (result : ManagementTaskResult)
  deriving DecidableEq

/-- The transaction that serves a command. -/
def Command.transaction : Command → ControlTx CommandReply
  | createDataSource request => do
    pure (.dataSource (← ManagementCommandService.createDataSource R request))
  | createQcRule request => do pure (.qcRule (← ManagementCommandService.createQcRule R request))
  | createTask request => do pure (.task (← ManagementCommandService.createTask R request))

/-- Serve a command: commit when it ends with a result, roll back otherwise. -/
def Command.serve (command : Command) (session : Session) (db : Database) :
    Except Stop CommandReply × Database :=
  (controlStore R.postgres session).execute (command.transaction R) (.failed .outage) session.fault
    db

/-- The requests of a node that are not transactions. -/
inductive NodeRequest
  | register (node : NodeInfo)
  | heartbeat (beat : NodeHeartbeat)
  | config (nodeCode : Bytes)

/-- The results of such requests. -/
inductive NodeReply
  | done
  | config (result : AgentConfigResult)
  deriving DecidableEq

/-- What serves a request of a node. -/
def NodeRequest.program : NodeRequest → ControlTx NodeReply
  | register node => do
    NodeService.registerNode node
    pure .done
  | heartbeat beat => do
    NodeService.acceptHeartbeat beat
    pure .done
  | config nodeCode => do pure (.config (← AgentControlService.findConfig R nodeCode))

/-- The tables with the requests of nodes on their way. -/
structure ControlState where
  db : Database
  inFlight : List (ControlTx NodeReply)

/-- A step: a call or a command is served, a request of a node arrives, issues its next
statement, or is answered, refused or lost. -/
inductive ControlStep (before : ControlState) : ControlState → Prop
  | call (call : Call) (session : Session) :
      ControlStep before { before with db := (call.serve R session before.db).2 }
  | command (command : Command) (session : Session) :
      ControlStep before { before with db := (command.serve R session before.db).2 }
  | arrive (request : NodeRequest) :
      ControlStep before { before with inFlight := before.inFlight ++ [request.program R] }
  | advance {left right : List (ControlTx NodeReply)} {program next : ControlTx NodeReply}
      {db : Database} (session : Session) (split : before.inFlight = left ++ program :: right)
      (advances : Program.Advances (controlStore R.postgres session).handler program before.db
        next db) :
      ControlStep before ⟨db, left ++ next :: right⟩
  | leave {left right : List (ControlTx NodeReply)} {program : ControlTx NodeReply}
      (split : before.inFlight = left ++ program :: right) :
      ControlStep before ⟨before.db, left ++ right⟩

/-- The fresh schema, with nothing on its way. -/
def ControlState.initial : ControlState := ⟨.empty, []⟩

/-- A run of the control plane. -/
def ControlSteps : ControlState → ControlState → Prop := Relation.ReflTransGen (ControlStep R)

/-- A state the control plane can reach. -/
def ControlReachable (state : ControlState) : Prop := ControlSteps R .initial state

/-! ## What is issued on the configuration -/

/-- The statements on nodes, data sources and rules. -/
def ConfigStatement.IsBesideTasks : {α : Type} → ConfigStatement α → Prop
  | _, .insertTask _ => False
  | _, .upsertTaskQcRule _ _ _ => False
  | _, _ => True

/-- What may be issued without touching tasks: reads, and statements beside tasks. -/
def BesideTasks : (α : Type) → ControlStatement α → Prop
  | _, .inl statement => statement.IsRead
  | _, .inr statement => statement.IsBesideTasks

/-- What may be issued on nodes and configuration. -/
def Configuring : (α : Type) → ControlStatement α → Prop
  | _, .inl statement => statement.IsRead
  | _, .inr _ => True

/-- What is issued beside tasks is issued on nodes and configuration. -/
theorem BesideTasks.configuring {α : Type} {statement : ControlStatement α}
    (h : BesideTasks α statement) : Configuring α statement := by
  cases statement with
  | inl statement => exact h
  | inr statement => trivial

variable {R} {pg : Postgres} {session : Session} {db db' : Database} {α : Type}

open ControlTx

namespace ManagementCommandService

variable {allowed : ∀ γ : Type, ControlStatement γ → Prop}

/-- A record that is read may be missing. -/
theorem calls_successfulResult (found : Option α) : (successfulResult found).Calls allowed := by
  cases found <;> trivial

/-- An identifier may be missing. -/
theorem calls_createdId (failure : String) (found : Option Bytes) :
    (createdId failure found).Calls allowed := by
  cases found <;> trivial

/-- Creating a data source touches no task. -/
theorem createDataSource_besideTasks (request : ManagementDataSourceCreateRequest) :
    (createDataSource R request).Calls BesideTasks := by
  apply calls_unless_deny
  apply calls_unless_deny
  split
  · trivial
  · split
    · trivial
    · apply calls_unless_deny
      apply Program.Calls.bind (calls_sql trivial)
      intro node
      cases node with
      | none => trivial
      | some node =>
        apply Program.Calls.bind (calls_issue trivial)
        intro answer
        apply Program.Calls.bind (calls_createdId _ _)
        intro id
        exact Program.Calls.bind (calls_sql trivial) calls_successfulResult

/-- Creating a rule touches no task. -/
theorem createQcRule_besideTasks (request : ManagementQcRuleCreateRequest) :
    (createQcRule R request).Calls BesideTasks := by
  unfold createQcRule
  split
  · trivial
  · apply calls_unless_deny
    apply calls_unless_deny
    apply Program.Calls.bind (calls_issue trivial)
    intro answer
    apply Program.Calls.bind (calls_createdId _ _)
    intro id
    exact Program.Calls.bind (calls_sql trivial) calls_successfulResult

/-- Binding rules configures. -/
theorem bindRules_configuring (taskId : Bytes) (index : ℕ) (qcRuleIds : List Bytes) :
    (bindRules taskId index qcRuleIds).Calls Configuring := by
  induction qcRuleIds generalizing index with
  | nil => trivial
  | cons qcRuleId rest ih => exact Program.Calls.bind (calls_issue trivial) fun _ => ih _

/-- Creating a task reads and configures. -/
theorem createTask_configuring (request : ManagementTaskCreateRequest) :
    (createTask R request).Calls Configuring := by
  unfold createTask
  split
  · trivial
  · apply Program.Calls.bind (calls_onRuns (validateTaskExecutable_reads _ _))
    intro _
    apply Program.Calls.bind (calls_issue trivial)
    intro answer
    apply Program.Calls.bind (calls_createdId _ _)
    intro id
    apply Program.Calls.bind (bindRules_configuring _ _ _)
    intro _
    apply Program.Calls.bind (calls_sql trivial)
    intro task
    cases task with
    | none => trivial
    | some task => exact Program.Calls.bind (calls_sql trivial) fun _ => trivial

end ManagementCommandService

/-- A command reads and configures. -/
theorem Command.transaction_configuring (command : Command) :
    (command.transaction R).Calls Configuring := by
  cases command with
  | createDataSource request =>
    exact Program.Calls.bind ((ManagementCommandService.createDataSource_besideTasks request).mono
      fun _ _ => BesideTasks.configuring) fun _ => trivial
  | createQcRule request =>
    exact Program.Calls.bind ((ManagementCommandService.createQcRule_besideTasks request).mono
      fun _ _ => BesideTasks.configuring) fun _ => trivial
  | createTask request =>
    exact Program.Calls.bind (ManagementCommandService.createTask_configuring request)
      fun _ => trivial

/-- A request of a node touches no task. -/
theorem NodeRequest.program_besideTasks (request : NodeRequest) :
    (request.program R).Calls BesideTasks := by
  cases request with
  | register node =>
    refine Program.Calls.bind ?_ fun _ => trivial
    exact calls_unless_deny (calls_unless_deny (calls_issue trivial))
  | heartbeat beat =>
    refine Program.Calls.bind ?_ fun _ => trivial
    apply calls_unless_deny
    apply calls_unless_deny
    apply Program.Calls.bind (calls_sql trivial)
    intro node
    cases node with
    | none => trivial
    | some node => exact calls_issue trivial
  | config nodeCode =>
    refine Program.Calls.bind ?_ fun _ => trivial
    apply calls_unless_deny
    apply Program.Calls.bind (calls_sql trivial)
    intro node
    cases node with
    | none => trivial
    | some node =>
      apply Program.Calls.bind (calls_issue trivial)
      intro tasks
      apply Program.Calls.bind (calls_issue trivial)
      intro sources
      apply Program.Calls.bind (calls_issue trivial)
      intro bindings
      exact Program.Calls.bind (calls_issue trivial) fun pending => trivial

/-! ## What the statements do to the tables -/

/-- The codes of nodes arrive as they are stored. -/
def Coded (pg : Postgres) (db : Database) : Prop :=
  ∀ node ∈ db.nodes.rows, pg.receive node.nodeCode = some node.nodeCode

namespace Configures

/-- Where nodes stay and tasks are added to registered nodes, configuration happened. -/
theorem of_rows (codes : Coded pg db) (nodes : db'.nodes = db.nodes)
    (tasks : ∃ added, db'.tasks.rows = db.tasks.rows ++ added ∧
      ∀ task ∈ added, ∃ node ∈ db.nodes.rows, node.nodeCode = task.nodeCode)
    (taskRuns : db'.taskRuns = db.taskRuns) (rawFiles : db'.rawFiles = db.rawFiles)
    (parsedRecords : db'.parsedRecords = db.parsedRecords)
    (qcResults : db'.qcResults = db.qcResults) (alerts : db'.alerts = db.alerts)
    (receipts : db'.receipts = db.receipts) : Configures pg db db' where
  codes := nodes ▸ codes
  nodes := fun node hnode => ⟨node, nodes ▸ hnode, rfl⟩
  tasks := nodes ▸ tasks
  taskRuns := taskRuns
  rawFiles := rawFiles
  parsedRecords := parsedRecords
  qcResults := qcResults
  alerts := alerts
  receipts := receipts

/-- Tables with codes of nodes that arrive are configured as they are. -/
theorem refl (codes : Coded pg db) : Configures pg db db :=
  of_rows codes rfl ⟨[], by simp, by simp⟩ rfl rfl rfl rfl rfl rfl

/-- Configuration after configuration is configuration. -/
theorem trans {a b c : Database} (first : Configures pg a b) (second : Configures pg b c) :
    Configures pg a c where
  codes := second.codes
  nodes := by
    intro node hnode
    obtain ⟨kept, hkept, hcode⟩ := first.nodes node hnode
    obtain ⟨same, hsame, hcode'⟩ := second.nodes kept hkept
    exact ⟨same, hsame, hcode'.trans hcode⟩
  tasks := by
    obtain ⟨added, hrows, hadded⟩ := first.tasks
    obtain ⟨more, hrows', hmore⟩ := second.tasks
    refine ⟨added ++ more, by rw [hrows', hrows, List.append_assoc], ?_⟩
    intro task htask
    rcases List.mem_append.mp htask with htask | htask
    · obtain ⟨node, hnode, hcode⟩ := hadded task htask
      obtain ⟨same, hsame, hcode'⟩ := second.nodes node hnode
      exact ⟨same, hsame, hcode'.trans hcode⟩
    · exact hmore task htask
  taskRuns := second.taskRuns.trans first.taskRuns
  rawFiles := second.rawFiles.trans first.rawFiles
  parsedRecords := second.parsedRecords.trans first.parsedRecords
  qcResults := second.qcResults.trans first.qcResults
  alerts := second.alerts.trans first.alerts
  receipts := second.receipts.trans first.receipts

/-- What is rolled back was configured. -/
theorem rollback (codes : Coded pg db) (h : Configures pg db db') :
    Configures pg db (db.rollback db') where
  codes := codes
  nodes := fun node hnode => ⟨node, hnode, rfl⟩
  tasks := ⟨[], by simp [Database.rollback], by simp⟩
  taskRuns := by simp [Database.rollback, h.taskRuns]
  rawFiles := by simp [Database.rollback, h.rawFiles]
  parsedRecords := by simp [Database.rollback, h.parsedRecords]
  qcResults := by simp [Database.rollback, h.qcResults]
  alerts := by simp [Database.rollback, h.alerts]
  receipts := by simp [Database.rollback, h.receipts]

end Configures

/-- A node under a code carries it. -/
theorem nodeByCode_eq_some {nodeCode : Bytes} {node : NodeRow}
    (h : db.nodeByCode nodeCode = some node) : node ∈ db.nodes.rows ∧ node.nodeCode = nodeCode :=
  ⟨List.mem_of_find?_eq_some h, by simpa using List.find?_some h⟩

/-- What a column keeps of a parameter arrives as it is kept. -/
theorem receive_varcharParam (stores : StoresText pg) {limit : ℕ} {value kept : Bytes}
    (h : pg.varcharParam limit value = .ok kept) : pg.receive kept = some kept := by
  simp only [Postgres.varcharParam, Postgres.textParam, Answer.bind_eq_ok, accepted_eq_ok] at h
  obtain ⟨received, hreceived, hkept⟩ := h
  exact stores.varchar (pg.receive_receive hreceived) hkept

/-- The upsert of a node configures. -/
theorem upsertNode_configures (stores : StoresText pg) (codes : Coded pg db)
    {record : NodeRecord} (h : db.upsertNode pg record = .ok ((), db')) : Configures pg db db' := by
  simp only [Database.upsertNode, Answer.bind_eq_ok] at h
  obtain ⟨nodeCode, hnodeCode, name, -, agentVersion, -, lastHeartbeatAt, -, h⟩ := h
  split at h
  · simp only [Answer.bind_eq_ok, accepted_eq_ok] at h
    obtain ⟨nodes, hnodes, h⟩ := h
    cases h
    have hcode (node : NodeRow) : (if node.nodeCode == nodeCode then
        { node with name, status := record.status, agentVersion, lastHeartbeatAt }
        else node).nodeCode = node.nodeCode := by
      split <;> rfl
    refine ⟨?_, ?_, ⟨[], by simp, by simp⟩, rfl, rfl, rfl, rfl, rfl, rfl⟩
    · intro node hnode
      obtain ⟨source, hsource, rfl⟩ := (SerialTable.mem_update hnodes).mp hnode
      rw [hcode]
      exact codes source hsource
    · intro node hnode
      exact ⟨_, (SerialTable.mem_update hnodes).mpr ⟨node, hnode, rfl⟩, hcode node⟩
  · simp only [Answer.bind_eq_ok, stored_eq_ok] at h
    obtain ⟨⟨id, nodes⟩, hnodes, h⟩ := h
    cases h
    refine ⟨?_, ?_, ⟨[], by simp, by simp⟩, rfl, rfl, rfl, rfl, rfl, rfl⟩
    · intro node hnode
      rw [(SerialTable.insert_eq_ok hnodes).2.1] at hnode
      rcases List.mem_append.mp hnode with hnode | hnode
      · exact codes node hnode
      · rw [List.mem_singleton.mp hnode]
        exact receive_varcharParam stores hnodeCode
    · intro node hnode
      exact ⟨node, SerialTable.mem_insert_of_mem hnodes hnode, rfl⟩

/-- Every statement on nodes and configuration configures. -/
theorem ConfigStatement.exec_configures (stores : StoresText pg) (codes : Coded pg db)
    {statement : ConfigStatement α} {answer : α}
    (h : statement.exec pg db = .ok (answer, db')) : Configures pg db db' := by
  cases statement with
  | insertDataSource record =>
    simp only [ConfigStatement.exec, Database.insertDataSource, Answer.bind_eq_ok] at h
    obtain ⟨nodeCode, -, sourceType, -, name, -, configJson, -, h⟩ := h
    split at h
    · cases h
      exact .refl codes
    · simp only [Answer.bind_eq_ok] at h
      obtain ⟨⟨id, dataSources⟩, -, h⟩ := h
      cases h
      exact .of_rows codes rfl ⟨[], by simp, by simp⟩ rfl rfl rfl rfl rfl rfl
  | insertRule record =>
    simp only [ConfigStatement.exec, Database.insertRule, Answer.bind_eq_ok] at h
    obtain ⟨name, -, ruleType, -, ruleConfigJson, -, ⟨id, qcRules⟩, -, h⟩ := h
    cases h
    exact .of_rows codes rfl ⟨[], by simp, by simp⟩ rfl rfl rfl rfl rfl rfl
  | insertTask record =>
    simp only [ConfigStatement.exec, Database.insertTask, Answer.bind_eq_ok] at h
    obtain ⟨nodeCode, -, dataSourceId, -, name, -, taskType, -, scheduleExpr, -, parserType, -,
      qcProfile, -, h⟩ := h
    split at h
    · cases h
      exact .refl codes
    · rename_i node hnode
      split at h
      · cases h
        exact .refl codes
      · simp only [Answer.bind_eq_ok, stored_eq_ok] at h
        obtain ⟨⟨id, tasks⟩, htasks, h⟩ := h
        cases h
        refine .of_rows codes rfl ⟨_, (SerialTable.insert_eq_ok htasks).2.1, ?_⟩ rfl rfl rfl rfl
          rfl rfl
        intro task htask
        rw [List.mem_singleton.mp htask]
        exact ⟨node, (nodeByCode_eq_some hnode).1, rfl⟩
  | upsertTaskQcRule taskId qcRuleId sortOrder =>
    simp only [ConfigStatement.exec, Database.upsertTaskQcRule, Answer.bind_eq_ok] at h
    obtain ⟨task, -, rule, -, h⟩ := h
    split at h
    · cases h
      exact .of_rows codes rfl ⟨[], by simp, by simp⟩ rfl rfl rfl rfl rfl rfl
    · cases h
  | upsertNode record => exact upsertNode_configures stores codes h
  | _ => exact (Statement.reading_eq_ok.mp h).2 ▸ .refl codes

/-- A statement that may be issued on the configuration configures. -/
theorem configures_of_answer (stores : StoresText pg) (codes : Coded pg db)
    {statement : ControlStatement α} (allowed : Configuring α statement) {answer : α}
    (h : (controlStore pg session).answer _ statement db = .ok (answer, db')) :
    Configures pg db db' := by
  cases statement with
  | inl statement =>
    rw [Statement.IsRead.exec_eq allowed (answer_inl.mp h)]
    exact .refl codes
  | inr statement => exact ConfigStatement.exec_configures stores codes (answer_inr.mp h)

/-! ## Refinement -/

/-- A transaction on the configuration configures, whether it is committed or rolled back. -/
theorem execute_configures (stores : StoresText pg) (codes : Coded pg db) {tx : ControlTx α}
    (calls : tx.Calls Configuring) (lost : Stop) (fault : Option ℕ) :
    Configures pg db ((controlStore pg session).execute tx lost fault db).2 :=
  Store.execute_related calls (fun before after => Coded pg before → Configures pg before after)
    (fun _ => .refl) (fun first second coded => (first coded).trans (second (first coded).codes))
    (fun allowed answered coded => configures_of_answer stores coded allowed answered)
    (fun h coded => .rollback coded (h coded)) lost fault db codes

/-- A request of a node that performs its next statement configures, and goes on as it may. -/
theorem advances_configures (stores : StoresText pg) (codes : Coded pg db)
    {program next : ControlTx α} (calls : program.Calls BesideTasks)
    (h : Program.Advances (controlStore pg session).handler program db next db') :
    Configures pg db db' ∧ next.Calls BesideTasks := by
  cases h with
  | call answered =>
    exact ⟨configures_of_answer stores codes (BesideTasks.configuring calls.1)
      (Store.handler_eq_ok.mp answered), calls.2 _⟩

/-- Two states with the same tasks, rule bindings, runs, receipts and evidence. -/
structure SameWork (before after : Database) : Prop where
  tasks : after.tasks = before.tasks
  taskQcRules : after.taskQcRules = before.taskQcRules
  taskRuns : after.taskRuns = before.taskRuns
  rawFiles : after.rawFiles = before.rawFiles
  parsedRecords : after.parsedRecords = before.parsedRecords
  qcResults : after.qcResults = before.qcResults
  alerts : after.alerts = before.alerts
  receipts : after.receipts = before.receipts

/-- Nothing changes. -/
theorem SameWork.refl (db : Database) : SameWork db db := by constructor <;> rfl

/-- A statement beside tasks leaves tasks, runs and evidence as they are. -/
theorem ConfigStatement.IsBesideTasks.sameWork {statement : ConfigStatement α} {answer : α}
    (allowed : statement.IsBesideTasks) (h : statement.exec pg db = .ok (answer, db')) :
    SameWork db db' := by
  cases statement with
  | insertDataSource record =>
    simp only [ConfigStatement.exec, Database.insertDataSource, Answer.bind_eq_ok] at h
    obtain ⟨nodeCode, -, sourceType, -, name, -, configJson, -, h⟩ := h
    split at h
    · cases h
      exact .refl db
    · simp only [Answer.bind_eq_ok] at h
      obtain ⟨⟨id, dataSources⟩, -, h⟩ := h
      cases h
      constructor <;> rfl
  | insertRule record =>
    simp only [ConfigStatement.exec, Database.insertRule, Answer.bind_eq_ok] at h
    obtain ⟨name, -, ruleType, -, ruleConfigJson, -, ⟨id, qcRules⟩, -, h⟩ := h
    cases h
    constructor <;> rfl
  | insertTask record => exact allowed.elim
  | upsertTaskQcRule taskId qcRuleId sortOrder => exact allowed.elim
  | upsertNode record =>
    simp only [ConfigStatement.exec, Database.upsertNode, Answer.bind_eq_ok] at h
    obtain ⟨nodeCode, -, name, -, agentVersion, -, lastHeartbeatAt, -, h⟩ := h
    split at h
    · simp only [Answer.bind_eq_ok] at h
      obtain ⟨nodes, -, h⟩ := h
      cases h
      constructor <;> rfl
    · simp only [Answer.bind_eq_ok] at h
      obtain ⟨⟨id, nodes⟩, -, h⟩ := h
      cases h
      constructor <;> rfl
  | _ => exact (Statement.reading_eq_ok.mp h).2 ▸ .refl db

/-- A request of a node that performs its next statement leaves tasks, runs and evidence as they
are. -/
theorem advances_sameWork {program next : ControlTx α} (calls : program.Calls BesideTasks)
    (h : Program.Advances (controlStore pg session).handler program db next db') :
    SameWork db db' := by
  cases h with
  | @call _ operation _ _ _ _ answered =>
    have hallowed : BesideTasks _ operation := calls.1
    have hanswer := Store.handler_eq_ok.mp answered
    cases operation with
    | inl statement =>
      rw [Statement.IsRead.exec_eq hallowed (answer_inl.mp hanswer)]
      exact .refl db
    | inr statement => exact hallowed.sameWork (answer_inr.mp hanswer)

/-- A state of the control plane in which what is on its way touches no task. -/
def InFlightBesideTasks (state : ControlState) : Prop :=
  ∀ program ∈ state.inFlight, program.Calls BesideTasks

/-- One step of the control plane is a step of the abstract server, or moves no table. -/
theorem ControlStep.refines {before after : ControlState} (stores : StoresText R.postgres)
    (reachable : Reachable R before.db) (besideTasks : InFlightBesideTasks before)
    (step : ControlStep R before after) :
    Steps R anyCall before.db after.db ∧ InFlightBesideTasks after := by
  have hcodes : Coded R.postgres before.db := reachable.sound.codes
  cases step with
  | call call session => exact ⟨.single (.serve call session trivial), besideTasks⟩
  | command command session =>
    exact ⟨.single (.configure (execute_configures stores hcodes
      command.transaction_configuring _ _)), besideTasks⟩
  | arrive request =>
    refine ⟨.refl, fun program hprogram => ?_⟩
    rcases List.mem_append.mp hprogram with hprogram | hprogram
    · exact besideTasks program hprogram
    · rw [List.mem_singleton.mp hprogram]
      exact request.program_besideTasks
  | @advance left right program next db session split advances =>
    have hprogram : program.Calls BesideTasks := besideTasks program (by simp [split])
    obtain ⟨hconfigures, hnext⟩ := advances_configures stores hcodes hprogram advances
    refine ⟨.single (.configure hconfigures), fun other hother => ?_⟩
    rcases List.mem_append.mp hother with hother | hother
    · exact besideTasks other (by simp [split, hother])
    · rcases List.mem_cons.mp hother with rfl | hother
      · exact hnext
      · exact besideTasks other (by simp [split, hother])
  | @leave left right program split =>
    refine ⟨.refl, fun other hother => besideTasks other ?_⟩
    rw [split]
    rcases List.mem_append.mp hother with hother | hother
    · exact List.mem_append_left _ hother
    · exact List.mem_append_right _ (List.mem_cons_of_mem _ hother)

/-- A run of the control plane is a run of the abstract server. -/
theorem ControlSteps.refines {before after : ControlState} (stores : StoresText R.postgres)
    (reachable : Reachable R before.db) (besideTasks : InFlightBesideTasks before)
    (run : ControlSteps R before after) :
    Steps R anyCall before.db after.db ∧ InFlightBesideTasks after := by
  induction run with
  | refl => exact ⟨.refl, besideTasks⟩
  | tail _ step ih =>
    obtain ⟨hsteps, hbesideTasks⟩ := ih
    obtain ⟨hstep, hafter⟩ := step.refines stores (reachable.trans hsteps) hbesideTasks
    exact ⟨hsteps.trans hstep, hafter⟩

/-- A reachable state of the control plane is reachable in the abstract server, and what is on
its way touches no task. -/
theorem ControlReachable.refines {state : ControlState} (stores : StoresText R.postgres)
    (h : ControlReachable R state) : Reachable R state.db ∧ InFlightBesideTasks state := by
  have hinitial : Reachable R ControlState.initial.db := .refl
  have hbesideTasks : InFlightBesideTasks .initial := by simp [InFlightBesideTasks, ControlState.initial]
  exact ControlSteps.refines stores hinitial hbesideTasks h

/-- The only request on its way may leave. -/
theorem ControlSteps.leave (program : ControlTx NodeReply) (db : Database) :
    ControlSteps R ⟨db, [program]⟩ ⟨db, []⟩ := by
  have hstep : ControlStep R ⟨db, [program]⟩ ⟨db, [] ++ []⟩ := .leave rfl
  exact .single hstep

/-- A request of a node that meets no other work is a run. -/
theorem ControlSteps.alone (session : Session) (program : ControlTx NodeReply) (db : Database) :
    ControlSteps R ⟨db, [program]⟩
      ⟨(program.run (controlStore R.postgres session).handler db).2, []⟩ := by
  induction program generalizing db with
  | ret value => exact ControlSteps.leave _ db
  | stop error => exact ControlSteps.leave _ db
  | call operation next ih =>
    rcases hanswer : (controlStore R.postgres session).handler _ operation db with
      ⟨error | answer, reached⟩
    · have hsame : reached = db := by
        rw [Store.handler] at hanswer
        split at hanswer
        · cases hanswer
        · cases hanswer
          rfl
      rw [Program.run_call_error _ hanswer, hsame]
      exact ControlSteps.leave _ db
    · rw [Program.run_call_ok _ hanswer]
      have hstep : ControlStep R ⟨db, [.call operation next]⟩ ⟨reached, [] ++ next answer :: []⟩ :=
        .advance session rfl (.call hanswer)
      exact .head hstep (ih answer reached)

/-- A run of the control plane is a run of the server from one of its reachable states, and what is
on its way in the end leaves tasks, runs and evidence as they are, whichever request issues its
next statement. -/
theorem control_plane_refines (stores : StoresText R.postgres) {before after : ControlState}
    (reachable : ControlReachable R before) (run : ControlSteps R before after) :
    Reachable R before.db ∧ Steps R anyCall before.db after.db ∧
      ∀ program ∈ after.inFlight, ∀ (session : Session) (next : ControlTx NodeReply)
        (db : Database), Program.Advances (controlStore R.postgres session).handler program after.db
          next db → SameWork after.db db := by
  obtain ⟨hbefore, hbeside⟩ := reachable.refines stores
  obtain ⟨hsteps, hafter⟩ := ControlSteps.refines stores hbefore hbeside run
  exact ⟨hbefore, hsteps, fun program hprogram _ _ _ hadvances =>
    advances_sameWork (hafter program hprogram) hadvances⟩

namespace Reference

/-- The columns of the reference database keep texts as they are. -/
theorem storesText : StoresText postgres where
  varchar := by
    intro limit value stored hreceive hstored
    change (if characters value ≤ limit then some value else none) = some stored at hstored
    split at hstored
    · cases hstored
      exact hreceive
    · cases hstored

/-- A node that registers. -/
def registration : NodeInfo where
  nodeCode := text "lab-node"
  name := text "Lab node"
  agentVersion := text "0.1.0"

/-- The tables after the registration. -/
def registered : Database :=
  (((NodeRequest.register registration).program runtime).run
    (controlStore postgres (.first now)).handler .empty).2

/-- The registration is a run. -/
theorem run_registered : ControlSteps runtime .initial ⟨registered, []⟩ :=
  .head (.arrive (.register registration)) (ControlSteps.alone (.first now) _ _)

/-- What a script lets happen next. -/
inductive ScriptStep
  | call (call : Call)
  | command (command : Command)
  | arrive (request : NodeRequest)
  | advance (index : ℕ)

/-- The next statement of a request on its way; one that is over, or whose statement fails, stays
as it is. -/
def advanced (index : ℕ) (state : ControlState) : ControlState :=
  match state.inFlight[index]? with
  | some (Program.call operation next) =>
    match (controlStore postgres (.first now)).handler _ operation state.db with
    | (.ok answer, db) => ⟨db, state.inFlight.set index (next answer)⟩
    | (.error _, _) => state
  | _ => state

/-- A next statement is a step of the control plane, or nothing happens. -/
theorem advanced_steps (index : ℕ) (state : ControlState) :
    advanced index state = state ∨ ControlStep runtime state (advanced index state) := by
  unfold advanced
  split
  · rename_i operation next hprogram
    split
    · rename_i answer db hanswer
      obtain ⟨hindex, hget⟩ := List.getElem?_eq_some_iff.mp hprogram
      have hsplit : state.inFlight = state.inFlight.take index ++
          .call operation next :: state.inFlight.drop (index + 1) := by
        rw [← hget, List.getElem_cons_drop, List.take_append_drop]
      rw [List.set_eq_take_append_cons_drop, if_pos hindex]
      exact .inr (.advance (.first now) hsplit (.call hanswer))
    · exact .inl rfl
  · exact .inl rfl

/-- Take a step of a script. -/
def ScriptStep.take (state : ControlState) : ScriptStep → ControlState
  | .call served => { state with db := (served.serve runtime (.first now) state.db).2 }
  | .command served => { state with db := (served.serve runtime (.first now) state.db).2 }
  | .arrive request => { state with inFlight := state.inFlight ++ [request.program runtime] }
  | .advance index => advanced index state

/-- A step of a script is a step of the control plane, or nothing happens. -/
theorem ScriptStep.take_steps (step : ScriptStep) (state : ControlState) :
    step.take state = state ∨ ControlStep runtime state (step.take state) := by
  cases step with
  | call call => exact .inr (.call call (.first now))
  | command command => exact .inr (.command command (.first now))
  | arrive request => exact .inr (.arrive request)
  | advance index => exact advanced_steps index state

/-- Play a script. -/
def play (script : List ScriptStep) (state : ControlState) : ControlState :=
  script.foldl ScriptStep.take state

/-- A script is a run. -/
theorem steps_play (script : List ScriptStep) (state : ControlState) :
    ControlSteps runtime state (play script state) := by
  induction script generalizing state with
  | nil => exact .refl
  | cons step rest ih =>
    rcases step.take_steps state with hsame | hstep
    · change ControlSteps runtime state (play rest (step.take state))
      rw [hsame]
      exact ih state
    · exact .head hstep (ih _)

/-- The reply of a request on its way that is over. -/
def replyAt (index : ℕ) (state : ControlState) : Option NodeReply :=
  match state.inFlight[index]? with
  | some (.ret reply) => some reply
  | _ => none

/-- Such a reply is on its way. -/
theorem mem_of_replyAt {index : ℕ} {state : ControlState} {reply : NodeReply}
    (h : replyAt index state = some reply) : .ret reply ∈ state.inFlight := by
  unfold replyAt at h
  split at h
  · rename_i value hprogram
    rw [Option.some.inj h] at hprogram
    exact List.mem_of_getElem? hprogram
  · cases h

/-- The tables after some commands on the registered node. -/
def commanded (commands : List Command) : Database :=
  commands.foldl (fun db command => (command.serve runtime (.first now) db).2) registered

/-- The commands are a run. -/
theorem run_commanded (commands : List Command) :
    ControlSteps runtime ⟨registered, []⟩ ⟨commanded commands, []⟩ := by
  induction commands using List.reverseRecOn with
  | nil => exact .refl
  | append_singleton commands command ih =>
    rw [show commanded (commands ++ [command]) =
      (command.serve runtime (.first now) (commanded commands)).2 by simp [commanded]]
    exact ih.tail (.command command (.first now))

/-- A directory of CSV files for the node. -/
def directory : Command := .createDataSource {
  nodeCode := text "lab-node"
  name := text "Balance"
  configJson := text "\x7b\"extension\":\".csv\",\"root_path\":\"/data\"\x7d" }

/-- A rule without configuration. -/
def fields : Command := .createQcRule {
  name := text "Fields"
  ruleType := text "required_fields"
  ruleConfigJson := text "\x7b\x7d" }

/-- Another node that registers. -/
def secondRegistration : NodeInfo := { registration with nodeCode := text "second-node" }

/-- A node registers and asks for its configuration while an operator sets it up and another node
registers; the last answer is still on its way. -/
def setup : List ScriptStep :=
  [.arrive (.register registration), .arrive (.register secondRegistration), .advance 0,
    .arrive (.config (text "lab-node")), .command directory, .advance 2, .advance 1,
    .command fields, .advance 2, .advance 2]

end Reference

example : (Reference.play Reference.setup .initial).db.nodes.rows.length = 2 ∧
    (Reference.play Reference.setup .initial).inFlight.length = 3 := by
  decide +kernel

/-- The set-up of a node is a run of the server, and what is still on its way touches no work. -/
theorem control_plane_refines_setup :
    Steps Reference.runtime anyCall .empty (Reference.play Reference.setup .initial).db ∧
      ∀ program ∈ (Reference.play Reference.setup .initial).inFlight, ∀ (session : Session)
        (next : ControlTx NodeReply) (db : Database), Program.Advances
          (controlStore Reference.runtime.postgres session).handler program
          (Reference.play Reference.setup .initial).db next db →
        SameWork (Reference.play Reference.setup .initial).db db :=
  (control_plane_refines Reference.storesText .refl
    (Reference.steps_play Reference.setup .initial)).2

end LabBridge.Server
