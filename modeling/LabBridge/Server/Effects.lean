import LabBridge.Server.Rules

/-!
# What a statement changes

Reads change nothing. An insert that answers with an identifier appended one row to its own
table. `EvidenceGrows` collects what storing evidence for a run may do to the tables; it is
closed under sequencing.
-/

namespace LabBridge.Server

open ByteText LabBridge.Core Storage Interaction

variable {pg : Postgres} {session : Session} {db db' : Database} {α : Type}

/-- The statements that only read. -/
def Statement.IsRead : {α : Type} → Statement α → Prop
  | _, .insertRun _ => False
  | _, .insertScheduledRun _ => False
  | _, .insertManualRun _ _ => False
  | _, .updateRunFinish _ => False
  | _, .updatePendingManualFailed _ _ => False
  | _, .updateManualRunning _ _ => False
  | _, .updateTaskEnabled _ _ => False
  | _, .insertRawFile _ => False
  | _, .insertParsedRecord _ => False
  | _, .insertQcResult _ => False
  | _, .insertAlert _ => False
  | _, .updateAlert _ _ => False
  | _, .insertReceipt _ => False
  | _, .updateReceiptComplete _ _ _ _ _ => False
  | _, _ => True

/-- A read answers from the tables and leaves them. -/
theorem Statement.reading_eq_ok {answer : Answer α} {result : α} :
    Statement.reading db answer = .ok (result, db') ↔ answer = .ok result ∧ db = db' := by
  cases answer <;> simp [Statement.reading, Except.map]

/-- Reads change nothing. -/
theorem Statement.IsRead.exec_eq {statement : Statement α} (hread : statement.IsRead)
    {answer : α} (h : statement.exec pg session db = .ok (answer, db')) : db' = db := by
  cases statement <;> first
    | exact hread.elim
    | exact (Statement.reading_eq_ok.mp h).2.symm

namespace Tx

/-- A transitive relation that every permitted statement keeps holds across a body. -/
theorem Yields.related {allowed : ∀ β : Type, Statement β → Prop} {tx : Tx α}
    (calls : tx.Calls allowed) (related : Database → Database → Prop)
    (refl : ∀ db, related db db)
    (trans : ∀ {first second third}, related first second → related second third →
      related first third)
    (step : ∀ {β : Type} {statement : Statement β} {before after : Database} {answer : β},
      allowed β statement → statement.exec pg session before = .ok (answer, after) →
      related before after)
    {result : α} (h : Yields pg session tx db result db') : related db db' := by
  have hstep {γ : Type} (statement : Statement γ) (state : Database)
      (hallowed : allowed γ statement) :
      related state (handler pg session γ statement state).2 := by
    unfold handler
    rcases hexec : statement.exec pg session state with fault | ⟨answer, reached⟩
    · exact refl state
    · exact step hallowed hexec
  have hrun := calls.run_related related refl trans hstep db
  unfold Yields Tx.run at h
  rw [h] at hrun
  exact hrun

/-- A body that only reads leaves the tables as they are. -/
theorem Yields.eq_of_reads {tx : Tx α} (calls : tx.Calls fun _ => Statement.IsRead)
    {result : α} (h : Yields pg session tx db result db') : db' = db :=
  h.related calls (fun before after => after = before) (fun _ => rfl)
    (fun h₁ h₂ => h₂.trans h₁) (fun hread hexec => hread.exec_eq hexec)

/-- A statement issues itself. -/
@[simp] theorem calls_sql {allowed : ∀ β : Type, Statement β → Prop} {statement : Statement α} :
    (sql statement).Calls allowed ↔ allowed α statement := by
  simp [sql, Program.perform]

/-- A statement and what follows it issue the statement and what follows every answer. -/
theorem calls_sql_bind {β : Type} {allowed : ∀ γ : Type, Statement γ → Prop}
    {statement : Statement α} {next : α → Tx β} :
    (sql statement >>= next).Calls allowed ↔
      allowed α statement ∧ ∀ answer, (next answer).Calls allowed := Iff.rfl

/-- A guarded body issues what lies behind its guard. -/
theorem calls_unless_refuse {allowed : ∀ β : Type, Statement β → Prop} {condition : Prop}
    [Decidable condition] {failure : Failure} {tx : Tx α} (h : tx.Calls allowed) :
    (if condition then refuse failure else tx : Tx α).Calls allowed := by
  split
  · trivial
  · exact h

@[simp] theorem calls_refuse {allowed : ∀ β : Type, Statement β → Prop} (failure : Failure) :
    (refuse failure : Tx α).Calls allowed := trivial

@[simp] theorem calls_raise {allowed : ∀ β : Type, Statement β → Prop} (message : String) :
    (raise message : Tx α).Calls allowed := trivial

@[simp] theorem calls_pure {allowed : ∀ β : Type, Statement β → Prop} (value : α) :
    (pure value : Tx α).Calls allowed := trivial

end Tx

/-- A read by key answers with the row that the parameter names. -/
theorem find_of_param {Row : Type} {key : Row → RowId} {clash : Row → Row → Bool}
    {table : SerialTable Row key clash}
    {id : Option RowId} {row : Row} (h : id.bind table.find? = some row) :
    id = some (key row) ∧ row ∈ table.rows := by
  cases id with
  | none => cases h
  | some id =>
    obtain ⟨hmem, hkey⟩ := SerialTable.find?_eq_some.mp h
    exact ⟨congrArg some hkey.symm, hmem⟩

/-- A run read by its identifier is stored under it. -/
theorem selectRunById_ok {taskRunId : Bytes} {answer : Option TaskRunRecord}
    (h : db.selectRunById pg taskRunId = .ok answer) :
    answer = none ∨ ∃ run ∈ db.taskRuns.rows, pg.idParam taskRunId = .ok (some run.id) ∧
      answer = some (Database.toTaskRunRecord pg run) := by
  simp only [Database.selectRunById, Answer.bind_eq_ok, Answer.pure_eq_ok] at h
  obtain ⟨id, hid, hanswer⟩ := h
  rcases hfind : id.bind db.taskRuns.find? with _ | run
  · left
    rw [hfind] at hanswer
    exact (Except.ok.inj hanswer).symm
  · obtain ⟨rfl, hmem⟩ := find_of_param hfind
    right
    rw [hfind] at hanswer
    exact ⟨run, hmem, hid, (Except.ok.inj hanswer).symm⟩

/-- A raw file read by its identifier is stored under it. -/
theorem selectRawFile_ok {rawFileId : Bytes} {record : RawFileRecord}
    (h : db.selectRawFile pg rawFileId = .ok (some record)) :
    ∃ file ∈ db.rawFiles.rows, pg.idParam rawFileId = .ok (some file.id) ∧
      record.taskRunId = decimal file.taskRunId := by
  simp only [Database.selectRawFile, Answer.bind_eq_ok, Answer.pure_eq_ok] at h
  obtain ⟨id, hid, hanswer⟩ := h
  rcases hfind : id.bind db.rawFiles.find? with _ | file
  · rw [hfind] at hanswer
    cases hanswer
  · obtain ⟨rfl, hmem⟩ := find_of_param hfind
    rw [hfind] at hanswer
    cases hanswer
    exact ⟨file, hmem, hid, rfl⟩

/-- Storing evidence for one run: other tables stay, and every added row belongs to it. -/
structure EvidenceGrows (run : RowId) (before after : Database) : Prop where
  nodes : after.nodes = before.nodes
  dataSources : after.dataSources = before.dataSources
  tasks : after.tasks = before.tasks
  taskRuns : after.taskRuns = before.taskRuns
  qcRules : after.qcRules = before.qcRules
  taskQcRules : after.taskQcRules = before.taskQcRules
  receipts : after.receipts = before.receipts
  rawFiles : ∃ added, after.rawFiles.rows = before.rawFiles.rows ++ added ∧
    ∀ file ∈ added, file.taskRunId = run
  parsedRecords : ∃ added, after.parsedRecords.rows = before.parsedRecords.rows ++ added ∧
    ∀ parsed ∈ added, parsed.taskRunId = run
  qcResults : ∃ added, after.qcResults.rows = before.qcResults.rows ++ added ∧
    ∀ result ∈ added, ∃ parsed ∈ after.parsedRecords.rows,
      parsed.id = result.parsedRecordId ∧ parsed.taskRunId = run
  alerts : ∃ added, after.alerts.rows = before.alerts.rows ++ added ∧
    ∀ alert ∈ added, alert.taskRunId = some run

/-- An addition of rows with a property, continued by another one. -/
private theorem added_trans {Row : Type} {first second third : List Row} {p q : Row → Prop}
    (h₁ : ∃ added, second = first ++ added ∧ ∀ row ∈ added, p row)
    (h₂ : ∃ added, third = second ++ added ∧ ∀ row ∈ added, q row)
    (hp : ∀ row, p row → q row) :
    ∃ added, third = first ++ added ∧ ∀ row ∈ added, q row := by
  obtain ⟨added₁, rfl, hadded₁⟩ := h₁
  obtain ⟨added₂, rfl, hadded₂⟩ := h₂
  refine ⟨added₁ ++ added₂, List.append_assoc _ _ _, fun row hrow => ?_⟩
  rcases List.mem_append.mp hrow with h | h
  · exact hp row (hadded₁ row h)
  · exact hadded₂ row h

namespace EvidenceGrows

variable {run : RowId}

/-- Nothing added is an addition. -/
theorem refl (db : Database) : EvidenceGrows run db db where
  nodes := rfl
  dataSources := rfl
  tasks := rfl
  taskRuns := rfl
  qcRules := rfl
  taskQcRules := rfl
  receipts := rfl
  rawFiles := ⟨[], by simp⟩
  parsedRecords := ⟨[], by simp⟩
  qcResults := ⟨[], by simp⟩
  alerts := ⟨[], by simp⟩

/-- Parsed rows stay. -/
theorem mem_parsedRecords {before after : Database} (h : EvidenceGrows run before after)
    {parsed : ParsedRecordRow} (hmem : parsed ∈ before.parsedRecords.rows) :
    parsed ∈ after.parsedRecords.rows := by
  obtain ⟨added, hrows, -⟩ := h.parsedRecords
  rw [hrows]
  exact List.mem_append_left _ hmem

/-- Two additions for one run are one addition. -/
theorem trans {first second third : Database} (h₁ : EvidenceGrows run first second)
    (h₂ : EvidenceGrows run second third) : EvidenceGrows run first third where
  nodes := h₂.nodes.trans h₁.nodes
  dataSources := h₂.dataSources.trans h₁.dataSources
  tasks := h₂.tasks.trans h₁.tasks
  taskRuns := h₂.taskRuns.trans h₁.taskRuns
  qcRules := h₂.qcRules.trans h₁.qcRules
  taskQcRules := h₂.taskQcRules.trans h₁.taskQcRules
  receipts := h₂.receipts.trans h₁.receipts
  rawFiles := added_trans h₁.rawFiles h₂.rawFiles fun _ => id
  parsedRecords := added_trans h₁.parsedRecords h₂.parsedRecords fun _ => id
  qcResults := added_trans h₁.qcResults h₂.qcResults fun _ ⟨parsed, hmem, hparsed⟩ =>
    ⟨parsed, h₂.mem_parsedRecords hmem, hparsed⟩
  alerts := added_trans h₁.alerts h₂.alerts fun _ => id

/-- What is added does not depend on the runs and receipts of the tables. -/
theorem reframe {before after : Database} (h : EvidenceGrows run before after)
    (taskRuns receipts) :
    EvidenceGrows run { before with taskRuns := taskRuns, receipts := receipts }
      { after with taskRuns := taskRuns, receipts := receipts } where
  nodes := h.nodes
  dataSources := h.dataSources
  tasks := h.tasks
  taskRuns := rfl
  qcRules := h.qcRules
  taskQcRules := h.taskQcRules
  receipts := rfl
  rawFiles := h.rawFiles
  parsedRecords := h.parsedRecords
  qcResults := h.qcResults
  alerts := h.alerts

end EvidenceGrows

end LabBridge.Server
