import LabBridge.Library.RowVersions
import LabBridge.Server.Progress

/-!
# What the statements on runs leave alone

The statements of the run, evidence and receipt repositories change no node, data source, rule
or rule binding, and of a task only whether it is enabled. Alerts are touched by the statements
on alerts alone, receipts by those on receipts. New runs, alerts and receipts get their keys from the counters.
-/

namespace LabBridge.Server

open ByteText LabBridge.Core Storage Interaction

variable {R : Runtime} {pg : Postgres} {session : Session} {db db' : Database} {α : Type}

/-- A task that at most was switched. -/
def SwitchedTask (before after : TaskRow) : Prop := ∃ enabled, after = { before with enabled }

/-- A task that is not switched. -/
theorem SwitchedTask.refl (task : TaskRow) : SwitchedTask task task := ⟨task.enabled, rfl⟩

/-- A task that is switched twice is switched. -/
theorem SwitchedTask.trans {a b c : TaskRow} (first : SwitchedTask a b)
    (second : SwitchedTask b c) : SwitchedTask a c := by
  obtain ⟨_, rfl⟩ := first
  obtain ⟨enabled, rfl⟩ := second
  exact ⟨enabled, rfl⟩

/-- The configuration stays, apart from tasks that are switched. -/
structure KeepsConfiguration (before after : Database) : Prop where
  nodes : after.nodes = before.nodes
  dataSources : after.dataSources = before.dataSources
  qcRules : after.qcRules = before.qcRules
  taskQcRules : after.taskQcRules = before.taskQcRules
  tasks : Evolves SwitchedTask (fun _ => False) before.tasks.rows after.tasks.rows
  serial : after.tasks.next = before.tasks.next

namespace KeepsConfiguration

/-- Equal tables of the configuration are kept. -/
theorem of_eq (nodes : db'.nodes = db.nodes) (dataSources : db'.dataSources = db.dataSources)
    (qcRules : db'.qcRules = db.qcRules) (taskQcRules : db'.taskQcRules = db.taskQcRules)
    (tasks : db'.tasks = db.tasks) : KeepsConfiguration db db' where
  nodes := nodes
  dataSources := dataSources
  qcRules := qcRules
  taskQcRules := taskQcRules
  tasks := tasks ▸ .refl .refl _
  serial := tasks ▸ rfl

/-- A configuration is kept as it is. -/
theorem refl (db : Database) : KeepsConfiguration db db := of_eq rfl rfl rfl rfl rfl

/-- A configuration that is kept twice is kept. -/
theorem trans {a b c : Database} (first : KeepsConfiguration a b)
    (second : KeepsConfiguration b c) : KeepsConfiguration a c where
  nodes := second.nodes.trans first.nodes
  dataSources := second.dataSources.trans first.dataSources
  qcRules := second.qcRules.trans first.qcRules
  taskQcRules := second.taskQcRules.trans first.taskQcRules
  tasks := first.tasks.trans SwitchedTask.trans (fun h _ => h) second.tasks
  serial := second.serial.trans first.serial

end KeepsConfiguration

/-- The statements on alerts. -/
def Statement.IsOnAlerts : {α : Type} → Statement α → Prop
  | _, .insertAlert _ => True
  | _, .updateAlert _ _ => True
  | _, _ => False

/-- The statements on receipts. -/
def Statement.IsOnReceipts : {α : Type} → Statement α → Prop
  | _, .insertReceipt _ => True
  | _, .updateReceiptComplete _ _ _ _ _ => True
  | _, _ => False

/-- The keys that are drawn for runs, alerts and receipts. -/
structure Draws (before after : Database) : Prop where
  runs : Drawn before.taskRuns after.taskRuns
  alerts : Drawn before.alerts after.alerts
  receipts : Drawn before.receipts after.receipts

/-- Nothing is drawn. -/
theorem Draws.refl (db : Database) : Draws db db := ⟨.refl _, .refl _, .refl _⟩

/-- The tables that a statement leaves alone, and the keys that it draws for the others. -/
structure Statement.Frame (statement : Statement α) (before after : Database) : Prop where
  configuration : KeepsConfiguration before after
  alerts : ¬statement.IsOnAlerts → after.alerts = before.alerts
  receipts : ¬statement.IsOnReceipts → after.receipts = before.receipts
  draws : Draws before after

/-- A statement that changes nothing. -/
theorem Statement.Frame.refl (statement : Statement α) (db : Database) : statement.Frame db db :=
  ⟨.refl db, fun _ => rfl, fun _ => rfl, .refl db⟩

/-- Storing a run. -/
theorem frame_of_storeRun {statement : Statement α} {make : RowId → TaskRunRow}
    {keyed : ∀ id, (make id).id = id} {blind} {skipped : Bool} {answer : Option Bytes}
    (h : db.storeRun make keyed blind skipped = .ok (answer, db')) : statement.Frame db db' := by
  unfold Database.storeRun at h
  split at h
  · rename_i hinsert
    cases h
    exact ⟨.of_eq rfl rfl rfl rfl rfl, fun _ => rfl, fun _ => rfl,
      .of_insert hinsert, .refl _, .refl _⟩
  · split at h
    · cases h
      exact .refl _ _
    · cases h
  · cases h

/-- Changing runs. -/
theorem frame_of_changeRuns {statement : Statement α} {selected : TaskRunRow → Bool}
    {change : TaskRunRow → TaskRunRow} {keyed : ∀ run, (change run).id = run.id}
    (h : db.changeRuns selected change keyed = .ok ((), db')) : statement.Frame db db' := by
  simp only [Database.changeRuns, Answer.bind_eq_ok, accepted_eq_ok] at h
  obtain ⟨taskRuns, hupdate, h⟩ := h
  cases h
  exact ⟨.of_eq rfl rfl rfl rfl rfl, fun _ => rfl, fun _ => rfl, .of_update hupdate,
    .refl _, .refl _⟩

/-- Every statement keeps the configuration, alerts and receipts unless it is one on them, and
draws the keys of what it stores. -/
theorem Statement.exec_frame {statement : Statement α} {answer : α}
    (h : statement.exec pg session db = .ok (answer, db')) : statement.Frame db db' := by
  cases statement with
  | insertRun record =>
    simp only [Statement.exec, Database.insertRun, Answer.bind_eq_ok] at h
    obtain ⟨id, -, code, -, startedAt, -, summary, -, trigger, -, h⟩ := h
    split at h
    · cases h
      exact .refl _ _
    · exact frame_of_storeRun h
  | insertScheduledRun record =>
    simp only [Statement.exec, Database.insertScheduledRun, Answer.bind_eq_ok] at h
    obtain ⟨id, -, code, -, startedAt, -, summary, -, trigger, -, key, -, slot, -, h⟩ := h
    split at h
    · cases h
      exact .refl _ _
    · exact frame_of_storeRun h
  | insertManualRun request json =>
    simp only [Statement.exec, Database.insertManualRun, Answer.bind_eq_ok] at h
    obtain ⟨id, -, code, -, trigger, -, key, -, parent, -, files, -, h⟩ := h
    split at h
    · cases h
      exact .refl _ _
    · split at h
      · cases h
      · split at h
        · cases h
        · exact frame_of_storeRun h
      · exact frame_of_storeRun h
  | updateRunFinish record =>
    simp only [Statement.exec, Database.updateRunFinish, Answer.bind_eq_ok] at h
    obtain ⟨id, -, finishedAt, -, summary, -, files, -, h⟩ := h
    exact frame_of_changeRuns h
  | updatePendingManualFailed taskId summary =>
    simp only [Statement.exec, Database.updatePendingManualFailed, Answer.bind_eq_ok] at h
    obtain ⟨id, -, summary, -, h⟩ := h
    exact frame_of_changeRuns h
  | updateManualRunning id startedAt =>
    simp only [Statement.exec, Database.updateManualRunning, Answer.bind_eq_ok] at h
    obtain ⟨id, -, instant, -, h⟩ := h
    exact frame_of_changeRuns h
  | updateTaskEnabled taskId enabled =>
    simp only [Statement.exec, Database.updateTaskEnabled, Answer.bind_eq_ok, accepted_eq_ok] at h
    obtain ⟨key, -, tasks, htasks, h⟩ := h
    cases h
    obtain ⟨hrows, hserial⟩ := SerialTable.update_eq_some htasks
    refine ⟨⟨rfl, rfl, rfl, rfl, ?_, hserial⟩, fun _ => rfl, fun _ => rfl,
      ⟨.refl _, .refl _, .refl _⟩⟩
    rw [hrows]
    exact .of_selected .refl fun task _ _ => ⟨enabled, rfl⟩
  | insertRawFile record =>
    simp only [Statement.exec, Database.insertRawFile, Answer.bind_eq_ok] at h
    obtain ⟨id, -, code, -, name, -, hash, -, path, -, mtime, -, status, -, h⟩ := h
    split at h
    · cases h
      exact .refl _ _
    · simp only [Answer.bind_eq_ok, stored_eq_ok] at h
      obtain ⟨⟨key, rawFiles⟩, -, h⟩ := h
      cases h
      exact ⟨.of_eq rfl rfl rfl rfl rfl, fun _ => rfl, fun _ => rfl,
      ⟨.refl _, .refl _, .refl _⟩⟩
  | insertParsedRecord record =>
    simp only [Statement.exec, Database.insertParsedRecord, Answer.bind_eq_ok] at h
    obtain ⟨rawFileId, -, taskRunId, -, stationCode, -, deviceCode, -, recordTime, -, payload, -,
      parseStatus, -, h⟩ := h
    split at h
    · cases h
      exact .refl _ _
    · simp only [Answer.bind_eq_ok, stored_eq_ok] at h
      obtain ⟨⟨key, parsedRecords⟩, -, h⟩ := h
      cases h
      exact ⟨.of_eq rfl rfl rfl rfl rfl, fun _ => rfl, fun _ => rfl,
      ⟨.refl _, .refl _, .refl _⟩⟩
  | insertQcResult record =>
    simp only [Statement.exec, Database.insertQcResult, Answer.bind_eq_ok] at h
    obtain ⟨parsedRecordId, -, qcRuleId, -, level, -, result, -, message, -, h⟩ := h
    split at h
    · simp only [Answer.bind_eq_ok, stored_eq_ok] at h
      obtain ⟨⟨key, qcResults⟩, -, h⟩ := h
      cases h
      exact ⟨.of_eq rfl rfl rfl rfl rfl, fun _ => rfl, fun _ => rfl,
      ⟨.refl _, .refl _, .refl _⟩⟩
    · cases h
  | insertAlert record =>
    simp only [Statement.exec, Database.insertAlert, Answer.bind_eq_ok] at h
    obtain ⟨nodeCode, -, taskRunId, -, alertType, -, severity, -, message, -, status, -, h⟩ := h
    have hstore {node : NodeRow} {run : Option RowId}
        (h : Database.insertAlert.store db node run alertType severity message status =
          .ok (answer, db')) : (Statement.insertAlert record).Frame db db' := by
      simp only [Database.insertAlert.store, Answer.bind_eq_ok, stored_eq_ok] at h
      obtain ⟨⟨key, alerts⟩, hinsert, h⟩ := h
      cases h
      exact ⟨.of_eq rfl rfl rfl rfl rfl, fun hnot => absurd trivial hnot, fun _ => rfl,
        .refl _, .of_insert hinsert, .refl _⟩
    split at h
    · cases h
      exact .refl _ _
    · split at h
      · exact hstore h
      · split at h
        · cases h
          exact .refl _ _
        · exact hstore h
  | updateAlert alertId acknowledge =>
    simp only [Statement.exec, Database.updateAlert, Answer.bind_eq_ok, accepted_eq_ok] at h
    obtain ⟨id, -, alerts, hupdate, h⟩ := h
    cases h
    exact ⟨.of_eq rfl rfl rfl rfl rfl, fun hnot => absurd trivial hnot, fun _ => rfl,
      .refl _, .of_update hupdate, .refl _⟩
  | insertReceipt claim =>
    simp only [Statement.exec, Database.insertReceipt, Answer.bind_eq_ok] at h
    obtain ⟨runKey, -, code, -, key, -, fingerprint, -, h⟩ := h
    split at h
    · cases h
      exact .refl _ _
    · split at h
      · rename_i hinsert
        cases h
        exact ⟨.of_eq rfl rfl rfl rfl rfl, fun _ => rfl, fun hnot => absurd trivial hnot,
          .refl _, .refl _, .of_insert hinsert⟩
      · cases h
        exact .refl _ _
      · cases h
  | updateReceiptComplete receiptId raw parsed qc alerts =>
    simp only [Statement.exec, Database.updateReceiptComplete, Answer.bind_eq_ok,
      accepted_eq_ok] at h
    obtain ⟨key, -, raw, -, parsed, -, qc, -, alerts, -, receipts, hupdate, h⟩ := h
    cases h
    exact ⟨.of_eq rfl rfl rfl rfl rfl, fun _ => rfl, fun hnot => absurd trivial hnot,
      .refl _, .refl _, .of_update hupdate⟩
  | _ => exact (Statement.reading_eq_ok.mp h).2 ▸ .refl _ _

/-- Every transaction issues statements. -/
theorem Tx.calls_any (tx : Tx α) : tx.Calls fun _ _ => True := by
  induction tx with
  | ret value => trivial
  | stop error => trivial
  | call operation next ih => exact ⟨trivial, ih⟩

/-- Every transaction on runs keeps the configuration. -/
theorem Tx.Yields.keepsConfiguration {tx : Tx α} {result : α}
    (h : Tx.Yields pg session tx db result db') : KeepsConfiguration db db' :=
  h.related tx.calls_any KeepsConfiguration .refl .trans fun _ hexec =>
    (Statement.exec_frame hexec).configuration

end LabBridge.Server
