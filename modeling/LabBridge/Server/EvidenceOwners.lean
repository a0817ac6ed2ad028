import LabBridge.Server.Progress

/-!
# Whose evidence it is

A raw file and an alert carry the node of their run, and a committed receipt names rows of its run.
No statement takes a row of the evidence away or hands it to another node.
-/

namespace LabBridge.Server

open ByteText LabBridge.Core Storage Interaction

variable {R : Runtime} {pg : Postgres} {session : Session} {db db' : Database} {node : Bytes}
  {run : RowId}

/-- A run under a key belongs to a node. -/
def Database.RunOf (db : Database) (node : Bytes) (run : RowId) : Prop :=
  ∃ row ∈ db.taskRuns.rows, row.id = run ∧ row.nodeCode = node

/-- An alert belongs to the node of its run. -/
def OwnedAlert (db : Database) (alert : AlertRow) : Prop :=
  ∀ run ∈ alert.taskRunId, db.RunOf alert.nodeCode run

/-- An alert that stays where it belongs. -/
structure SameOwner (before after : AlertRow) : Prop where
  id : after.id = before.id
  nodeCode : after.nodeCode = before.nodeCode
  taskRunId : after.taskRunId = before.taskRunId

/-- An alert stays where it belongs. -/
theorem SameOwner.refl (alert : AlertRow) : SameOwner alert alert := ⟨rfl, rfl, rfl⟩

/-- An alert that stays twice stays. -/
theorem SameOwner.trans {a b c : AlertRow} (first : SameOwner a b) (second : SameOwner b c) :
    SameOwner a c where
  id := second.id.trans first.id
  nodeCode := second.nodeCode.trans first.nodeCode
  taskRunId := second.taskRunId.trans first.taskRunId

/-- Runs stay with their nodes, evidence is added behind what is stored, and added files and
alerts belong to the nodes of their runs. -/
structure Accumulates (before after : Database) : Prop where
  taskRuns : ∀ {node run}, before.RunOf node run → after.RunOf node run
  rawFiles : ∃ added, after.rawFiles.rows = before.rawFiles.rows ++ added ∧
    ∀ file ∈ added, after.RunOf file.nodeCode file.taskRunId
  parsedRecords : before.parsedRecords.rows <+: after.parsedRecords.rows
  qcResults : before.qcResults.rows <+: after.qcResults.rows
  alerts : Evolves SameOwner (OwnedAlert after) before.alerts.rows after.alerts.rows

/-- An alert keeps its owner when runs stay and it stays. -/
theorem OwnedAlert.moved {before after : AlertRow}
    (htaskRuns : ∀ {node run}, db.RunOf node run → db'.RunOf node run)
    (h : OwnedAlert db before) (same : SameOwner before after) : OwnedAlert db' after := by
  intro run hrun
  rw [same.nodeCode]
  exact htaskRuns (h run (same.taskRunId ▸ hrun))

namespace Accumulates

/-- Nothing changes where only runs move. -/
theorem of_runs (taskRuns : ∀ {node run}, db.RunOf node run → db'.RunOf node run)
    (rawFiles : db'.rawFiles.rows = db.rawFiles.rows)
    (parsedRecords : db'.parsedRecords.rows = db.parsedRecords.rows)
    (qcResults : db'.qcResults.rows = db.qcResults.rows)
    (alerts : db'.alerts.rows = db.alerts.rows) : Accumulates db db' where
  taskRuns := taskRuns
  rawFiles := ⟨[], by simpa using rawFiles, by simp⟩
  parsedRecords := parsedRecords ▸ List.prefix_rfl
  qcResults := qcResults ▸ List.prefix_rfl
  alerts := by
    rw [alerts]
    exact .refl .refl _

/-- Nothing changes. -/
theorem refl (db : Database) : Accumulates db db := of_runs id rfl rfl rfl rfl

/-- Two steps accumulate. -/
theorem trans {a b c : Database} (first : Accumulates a b) (second : Accumulates b c) :
    Accumulates a c where
  taskRuns h := second.taskRuns (first.taskRuns h)
  rawFiles := by
    obtain ⟨added₁, hrows₁, howned₁⟩ := first.rawFiles
    obtain ⟨added₂, hrows₂, howned₂⟩ := second.rawFiles
    refine ⟨added₁ ++ added₂, by rw [hrows₂, hrows₁, List.append_assoc], fun file hfile => ?_⟩
    rcases List.mem_append.mp hfile with hold | hnew
    · exact second.taskRuns (howned₁ file hold)
    · exact howned₂ file hnew
  parsedRecords := first.parsedRecords.trans second.parsedRecords
  qcResults := first.qcResults.trans second.qcResults
  alerts := by
    have hfirst : Evolves SameOwner (OwnedAlert c) a.alerts.rows b.alerts.rows :=
      first.alerts.mono (fun _ _ _ => id) fun h => h.moved second.taskRuns (.refl _)
    exact hfirst.trans SameOwner.trans (fun h same => h.moved id same) second.alerts

end Accumulates

/-- Storing a run keeps the runs with their nodes. -/
theorem accumulates_of_storeRun {make : RowId → TaskRunRow} {keyed : ∀ id, (make id).id = id}
    {blind} {skipped : Bool} {answer : Option Bytes}
    (h : db.storeRun make keyed blind skipped = .ok (answer, db')) : Accumulates db db' := by
  rcases storeRun_ok h with ⟨-, rfl⟩ | ⟨id, taskRuns, -, rfl, hrows, -⟩
  · exact .refl _
  · refine .of_runs (fun hrun => ?_) rfl rfl rfl rfl
    obtain ⟨row, hrow, howner⟩ := hrun
    exact ⟨row, by rw [hrows]; exact List.mem_append_left _ hrow, howner⟩

/-- Changing runs keeps them with their nodes when the change does. -/
theorem accumulates_of_changeRuns {selected : TaskRunRow → Bool}
    {change : TaskRunRow → TaskRunRow} {keyed : ∀ run, (change run).id = run.id}
    (h : db.changeRuns selected change keyed = .ok ((), db'))
    (hnode : ∀ run, (change run).nodeCode = run.nodeCode) : Accumulates db db' := by
  obtain ⟨taskRuns, rfl, hrows⟩ := changeRuns_ok h
  refine .of_runs (fun hrun => ?_) rfl rfl rfl rfl
  obtain ⟨row, hrow, rfl, rfl⟩ := hrun
  refine ⟨_, by rw [hrows]; exact List.mem_map_of_mem hrow, ?_, ?_⟩
  · split
    · exact keyed row
    · rfl
  · split
    · exact hnode row
    · rfl

/-- A stored raw file belongs to the node of its run. -/
theorem insertRawFile_accumulates {record : RawFileRecord} {answer : Option Bytes}
    (h : db.insertRawFile pg record = .ok (answer, db')) : Accumulates db db' := by
  simp only [Database.insertRawFile, Answer.bind_eq_ok] at h
  obtain ⟨taskRunId, -, nodeCode, -, originalName, -, fileHash, -, storagePath, -, sourceMtime,
    -, ingestStatus, -, h⟩ := h
  split at h
  · cases h
    exact .refl _
  · rename_i row hrow
    obtain ⟨-, hmem, -⟩ := ownRun_eq_some hrow
    simp only [Answer.bind_eq_ok, stored_eq_ok] at h
    obtain ⟨⟨key, rawFiles⟩, hinsert, h⟩ := h
    obtain ⟨-, hrows, -⟩ := SerialTable.insert_eq_ok hinsert
    cases h
    refine { Accumulates.refl db with rawFiles := ⟨_, hrows, fun file hfile => ?_⟩ }
    rw [List.mem_singleton.mp hfile]
    exact ⟨row, hmem, rfl, rfl⟩

/-- Storing a parsed row accumulates. -/
theorem insertParsedRecord_accumulates {record : ParsedRecordRecord} {answer : Option Bytes}
    (h : db.insertParsedRecord pg record = .ok (answer, db')) : Accumulates db db' := by
  simp only [Database.insertParsedRecord, Answer.bind_eq_ok] at h
  obtain ⟨rawFileId, -, taskRunId, -, stationCode, -, deviceCode, -, recordTime, -, payloadJson, -,
    parseStatus, -, h⟩ := h
  split at h
  · cases h
    exact .refl _
  · simp only [Answer.bind_eq_ok, stored_eq_ok] at h
    obtain ⟨⟨key, parsedRecords⟩, hinsert, h⟩ := h
    obtain ⟨-, hrows, -⟩ := SerialTable.insert_eq_ok hinsert
    cases h
    exact { Accumulates.refl db with parsedRecords := ⟨_, hrows.symm⟩ }

/-- Storing a rule result accumulates. -/
theorem insertQcResult_accumulates {record : QcResultRecord} {answer : Option Bytes}
    (h : db.insertQcResult pg record = .ok (answer, db')) : Accumulates db db' := by
  simp only [Database.insertQcResult, Answer.bind_eq_ok] at h
  obtain ⟨parsedRecordId, -, qcRuleId, -, level, -, result, -, message, -, h⟩ := h
  split at h
  · simp only [Answer.bind_eq_ok, stored_eq_ok] at h
    obtain ⟨⟨key, qcResults⟩, hinsert, h⟩ := h
    obtain ⟨-, hrows, -⟩ := SerialTable.insert_eq_ok hinsert
    cases h
    exact { Accumulates.refl db with qcResults := ⟨_, hrows.symm⟩ }
  · cases h

/-- A stored alert belongs to the node of its run. -/
theorem insertAlert_accumulates {record : AlertRecord} {answer : Option Bytes}
    (h : db.insertAlert pg record = .ok (answer, db')) : Accumulates db db' := by
  simp only [Database.insertAlert, Answer.bind_eq_ok] at h
  obtain ⟨nodeCode, -, taskRunId, -, alertType, -, severity, -, message, -, status, -, h⟩ := h
  have hstore {node : NodeRow} {taskRunId : Option RowId}
      (howner : ∀ run ∈ taskRunId, db.RunOf node.nodeCode run)
      (h : Database.insertAlert.store db node taskRunId alertType severity message status =
        .ok (answer, db')) : Accumulates db db' := by
    simp only [Database.insertAlert.store, Answer.bind_eq_ok, stored_eq_ok] at h
    obtain ⟨⟨key, alerts⟩, hinsert, h⟩ := h
    obtain ⟨-, hrows, -⟩ := SerialTable.insert_eq_ok hinsert
    cases h
    refine { Accumulates.refl db with alerts := ?_ }
    rw [hrows]
    refine .of_append .refl fun alert halert => ?_
    rw [List.mem_singleton.mp halert]
    exact howner
  split at h
  · cases h
    exact .refl _
  · split at h
    · exact hstore (by simp) h
    · split at h
      · cases h
        exact .refl _
      · rename_i row hrow
        obtain ⟨-, hmem, hnode⟩ := ownRun_eq_some hrow
        refine hstore (fun run hrun => ?_) h
        obtain rfl := Option.some.inj hrun
        exact ⟨row, hmem, rfl, hnode⟩

/-- Disposing of an alert leaves it where it belongs. -/
theorem updateAlert_accumulates {alertId : Bytes} {acknowledge answer : Bool}
    (h : db.updateAlert pg session alertId acknowledge = .ok (answer, db')) :
    Accumulates db db' := by
  simp only [Database.updateAlert, Answer.bind_eq_ok, accepted_eq_ok] at h
  obtain ⟨id, -, alerts, hupdate, h⟩ := h
  cases h
  refine { Accumulates.refl db with alerts := ?_ }
  rw [(SerialTable.update_eq_some hupdate).1]
  refine .of_selected .refl fun alert _ _ => ?_
  cases acknowledge <;> exact ⟨rfl, rfl, rfl⟩

/-- Every statement accumulates. -/
theorem Statement.exec_accumulates {α : Type} {statement : Statement α} {answer : α}
    (h : statement.exec pg session db = .ok (answer, db')) : Accumulates db db' := by
  cases statement with
  | insertRun record =>
    simp only [Statement.exec, Database.insertRun, Answer.bind_eq_ok] at h
    obtain ⟨id, -, code, -, startedAt, -, summary, -, trigger, -, h⟩ := h
    split at h
    · cases h
      exact .refl _
    · exact accumulates_of_storeRun h
  | insertScheduledRun record =>
    simp only [Statement.exec, Database.insertScheduledRun, Answer.bind_eq_ok] at h
    obtain ⟨id, -, code, -, startedAt, -, summary, -, trigger, -, key, -, slot, -, h⟩ := h
    split at h
    · cases h
      exact .refl _
    · exact accumulates_of_storeRun h
  | insertManualRun request json =>
    simp only [Statement.exec, Database.insertManualRun, Answer.bind_eq_ok] at h
    obtain ⟨id, -, code, -, trigger, -, key, -, parent, -, files, -, h⟩ := h
    split at h
    · cases h
      exact .refl _
    · split at h
      · cases h
      · split at h
        · cases h
        · exact accumulates_of_storeRun h
      · exact accumulates_of_storeRun h
  | updateRunFinish record =>
    simp only [Statement.exec, Database.updateRunFinish, Answer.bind_eq_ok] at h
    obtain ⟨id, -, finishedAt, -, summary, -, files, -, h⟩ := h
    exact accumulates_of_changeRuns h fun _ => rfl
  | updatePendingManualFailed taskId summary =>
    simp only [Statement.exec, Database.updatePendingManualFailed, Answer.bind_eq_ok] at h
    obtain ⟨id, -, summary, -, h⟩ := h
    exact accumulates_of_changeRuns h fun _ => rfl
  | updateManualRunning id startedAt =>
    simp only [Statement.exec, Database.updateManualRunning, Answer.bind_eq_ok] at h
    obtain ⟨id, -, instant, -, h⟩ := h
    exact accumulates_of_changeRuns h fun _ => rfl
  | updateTaskEnabled taskId enabled =>
    simp only [Statement.exec, Database.updateTaskEnabled, Answer.bind_eq_ok, accepted_eq_ok] at h
    obtain ⟨key, -, tasks, -, h⟩ := h
    cases h
    exact .of_runs id rfl rfl rfl rfl
  | insertRawFile record => exact insertRawFile_accumulates h
  | insertParsedRecord record => exact insertParsedRecord_accumulates h
  | insertQcResult record => exact insertQcResult_accumulates h
  | insertAlert record => exact insertAlert_accumulates h
  | updateAlert alertId acknowledge => exact updateAlert_accumulates h
  | insertReceipt claim =>
    simp only [Statement.exec, Database.insertReceipt, Answer.bind_eq_ok] at h
    obtain ⟨runKey, -, code, -, key, -, fingerprint, -, h⟩ := h
    split at h
    · cases h
      exact .refl _
    · split at h
      · cases h
        exact .of_runs id rfl rfl rfl rfl
      · cases h
        exact .refl _
      · cases h
  | updateReceiptComplete receiptId raw parsed qc alerts =>
    simp only [Statement.exec, Database.updateReceiptComplete, Answer.bind_eq_ok,
      accepted_eq_ok] at h
    obtain ⟨key, -, raw, -, parsed, -, qc, -, alerts, -, receipts, -, h⟩ := h
    cases h
    exact .of_runs id rfl rfl rfl rfl
  | _ => exact (Statement.reading_eq_ok.mp h).2 ▸ .refl _

end LabBridge.Server
