import LabBridge.Server.Progress
import LabBridge.Server.ServingStages

/-!
# What a request in flight knows

The versions that a transaction has stored and what it has seen of the committed tables, stage
by stage. A report that has found its run open knows that the run is open until another report
of the run is committed. Once it holds the receipt of its claim, no other report can be.
-/

namespace LabBridge.Server

open ByteText LabBridge.Core Storage Interaction AgentReportService ReceiptRepository

variable {R : Runtime} {reported : TaskRunStatus → Prop} {db view committed : Database}
  {serving other : Serving}

/-- What the tables under the versions of a transaction hold. -/
structure Seen (serving : Serving) (db view : Database) : Prop where
  runs : LaidOver TaskRunRow.id serving.own.runs db.taskRuns.rows view.taskRuns.rows
  rawFiles : LaidOver RawFileRow.id serving.evidence.rawFiles db.rawFiles.rows view.rawFiles.rows
  parsedRecords : LaidOver ParsedRecordRow.id serving.evidence.parsedRecords
    db.parsedRecords.rows view.parsedRecords.rows
  qcResults : LaidOver QcResultRow.id serving.evidence.qcResults db.qcResults.rows
    view.qcResults.rows
  alerts : LaidOver AlertRow.id serving.evidence.alerts db.alerts.rows view.alerts.rows
  receipts : LaidOver ReceiptRow.id serving.evidence.receipts db.receipts.rows view.receipts.rows
  nextRun : view.taskRuns.next = db.taskRuns.next
  nextAlert : view.alerts.next = db.alerts.next
  nextReceipt : view.receipts.next = db.receipts.next

/-- A transaction sees its versions laid over the committed tables. -/
theorem seen_of_view (h : serving.view db = some view) : Seen serving db view := by
  obtain ⟨middle, hpatch, hevidence⟩ := Option.bind_eq_some_iff.mp h
  unfold Patch.overlay at hpatch
  split at hpatch
  · rename_i taskRuns tasks hruns htasks
    cases hpatch
    unfold EvidencePatch.overlay at hevidence
    split at hevidence
    · rename_i rawFiles parsedRecords qcResults alerts receipts hfiles hparsed hresults halerts
        hreceipts
      cases hevidence
      exact ⟨SerialTable.laidOver_overlay hruns, SerialTable.laidOver_overlay hfiles,
        SerialTable.laidOver_overlay hparsed, SerialTable.laidOver_overlay hresults,
        SerialTable.laidOver_overlay halerts, SerialTable.laidOver_overlay hreceipts,
        SerialTable.next_overlay hruns, SerialTable.next_overlay halerts,
        SerialTable.next_overlay hreceipts⟩
    · cases hevidence
  · cases hpatch

/-- No evidence and no alert is stored. -/
structure EvidencePatch.NoRows (evidence : EvidencePatch) : Prop where
  rawFiles : evidence.rawFiles = []
  parsedRecords : evidence.parsedRecords = []
  qcResults : evidence.qcResults = []
  alerts : evidence.alerts = []

/-- A run is stored open, in a state in which a report may find it. -/
def OpenRun (reported : TaskRunStatus → Prop) (db : Database) (run : RowId) : Prop :=
  ∃ row ∈ db.taskRuns.rows, row.id = run ∧ row.status.isTerminal = false ∧ reported row.status

/-- A report of a run is stored. -/
def HasReport (receipts : List ReceiptRow) (run : RowId) : Prop :=
  ∃ receipt ∈ receipts, receipt.requestType = .taskRunReport ∧ receipt.taskRunId = run

/-- The end of a run by a report. -/
structure EndsRun (reported : TaskRunStatus → Prop) (before after : TaskRunRow) : Prop where
  isOpen : before.status.isTerminal = false
  allowed : reported before.status
  ended : after.status.isTerminal = true
  same : SameRun before after

/-- A version of a run by a request that creates and starts runs. -/
def StartsRun (db : Database) (version : TaskRunRow) : Prop :=
  (∃ run ∈ db.taskRuns.rows, StartMove run version) ∨
    version.status.isTerminal = false ∧ ∀ run ∈ db.taskRuns.rows, run.id ≠ version.id

/-- The receipt that a transaction has claimed is among its versions. -/
def Claims (pg : Postgres) (claim : AgentReportReceiptClaim) (receiptId : Bytes)
    (evidence : EvidencePatch) : Prop :=
  ∃ receipt ∈ evidence.receipts, receiptId = decimal receipt.id ∧
    ReceiptRepository.Names pg claim receipt ∧
      pg.idParam claim.taskRunId = .ok (some receipt.taskRunId)

/-- A manifest stores files for the run it names, and only if it lists some. -/
structure StoresFiles (R : Runtime) (request : RawFileManifestRequest) (receiptId : Bytes)
    (evidence : EvidencePatch) : Prop where
  claims : Claims R.postgres (manifestClaim R request) receiptId evidence
  files : ∀ file ∈ evidence.rawFiles, request.files ≠ [] ∧
    R.postgres.idParam request.taskRunId = .ok (some file.taskRunId)
  parsedRecords : evidence.parsedRecords = []
  qcResults : evidence.qcResults = []
  alerts : evidence.alerts = []

/-- A report stores rows for the run it names, which is open. -/
structure StoresRows (R : Runtime) (reported : TaskRunStatus → Prop)
    (request : TaskRunReportRequest) (receiptId : Bytes) (db : Database)
    (evidence : EvidencePatch) (run : RowId) : Prop where
  named : R.postgres.idParam request.taskRunId = .ok (some run)
  claims : Claims R.postgres (reportClaim R request) receiptId evidence
  isOpen : OpenRun reported db run
  rawFiles : evidence.rawFiles = []
  parsedRecords : ∀ parsed ∈ evidence.parsedRecords, parsed.taskRunId = run
  qcResults : ∀ result ∈ evidence.qcResults, ∃ parsed ∈ evidence.parsedRecords,
    parsed.id = result.parsedRecordId
  alerts : ∀ alert ∈ evidence.alerts, alert.taskRunId = some run

/-- What a transaction knows in a stage of its request. -/
def Serving.Knows (R : Runtime) (reported : TaskRunStatus → Prop) (db : Database)
    (serving : Serving) : Call → ServingStage → Prop
  | .start _, _ | .trigger _ _, _ | .retry _ _, _ => serving.evidence.NoRows ∧
      ∀ version ∈ serving.own.runs, StartsRun db version
  | .setEnabled _ _, _ => serving.evidence.NoRows ∧
      ∀ version ∈ serving.own.runs, ∃ run ∈ db.taskRuns.rows, DisableMove run version
  | .disposeAlert _ _, _ => serving.own.runs = [] ∧
      { serving.evidence with alerts := [] }.NoRows ∧
      ∀ alert ∈ serving.evidence.alerts, ∃ stored ∈ db.alerts.rows, SameAlert stored alert
  | .manifest request, .claimed receiptId => serving.own.runs = [] ∧
      StoresFiles R request receiptId serving.evidence
  | .manifest _, _ => serving.own.runs = [] ∧ serving.evidence.NoRows
  | .report _, .begun => serving.asked = 0 ∧ serving.own.runs = [] ∧ serving.evidence.NoRows
  | .report _, .reading => serving.asked ≠ 0 ∧ serving.own.runs = [] ∧ serving.evidence.NoRows
  | .report request, .opened => serving.asked ≠ 0 ∧ serving.own.runs = [] ∧
      serving.evidence.NoRows ∧ ∃ run, R.postgres.idParam request.taskRunId = .ok (some run) ∧
        (OpenRun reported db run ∨ HasReport db.receipts.rows run)
  | .report request, .claimed receiptId => serving.asked ≠ 0 ∧ serving.own.runs = [] ∧
      ∃ run, StoresRows R reported request receiptId db serving.evidence run
  | .report request, .parsed receiptId key => serving.asked ≠ 0 ∧ serving.own.runs = [] ∧
      ∃ run, StoresRows R reported request receiptId db serving.evidence run ∧
        ∃ parsed ∈ serving.evidence.parsedRecords, key = decimal parsed.id
  | .report request, .located receiptId taskRunId => serving.asked ≠ 0 ∧ serving.own.runs = [] ∧
      ∃ run, StoresRows R reported request receiptId db serving.evidence run ∧
        taskRunId = decimal run
  | .report request, .finished receiptId => serving.asked ≠ 0 ∧
      ∃ run, StoresRows R reported request receiptId db serving.evidence run ∧
        ∀ version ∈ serving.own.runs, version.id = run ∧
          ∃ row ∈ db.taskRuns.rows, EndsRun reported row version

/-- The facts about a transaction in flight: what its stage tells, and that its versions are of
rows which it has locked or numbered itself. -/
structure Serving.Sound (R : Runtime) (reported : TaskRunStatus → Prop) (db : Database)
    (serving : Serving) : Prop where
  stage : ∃ stage, Serves R serving.call (fun _ _ => True) serving.rest stage ∧
    serving.Knows R reported db serving.call stage
  heldRuns : ∀ version ∈ serving.own.runs, version.id ∈ serving.heldRuns
  heldAlerts : ∀ alert ∈ serving.evidence.alerts, alert.id ∈ serving.heldAlerts
  belowRun : ∀ id ∈ serving.heldRuns, (id : ℕ) < db.taskRuns.next
  belowAlert : ∀ id ∈ serving.heldAlerts, (id : ℕ) < db.alerts.next
  belowReceipt : ∀ receipt ∈ serving.evidence.receipts, (receipt.id : ℕ) < db.receipts.next
  receipts : ∀ receipt ∈ serving.evidence.receipts, ∀ stored ∈ db.receipts.rows,
    stored.id ≠ receipt.id ∧ stored.clash receipt = false

/-- Two transactions hold different runs and alerts, and receipts that exclude each other in no
index. -/
structure Separate (left right : Serving) : Prop where
  runs : ∀ id ∈ left.heldRuns, id ∉ right.heldRuns
  alerts : ∀ id ∈ left.heldAlerts, id ∉ right.heldAlerts
  receipts : ∀ first ∈ left.evidence.receipts, ∀ second ∈ right.evidence.receipts,
    first.id ≠ second.id ∧ first.clash second = false

/-- Being separate is mutual. -/
theorem Separate.symm (h : Separate serving other) : Separate other serving where
  runs id hid hid' := h.runs id hid' hid
  alerts id hid hid' := h.alerts id hid' hid
  receipts first hfirst second hsecond := by
    obtain ⟨hne, hfree⟩ := h.receipts second hsecond first hfirst
    exact ⟨hne.symm, (ReceiptRow.clash_symm first second).trans hfree⟩

/-- How a transaction has come to a version of a run. -/
inductive MovesRun (reported : TaskRunStatus → Prop) (db : Database) (serving : Serving)
    (version : TaskRunRow) : Prop
  | starts (starts : StartsRun db version)
  | disables {taskId : Bytes} {enabled : Bool} {run : TaskRunRow}
      (switches : serving.call = .setEnabled taskId enabled) (stored : run ∈ db.taskRuns.rows)
      (move : DisableMove run version)
  | ends {run : TaskRunRow} (report : HasReport serving.evidence.receipts version.id)
      (stored : run ∈ db.taskRuns.rows) (move : EndsRun reported run version)

/-- The receipt of a claimed report is a report of its run. -/
theorem StoresRows.hasReport {request : TaskRunReportRequest} {receiptId : Bytes}
    {evidence : EvidencePatch} {run : RowId}
    (h : StoresRows R reported request receiptId db evidence run) :
    HasReport evidence.receipts run := by
  obtain ⟨receipt, hreceipt, -, hnames, hrun⟩ := h.claims
  have hid : some run = some receipt.taskRunId := Except.ok.inj (h.named.symm.trans hrun)
  exact ⟨receipt, hreceipt, hnames.type, (Option.some.inj hid).symm⟩

/-- Every version of a run is one that its request makes. -/
theorem Serving.Knows.movesRun {stage : ServingStage}
    (h : serving.Knows R reported db serving.call stage) {version : TaskRunRow}
    (hversion : version ∈ serving.own.runs) : MovesRun reported db serving version := by
  have hnone {P : Prop} (hnil : serving.own.runs = []) : P := by
    rw [hnil] at hversion
    cases hversion
  generalize hcall : serving.call = call at h
  cases call with
  | start request => exact .starts (h.2 version hversion)
  | trigger taskId key => exact .starts (h.2 version hversion)
  | retry taskRunId key => exact .starts (h.2 version hversion)
  | setEnabled taskId enabled =>
    obtain ⟨run, hrun, move⟩ := h.2 version hversion
    exact .disables hcall hrun move
  | disposeAlert alertId acknowledge => exact hnone h.1
  | manifest request => cases stage <;> exact hnone h.1
  | report request =>
    cases stage with
    | finished receiptId =>
      obtain ⟨-, run, hstores, hends⟩ := h
      obtain ⟨rfl, row, hrow, move⟩ := hends version hversion
      exact .ends hstores.hasReport hrow move
    | _ => exact hnone h.2.1

/-- A move of a run keeps its identifier and is one of the moves of runs. -/
theorem MovesRun.cases {version : TaskRunRow} (h : MovesRun reported db serving version) :
    (∃ run ∈ db.taskRuns.rows, RunMove reported run version) ∨
      version.status.isTerminal = false ∧ ∀ run ∈ db.taskRuns.rows, run.id ≠ version.id := by
  cases h with
  | starts starts =>
    refine starts.imp_left fun ⟨run, hrun, move⟩ => ⟨run, hrun, ?_⟩
    cases move with
    | stay unchanged => exact .stay unchanged
    | start pending running same => exact .start pending running same
  | disables _ stored move =>
    refine .inl ⟨_, stored, ?_⟩
    cases move with
    | stay unchanged => exact .stay unchanged
    | disable pending failed same => exact .disable pending failed same
  | ends _ stored move => exact .inl ⟨_, stored, .finish move.isOpen move.allowed move.ended move.same⟩

/-- A switch gives up a waiting run. -/
def GivesUp (db : Database) (serving : Serving) (run : RowId) : Prop :=
  ∃ version ∈ serving.own.runs, version.id = run ∧ version.status = .failed ∧
    ∃ row ∈ db.taskRuns.rows, row.id = run ∧ row.status = .pending

/-- What a transaction knows holds of other tables that keep the rows it depends on. -/
theorem Serving.Knows.transfer {stage : ServingStage}
    (hstarts : ∀ version ∈ serving.own.runs, StartsRun db version → StartsRun committed version)
    (hruns : ∀ version ∈ serving.own.runs, ∀ run ∈ db.taskRuns.rows, version.id = run.id →
      run ∈ committed.taskRuns.rows)
    (halerts : ∀ alert ∈ serving.evidence.alerts, ∀ stored ∈ db.alerts.rows,
      alert.id = stored.id → stored ∈ committed.alerts.rows)
    (hfound : ∀ request run, serving.call = .report request → serving.asked ≠ 0 →
      R.postgres.idParam request.taskRunId = .ok (some run) →
        OpenRun reported db run ∨ HasReport db.receipts.rows run →
          OpenRun reported committed run ∨ HasReport committed.receipts.rows run)
    (hstores : ∀ request, serving.call = .report request → serving.asked ≠ 0 →
      ∀ receiptId run, StoresRows R reported request receiptId db serving.evidence run →
        StoresRows R reported request receiptId committed serving.evidence run)
    (h : serving.Knows R reported db serving.call stage) :
    serving.Knows R reported committed serving.call stage := by
  generalize hcall : serving.call = call at h ⊢
  cases call with
  | start request => exact ⟨h.1, fun version hversion => hstarts version hversion (h.2 _ hversion)⟩
  | trigger taskId key =>
    exact ⟨h.1, fun version hversion => hstarts version hversion (h.2 _ hversion)⟩
  | retry taskRunId key =>
    exact ⟨h.1, fun version hversion => hstarts version hversion (h.2 _ hversion)⟩
  | setEnabled taskId enabled =>
    refine ⟨h.1, fun version hversion => ?_⟩
    obtain ⟨run, hrun, move⟩ := h.2 version hversion
    refine ⟨run, hruns version hversion run hrun ?_, move⟩
    cases move with
    | stay unchanged => rw [unchanged]
    | disable _ _ same => exact same.id
  | disposeAlert alertId acknowledge =>
    refine ⟨h.1, h.2.1, fun alert halert => ?_⟩
    obtain ⟨stored, hstored, same⟩ := h.2.2 alert halert
    exact ⟨stored, halerts alert halert stored hstored same.id, same⟩
  | manifest request => cases stage <;> exact h
  | report request =>
    cases stage with
    | begun => exact h
    | reading => exact h
    | opened =>
      obtain ⟨hasked, hempty, hrows, run, hid, hopen⟩ := h
      exact ⟨hasked, hempty, hrows, run, hid, hfound request run hcall hasked hid hopen⟩
    | claimed receiptId =>
      obtain ⟨hasked, hempty, run, h⟩ := h
      exact ⟨hasked, hempty, run, hstores request hcall hasked receiptId run h⟩
    | parsed receiptId key =>
      obtain ⟨hasked, hempty, run, h, hkey⟩ := h
      exact ⟨hasked, hempty, run, hstores request hcall hasked receiptId run h, hkey⟩
    | located receiptId taskRunId =>
      obtain ⟨hasked, hempty, run, h, hid⟩ := h
      exact ⟨hasked, hempty, run, hstores request hcall hasked receiptId run h, hid⟩
    | finished receiptId =>
      obtain ⟨hasked, run, h, hends⟩ := h
      refine ⟨hasked, run, hstores request hcall hasked receiptId run h,
        fun version hversion => ?_⟩
      obtain ⟨hid, row, hrow, move⟩ := hends version hversion
      exact ⟨hid, row, hruns version hversion row hrow move.same.id, move⟩

/-- The tables that requests on runs write hold the same rows, and no key is taken back. -/
structure SameRows (before after : Database) : Prop where
  runs : after.taskRuns.rows = before.taskRuns.rows
  rawFiles : after.rawFiles.rows = before.rawFiles.rows
  parsedRecords : after.parsedRecords.rows = before.parsedRecords.rows
  qcResults : after.qcResults.rows = before.qcResults.rows
  alerts : after.alerts.rows = before.alerts.rows
  receipts : after.receipts.rows = before.receipts.rows
  nextRun : before.taskRuns.next ≤ after.taskRuns.next
  nextAlert : before.alerts.next ≤ after.alerts.next
  nextReceipt : before.receipts.next ≤ after.receipts.next

/-- A statement commits nothing. -/
theorem sameRows_rollback (before after : Database) : SameRows before (before.rollback after) :=
  ⟨rfl, rfl, rfl, rfl, rfl, rfl, le_max_left _ _, le_max_left _ _, le_max_left _ _⟩

/-- Configuration concerns other tables. -/
theorem sameRows_of_configures {pg : Postgres} (h : Configures pg db committed) :
    SameRows db committed := by
  constructor <;> simp [h.taskRuns, h.rawFiles, h.parsedRecords, h.qcResults, h.alerts, h.receipts]

/-- What a transaction knows depends on the rows only. -/
theorem Serving.Knows.of_sameRows {stage : ServingStage}
    (h : serving.Knows R reported db serving.call stage) (hsame : SameRows db committed) :
    serving.Knows R reported committed serving.call stage := by
  have hopen {run : RowId} (h : OpenRun reported db run) : OpenRun reported committed run := by
    unfold OpenRun
    rw [hsame.runs]
    exact h
  refine h.transfer ?_ ?_ ?_ ?_ ?_
  · intro version _ hstarts
    unfold StartsRun
    rw [hsame.runs]
    exact hstarts
  · exact fun _ _ run hrun _ => hsame.runs ▸ hrun
  · exact fun _ _ stored hstored _ => hsame.alerts ▸ hstored
  · intro request run _ _ _ hfound
    rw [hsame.receipts]
    exact hfound.imp_left hopen
  · exact fun _ _ _ _ _ hstores => { hstores with isOpen := hopen hstores.isOpen }

/-- The facts about a transaction depend on the rows only. -/
theorem Serving.Sound.of_sameRows (h : serving.Sound R reported db)
    (hsame : SameRows db committed) : serving.Sound R reported committed where
  stage := by
    obtain ⟨stage, hfollows, hknows⟩ := h.stage
    exact ⟨stage, hfollows, hknows.of_sameRows hsame⟩
  heldRuns := h.heldRuns
  heldAlerts := h.heldAlerts
  belowRun id hid := lt_of_lt_of_le (h.belowRun id hid) hsame.nextRun
  belowAlert id hid := lt_of_lt_of_le (h.belowAlert id hid) hsame.nextAlert
  belowReceipt receipt hreceipt :=
    lt_of_lt_of_le (h.belowReceipt receipt hreceipt) hsame.nextReceipt
  receipts := hsame.receipts ▸ h.receipts

section Commit

variable (hserving : serving.Sound R reported db) (hseen : Seen serving db committed)

include hserving hseen

/-- A run that the transaction does not hold is committed as it is. -/
theorem mem_run_of_not_held {run : TaskRunRow} (hrun : run ∈ db.taskRuns.rows)
    (hheld : run.id ∉ serving.heldRuns) : run ∈ committed.taskRuns.rows :=
  hseen.runs.of_stored hrun fun version hversion hid =>
    hheld (hid ▸ hserving.heldRuns version hversion)

/-- An alert that the transaction does not hold is committed as it is. -/
theorem mem_alert_of_not_held {alert : AlertRow} (halert : alert ∈ db.alerts.rows)
    (hheld : alert.id ∉ serving.heldAlerts) : alert ∈ committed.alerts.rows :=
  hseen.alerts.of_stored halert fun version hversion hid =>
    hheld (hid ▸ hserving.heldAlerts version hversion)

/-- A stored receipt stays. -/
theorem HasReport.commit {run : RowId} (h : HasReport db.receipts.rows run) :
    HasReport committed.receipts.rows run := by
  obtain ⟨receipt, hreceipt, htype, hrun⟩ := h
  refine ⟨receipt, hseen.receipts.of_stored hreceipt fun version hversion => ?_, htype, hrun⟩
  exact ((hserving.receipts version hversion receipt hreceipt).1).symm

/-- A run that is open stays so until a report of it is committed, unless it is given up. -/
theorem OpenRun.commit (hrunning : reported .running) {run : RowId}
    (hkept : reported .pending → ¬GivesUp db serving run) (h : OpenRun reported db run) :
    OpenRun reported committed run ∨ HasReport committed.receipts.rows run := by
  obtain ⟨row, hrow, hid, hopen, hallowed⟩ := h
  by_cases htouched : ∃ version ∈ serving.own.runs, version.id = row.id
  · obtain ⟨version, hversion, hsame⟩ := htouched
    have hmem := hseen.runs.of_version hversion
    obtain ⟨stage, -, hknows⟩ := hserving.stage
    have hrunning' (hstatus : version.status = .running) : OpenRun reported committed run :=
      ⟨version, hmem, hsame.trans hid, by rw [hstatus]; rfl, by rw [hstatus]; exact hrunning⟩
    have hstay (unchanged : version = row) : OpenRun reported committed run :=
      ⟨version, hmem, hsame.trans hid, by rw [unchanged]; exact hopen,
        by rw [unchanged]; exact hallowed⟩
    cases hknows.movesRun hversion with
    | starts starts =>
      rcases starts with ⟨source, hsource, move⟩ | ⟨-, hfresh⟩
      · cases move with
        | stay unchanged =>
          obtain rfl := SerialTable.eq_of_key_eq hsource hrow (unchanged ▸ hsame)
          exact .inl (hstay unchanged)
        | start _ running _ => exact .inl (hrunning' running)
      · exact absurd hsame.symm (hfresh row hrow)
    | disables _ stored move =>
      cases move with
      | stay unchanged =>
        obtain rfl := SerialTable.eq_of_key_eq stored hrow (unchanged ▸ hsame)
        exact .inl (hstay unchanged)
      | disable pending failed same =>
        obtain rfl := SerialTable.eq_of_key_eq stored hrow (same.id.symm.trans hsame)
        refine absurd ⟨version, hversion, hsame.trans hid, failed, _, hrow, hid, pending⟩ (hkept ?_)
        exact pending ▸ hallowed
    | ends report stored move =>
      obtain ⟨receipt, hreceipt, htype, hrun⟩ := report
      exact .inr ⟨receipt, hseen.receipts.of_version hreceipt, htype,
        hrun.trans (hsame.trans hid)⟩
  · push Not at htouched
    exact .inl ⟨row, hseen.runs.of_stored hrow htouched, hid, hopen, hallowed⟩

variable (hother : other.Sound R reported db) (happart : Separate serving other)

include hother happart

omit hserving in
/-- The receipts of another transaction stay apart from what is stored. -/
theorem receipts_commit : ∀ receipt ∈ other.evidence.receipts, ∀ stored ∈ committed.receipts.rows,
    stored.id ≠ receipt.id ∧ stored.clash receipt = false := by
  intro receipt hreceipt stored hstored
  rcases hseen.receipts.origin hstored with hown | hold
  · exact happart.receipts stored hown receipt hreceipt
  · exact hother.receipts receipt hreceipt stored hold

/-- The run of a version of another transaction is committed as it is. -/
theorem mem_run_of_version {version run : TaskRunRow} (hversion : version ∈ other.own.runs)
    (hrun : run ∈ db.taskRuns.rows) (hid : version.id = run.id) : run ∈ committed.taskRuns.rows :=
  mem_run_of_not_held hserving hseen hrun fun hheld =>
    happart.runs _ hheld (hid ▸ hother.heldRuns version hversion)

/-- A run that another transaction has created is not committed by anyone else. -/
theorem StartsRun.commit {version : TaskRunRow} (hversion : version ∈ other.own.runs)
    (h : StartsRun db version) : StartsRun committed version := by
  rcases h with ⟨run, hrun, move⟩ | ⟨hopen, hfresh⟩
  · have hid : version.id = run.id := by
      cases move with
      | stay unchanged => rw [unchanged]
      | start _ _ same => exact same.id
    exact .inl ⟨run, mem_run_of_version hserving hseen hother happart hversion hrun hid, move⟩
  · refine .inr ⟨hopen, fun run hrun hid => ?_⟩
    rcases hseen.runs.origin hrun with hown | hold
    · exact happart.runs _ (hserving.heldRuns run hown) (hid ▸ hother.heldRuns version hversion)
    · exact hfresh run hold hid

/-- A claimed report keeps its run open. -/
theorem StoresRows.commit (hrunning : reported .running) {request : TaskRunReportRequest}
    {receiptId : Bytes} {run : RowId} (hkept : reported .pending → ¬GivesUp db serving run)
    (h : StoresRows R reported request receiptId db other.evidence run) :
    StoresRows R reported request receiptId committed other.evidence run where
  named := h.named
  claims := h.claims
  isOpen := by
    refine (h.isOpen.commit hserving hseen hrunning hkept).resolve_right fun hreport => ?_
    obtain ⟨stored, hstored, htype, hrun⟩ := hreport
    obtain ⟨receipt, hreceipt, htype', hrun'⟩ := h.hasReport
    have hfree :=
      (receipts_commit hseen hother happart receipt hreceipt stored hstored).2
    rw [ReceiptRow.clash_eq_true.mpr (.inr ⟨htype, htype', hrun.trans hrun'.symm⟩)] at hfree
    cases hfree
  rawFiles := h.rawFiles
  parsedRecords := h.parsedRecords
  qcResults := h.qcResults
  alerts := h.alerts

/-- What a transaction knows survives a commit that gives up no run it reports on. -/
theorem Serving.Knows.commit (hrunning : reported .running)
    (hkept : ∀ request run, other.call = .report request → other.asked ≠ 0 →
      R.postgres.idParam request.taskRunId = .ok (some run) → reported .pending →
        ¬GivesUp db serving run) {stage : ServingStage}
    (h : other.Knows R reported db other.call stage) :
    other.Knows R reported committed other.call stage := by
  refine h.transfer ?_ ?_ ?_ ?_ ?_
  · exact fun version hversion => StartsRun.commit hserving hseen hother happart hversion
  · exact fun version hversion run hrun hid =>
      mem_run_of_version hserving hseen hother happart hversion hrun hid
  · intro alert halert stored hstored hid
    refine mem_alert_of_not_held hserving hseen hstored fun hheld => ?_
    exact happart.alerts _ hheld (hid ▸ hother.heldAlerts alert halert)
  · intro request run hcall hasked hid hfound
    rcases hfound with hopen | hreport
    · exact hopen.commit hserving hseen hrunning (hkept request run hcall hasked hid)
    · exact .inr (hreport.commit hserving hseen)
  · intro request hcall hasked receiptId run hstores
    exact hstores.commit hserving hseen hother happart hrunning
      (hkept request run hcall hasked hstores.named)

/-- The facts about a transaction survive the commit of one that holds other rows. -/
theorem Serving.Sound.commit (hrunning : reported .running)
    (hkept : ∀ request run, other.call = .report request → other.asked ≠ 0 →
      R.postgres.idParam request.taskRunId = .ok (some run) → reported .pending →
        ¬GivesUp db serving run) : other.Sound R reported committed where
  stage := by
    obtain ⟨stage, hfollows, hknows⟩ := hother.stage
    exact ⟨stage, hfollows, hknows.commit hserving hseen hother happart hrunning hkept⟩
  heldRuns := hother.heldRuns
  heldAlerts := hother.heldAlerts
  belowRun := hseen.nextRun ▸ hother.belowRun
  belowAlert := hseen.nextAlert ▸ hother.belowAlert
  belowReceipt := hseen.nextReceipt ▸ hother.belowReceipt
  receipts := receipts_commit hseen hother happart

end Commit

end LabBridge.Server
