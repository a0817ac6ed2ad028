import LabBridge.Server.Reference
import LabBridge.Server.StatementFrames

/-!
# The life of an alert

A report raises an alert open, and operators acknowledge and close it. An alert only moves
forward, keeps what it was raised with, and keeps the time of its first acknowledgement and of
its closing. A disposition that succeeded is answered again as it was, or refused once the alert
is closed, and changes nothing.
-/

namespace LabBridge.Server

open ByteText LabBridge.Core Storage Interaction

variable {R : Runtime} {pg : Postgres} {session : Session} {db db' : Database} {α : Type}

/-- The stages of an alert with the times that belong to them. -/
inductive Disposition (alert : AlertRow) : Prop
  | opened (status : alert.status = text "open") (acknowledgedAt : alert.acknowledgedAt = none)
      (closedAt : alert.closedAt = none)
  | acknowledged (status : alert.status = text "acknowledged")
      (acknowledgedAt : alert.acknowledgedAt.isSome) (closedAt : alert.closedAt = none)
  | closed (status : alert.status = text "closed") (closedAt : alert.closedAt.isSome)

/-- An alert of a rule result in one of its stages. -/
structure Filed (alert : AlertRow) : Prop where
  alertType : alert.alertType = text "qc_result"
  severity : AlertService.isAlertLevel alert.severity = true
  disposition : Disposition alert

/-- An alert that nobody has looked at. -/
structure Raised (alert : AlertRow) : Prop where
  filed : Filed alert
  isOpen : alert.status = text "open"

/-- The moves of an alert: an open one is acknowledged, and one that is not closed is closed. -/
inductive AlertMove (before after : AlertRow) : Prop
  | stay (unchanged : after = before)
  | acknowledge (now : Timestamp) (isOpen : before.status = text "open")
      (changed : after = { before with
        status := text "acknowledged"
        acknowledgedAt := some now })
  | close (now : Timestamp) (notClosed : before.status ≠ text "closed")
      (changed : after = { before with
        status := text "closed"
        closedAt := some now })

/-- Every alert makes a move of its life, and an alert that is added is open. -/
def MovesAlerts (before after : Database) : Prop :=
  Evolves AlertMove Raised before.alerts.rows after.alerts.rows

/-- What an alert keeps over any number of moves. -/
structure Advances (before after : AlertRow) : Prop where
  id : after.id = before.id
  nodeCode : after.nodeCode = before.nodeCode
  taskRunId : after.taskRunId = before.taskRunId
  alertType : after.alertType = before.alertType
  severity : after.severity = before.severity
  message : after.message = before.message
  acknowledgedAt : before.acknowledgedAt.isSome → after.acknowledgedAt = before.acknowledgedAt
  acknowledged : before.status = text "acknowledged" →
    after.status = text "acknowledged" ∨ after.status = text "closed"
  closed : before.status = text "closed" → after = before

/-- Every alert is still there, advanced. -/
def KeepsAlerts (before after : Database) : Prop :=
  ∀ alert ∈ before.alerts.rows, ∃ later ∈ after.alerts.rows, Advances alert later

/-- Every stored alert is in one of its stages. -/
def AlertsFiled (db : Database) : Prop := ∀ alert ∈ db.alerts.rows, Filed alert

/-! ## Moves -/

/-- The statuses of an alert differ. -/
theorem closed_ne_open : text "closed" ≠ text "open" := by decide +kernel

/-- The statuses of an alert differ. -/
theorem closed_ne_acknowledged : text "closed" ≠ text "acknowledged" := by decide +kernel

/-- The statuses of an alert differ. -/
theorem acknowledged_ne_open : text "acknowledged" ≠ text "open" := by decide +kernel

/-- An alert that stays advances. -/
theorem Advances.refl (alert : AlertRow) : Advances alert alert :=
  ⟨rfl, rfl, rfl, rfl, rfl, rfl, fun _ => rfl, .inl, fun _ => rfl⟩

/-- An alert that advances twice advances. -/
theorem Advances.trans {a b c : AlertRow} (first : Advances a b) (second : Advances b c) :
    Advances a c where
  id := second.id.trans first.id
  nodeCode := second.nodeCode.trans first.nodeCode
  taskRunId := second.taskRunId.trans first.taskRunId
  alertType := second.alertType.trans first.alertType
  severity := second.severity.trans first.severity
  message := second.message.trans first.message
  acknowledgedAt h := by
    have hkept := first.acknowledgedAt h
    exact (second.acknowledgedAt (hkept ▸ h)).trans hkept
  acknowledged h := by
    cases first.acknowledged h with
    | inl hstill => exact second.acknowledged hstill
    | inr hclosed => exact .inr (second.closed hclosed ▸ hclosed)
  closed h := by
    have hkept := first.closed h
    exact (second.closed (hkept ▸ h)).trans hkept

/-- A move keeps an alert in one of its stages. -/
theorem AlertMove.filed {before after : AlertRow} (h : AlertMove before after)
    (hfiled : Filed before) : Filed after := by
  cases h with
  | stay unchanged => exact unchanged ▸ hfiled
  | acknowledge now isOpen changed =>
    subst changed
    refine ⟨hfiled.alertType, hfiled.severity, .acknowledged rfl rfl ?_⟩
    cases hfiled.disposition with
    | opened _ _ closedAt => exact closedAt
    | acknowledged _ _ closedAt => exact closedAt
    | closed status _ => exact absurd (status.symm.trans isOpen) closed_ne_open
  | close now _ changed =>
    subst changed
    exact ⟨hfiled.alertType, hfiled.severity, .closed rfl rfl⟩

/-- A move of an alert in one of its stages advances it. -/
theorem AlertMove.advances {before after : AlertRow} (h : AlertMove before after)
    (hfiled : Filed before) : Advances before after := by
  cases h with
  | stay unchanged => exact unchanged ▸ .refl before
  | acknowledge now isOpen changed =>
    subst changed
    refine ⟨rfl, rfl, rfl, rfl, rfl, rfl, fun htime => ?_, fun _ => .inl rfl, fun hclosed => ?_⟩
    · cases hfiled.disposition with
      | opened _ acknowledgedAt _ =>
        rw [acknowledgedAt] at htime
        cases htime
      | acknowledged status _ _ => exact absurd (status.symm.trans isOpen) acknowledged_ne_open
      | closed status _ => exact absurd (status.symm.trans isOpen) closed_ne_open
    · exact absurd (hclosed.symm.trans isOpen) closed_ne_open
  | close now notClosed changed =>
    subst changed
    exact ⟨rfl, rfl, rfl, rfl, rfl, rfl, fun _ => rfl, fun _ => .inr rfl,
      fun hclosed => absurd hclosed notClosed⟩

/-- An acknowledged alert that advances and is not closed stays as it is. -/
theorem Advances.eq_of_acknowledged {before after : AlertRow} (h : Advances before after)
    (hbefore : Filed before) (hafter : Filed after)
    (hacknowledged : before.status = text "acknowledged")
    (hstill : after.status = text "acknowledged") : after = before := by
  have hstage {alert : AlertRow} (hfiled : Filed alert)
      (hstatus : alert.status = text "acknowledged") :
      alert.acknowledgedAt.isSome ∧ alert.closedAt = none := by
    cases hfiled.disposition with
    | opened status _ _ => exact absurd (hstatus.symm.trans status) acknowledged_ne_open
    | acknowledged _ acknowledgedAt closedAt => exact ⟨acknowledgedAt, closedAt⟩
    | closed status _ => exact absurd (status.symm.trans hstatus) closed_ne_acknowledged
  obtain ⟨htime, hopen⟩ := hstage hbefore hacknowledged
  obtain ⟨-, hlater⟩ := hstage hafter hstill
  cases after
  cases before
  simp only [AlertRow.mk.injEq]
  exact ⟨h.id, h.nodeCode, h.taskRunId, h.alertType, h.severity, h.message,
    hstill.trans hacknowledged.symm, h.acknowledgedAt htime, hlater.trans hopen.symm⟩

/-- The moves of a step keep every alert in one of its stages. -/
theorem MovesAlerts.filed (h : MovesAlerts db db') (hfiled : AlertsFiled db) :
    AlertsFiled db' := by
  intro alert halert
  cases h.origin halert with
  | inl hmoved =>
    obtain ⟨before, hbefore, hmove⟩ := hmoved
    exact hmove.filed (hfiled before hbefore)
  | inr hraised => exact hraised.filed

/-- The moves of a step advance every alert. -/
theorem MovesAlerts.keeps (h : MovesAlerts db db') (hfiled : AlertsFiled db) :
    KeepsAlerts db db' := by
  intro alert halert
  obtain ⟨later, hlater, hmove⟩ := h.exists_moved halert
  exact ⟨later, hlater, hmove.advances (hfiled alert halert)⟩

/-- Alerts that are kept twice are kept. -/
theorem KeepsAlerts.trans {a b c : Database} (first : KeepsAlerts a b) (second : KeepsAlerts b c) :
    KeepsAlerts a c := by
  intro alert halert
  obtain ⟨middle, hmiddle, hfirst⟩ := first alert halert
  obtain ⟨later, hlater, hsecond⟩ := second middle hmiddle
  exact ⟨later, hlater, hfirst.trans hsecond⟩

/-- Where the alerts stay, every alert makes a move. -/
theorem MovesAlerts.of_eq (h : db'.alerts.rows = db.alerts.rows) : MovesAlerts db db' := by
  unfold MovesAlerts
  rw [h]
  exact .refl (fun _ => .stay rfl) _

/-! ## Raising alerts -/

/-- A statement leaves the alerts or raises an open one. -/
def Statement.Raises : {α : Type} → Statement α → Prop
  | _, .insertAlert record => record.alertType = text "qc_result" ∧
      AlertService.isAlertLevel record.severity = true ∧ record.status = text "open"
  | _, .updateAlert _ _ => False
  | _, _ => True

/-- Open alerts are added behind the others. -/
def RaisesAlerts (before after : Database) : Prop :=
  ∃ added, after.alerts.rows = before.alerts.rows ++ added ∧ ∀ alert ∈ added, Raised alert

/-- Where the alerts stay, none is added. -/
theorem RaisesAlerts.of_eq (h : db'.alerts = db.alerts) : RaisesAlerts db db' :=
  ⟨[], by simp [h], by simp⟩

/-- Alerts that are added twice are added. -/
theorem RaisesAlerts.trans {a b c : Database} (first : RaisesAlerts a b)
    (second : RaisesAlerts b c) : RaisesAlerts a c := by
  obtain ⟨added, hrows, hadded⟩ := first
  obtain ⟨more, hmore, hmoreRaised⟩ := second
  refine ⟨added ++ more, by rw [hmore, hrows, List.append_assoc], fun alert halert => ?_⟩
  cases List.mem_append.mp halert with
  | inl hold => exact hadded alert hold
  | inr hnew => exact hmoreRaised alert hnew

/-- Added alerts are moves of the alerts. -/
theorem RaisesAlerts.moves (h : RaisesAlerts db db') : MovesAlerts db db' := by
  obtain ⟨added, hrows, hadded⟩ := h
  unfold MovesAlerts
  rw [hrows]
  exact .of_append (fun _ => .stay rfl) hadded

/-- A severity that calls for an alert is stored as it is. -/
theorem varcharParam_of_isAlertLevel {level stored : Bytes}
    (hlevel : AlertService.isAlertLevel level = true)
    (h : pg.varcharParam 32 level = .ok stored) : stored = level := by
  simp only [AlertService.isAlertLevel, Bool.or_eq_true, beq_iff_eq] at hlevel
  obtain rfl | rfl := hlevel
  · have hfits : pg.varcharParam 32 (text "warning") = .ok (text "warning") :=
      pg.varcharParam_ascii (by decide +kernel) (by decide +kernel)
    exact Except.ok.inj (h.symm.trans hfits)
  · have hfits : pg.varcharParam 32 (text "failed") = .ok (text "failed") :=
      pg.varcharParam_ascii (by decide +kernel) (by decide +kernel)
    exact Except.ok.inj (h.symm.trans hfits)

/-- The insert of an open alert adds an open alert, or none. -/
theorem insertAlert_raises {record : AlertRecord} {answer : Option Bytes}
    (hraises : (Statement.insertAlert record).Raises)
    (h : db.insertAlert pg record = .ok (answer, db')) : RaisesAlerts db db' := by
  obtain ⟨hkind, hlevel, hopen⟩ := hraises
  have hne : record.status ≠ [] := by
    rw [hopen]
    decide +kernel
  simp only [Database.insertAlert, Answer.bind_eq_ok] at h
  obtain ⟨nodeCode, -, taskRunId, -, alertType, htype, severity, hseverity, message, -, status,
    hstatus, h⟩ := h
  have htype : alertType = text "qc_result" := by
    rw [hkind, pg.varcharParam_ascii (by decide +kernel) (by decide +kernel)] at htype
    exact (Except.ok.inj htype).symm
  have hstatus : status = text "open" := by
    rw [if_neg hne, hopen, pg.varcharParam_ascii (by decide +kernel) (by decide +kernel)] at hstatus
    exact (Except.ok.inj hstatus).symm
  have hseverity := varcharParam_of_isAlertLevel hlevel hseverity
  have hstore {node : NodeRow} {run : Option RowId}
      (h : Database.insertAlert.store db node run alertType severity message status =
        .ok (answer, db')) : RaisesAlerts db db' := by
    simp only [Database.insertAlert.store, Answer.bind_eq_ok, stored_eq_ok] at h
    obtain ⟨⟨key, alerts⟩, hinsert, h⟩ := h
    obtain ⟨-, hrows, -⟩ := SerialTable.insert_eq_ok hinsert
    cases h
    refine ⟨_, hrows, fun alert halert => ?_⟩
    rw [List.mem_singleton.mp halert]
    exact ⟨⟨htype, hseverity ▸ hlevel, .opened hstatus rfl rfl⟩, hstatus⟩
  split at h
  · cases h
    exact .of_eq rfl
  · split at h
    · exact hstore h
    · split at h
      · cases h
        exact .of_eq rfl
      · exact hstore h

/-- A statement that updates no alert adds open ones at most. -/
theorem Statement.Raises.exec {statement : Statement α} (hraises : statement.Raises)
    {answer : α} (h : statement.exec pg session db = .ok (answer, db')) :
    RaisesAlerts db db' := by
  cases statement with
  | insertAlert record => exact insertAlert_raises hraises h
  | updateAlert alertId acknowledge => exact hraises.elim
  | _ => exact .of_eq ((Statement.exec_frame h).alerts id)

/-- A read raises no alert. -/
theorem Statement.IsRead.raises {statement : Statement α} (h : statement.IsRead) :
    statement.Raises := by
  cases statement <;> trivial

/-- Starting a run raises no alert. -/
theorem Statement.IsStarting.raises {statement : Statement α} (h : statement.IsStarting) :
    statement.Raises := by
  cases h with
  | read isRead => exact isRead.raises
  | _ => trivial

/-- Switching a task raises no alert. -/
theorem Statement.IsSwitching.raises {statement : Statement α} (h : statement.IsSwitching) :
    statement.Raises := by
  cases h with
  | read isRead => exact isRead.raises
  | _ => trivial

/-- A transaction that updates no alert. -/
abbrev Raising (tx : Tx α) : Prop := tx.Calls fun _ => Statement.Raises

/-- A transaction that only reads updates no alert. -/
theorem raising_of_reads {tx : Tx α} (h : tx.Calls fun _ => Statement.IsRead) : Raising tx :=
  h.mono fun _ _ => Statement.IsRead.raises

/-- What a raising transaction does to the alerts. -/
theorem Raising.alerts {tx : Tx α} (calls : Raising tx) {result : α}
    (h : Tx.Yields pg session tx db result db') : RaisesAlerts db db' :=
  h.related calls RaisesAlerts (fun _ => .of_eq rfl) .trans fun hraises hexec => hraises.exec hexec

/-- An alert is raised open, for a level that calls for one. -/
theorem createAlert_raising (result : QcResultRecord) (taskRunId nodeCode : Bytes) :
    Raising (AlertService.createAlert result taskRunId nodeCode) := by
  unfold AlertService.createAlert
  split
  · trivial
  · rename_i hcalls
    have hseverity : AlertService.isAlertLevel (AlertService.alertSeverity result) = true := by
      simp only [AlertService.isAlertQcResult, Bool.not_eq_true', Bool.not_eq_false,
        Bool.or_eq_true] at hcalls
      unfold AlertService.alertSeverity
      split
      · assumption
      · rename_i hlevel
        exact hcalls.resolve_left hlevel
    refine Tx.calls_sql_bind.mpr ⟨⟨rfl, hseverity, rfl⟩, fun answer => ?_⟩
    cases answer <;> trivial

namespace AgentReportService

/-- The rule results of a row raise open alerts. -/
theorem recordQcResults_raising (request : TaskRunReportRequest) (parsedRecordId : Bytes)
    (results : List TaskRunReportQcResult) (created : Created) :
    Raising (recordQcResults request parsedRecordId results created) := by
  induction results generalizing created with
  | nil => trivial
  | cons qc rest ih =>
    refine Program.Calls.bind ?_ fun stored => ?_
    · refine Tx.calls_unless_refuse (Tx.calls_unless_refuse (Tx.calls_unless_refuse
        (Tx.calls_unless_refuse ?_)))
      refine Tx.calls_sql_bind.mpr ⟨trivial, fun answer => ?_⟩
      cases answer <;> trivial
    · exact Program.Calls.bind (createAlert_raising _ _ _) fun alertId => ih _

/-- The rows of a report raise open alerts. -/
theorem recordParsedRecords_raising (request : TaskRunReportRequest)
    (records : List TaskRunReportParsedRecord) (verified : List (Bytes × RawFileRecord))
    (created : Created) : Raising (recordParsedRecords request records verified created) := by
  induction records generalizing verified created with
  | nil => trivial
  | cons parsed rest ih =>
    refine Program.Calls.bind (raising_of_reads (verifyRawFile_reads _ _ _)) fun file => ?_
    refine Program.Calls.bind ?_ fun id => ?_
    · refine Tx.calls_unless_refuse (Tx.calls_unless_refuse (Tx.calls_unless_refuse
        (Tx.calls_unless_refuse ?_)))
      refine Tx.calls_sql_bind.mpr ⟨trivial, fun answer => ?_⟩
      cases answer <;> trivial
    · exact Program.Calls.bind (recordQcResults_raising _ _ _ _) fun created => ih _ _

/-- Reading the run of a request raises no alert. -/
theorem validateTaskRunNode_raising (taskRunId nodeCode : Bytes) :
    Raising (validateTaskRunNode taskRunId nodeCode) := by
  refine Tx.calls_unless_refuse (Tx.calls_unless_refuse (Program.Calls.bind ?_ fun answer => ?_))
  · unfold TaskRunService.findRun
    split
    · trivial
    · exact Tx.calls_sql.mpr trivial
  · cases answer with
    | none => trivial
    | some run => exact Tx.calls_unless_refuse trivial

/-- Claiming a receipt raises no alert. -/
theorem claim_raising (request : AgentReportReceiptClaim) :
    Raising (ReceiptRepository.claim request) := by
  refine Tx.calls_sql_bind.mpr ⟨trivial, fun answer => ?_⟩
  cases answer with
  | some id => trivial
  | none =>
    refine Tx.calls_sql_bind.mpr ⟨trivial, fun found => ?_⟩
    cases found with
    | some record =>
      simp only
      split
      · trivial
      · split <;> trivial
    | none =>
      simp only
      split
      · refine Tx.calls_sql_bind.mpr ⟨trivial, fun existing => ?_⟩
        cases existing <;> trivial
      · trivial

/-- Completing a receipt raises no alert. -/
theorem complete_raising (receiptId : Bytes) (response : AgentReportReceiptResponse) :
    Raising (ReceiptRepository.complete receiptId response) := by
  have hjoin (ids : List Bytes) (joined : Bytes) :
      Raising (ReceiptRepository.joinIds ids joined) := by
    induction ids generalizing joined with
    | nil => trivial
    | cons id rest ih =>
      unfold ReceiptRepository.joinIds
      split
      · trivial
      · split
        · trivial
        · exact ih _
  refine Program.Calls.bind (hjoin _ _) fun rawFileIds => ?_
  refine Program.Calls.bind (hjoin _ _) fun parsedRecordIds => ?_
  refine Program.Calls.bind (hjoin _ _) fun qcResultIds => ?_
  refine Program.Calls.bind (hjoin _ _) fun alertIds => ?_
  refine Tx.calls_sql_bind.mpr ⟨trivial, fun answer => ?_⟩
  cases answer <;> trivial

/-- The checks of a report raise no alert. -/
theorem checkReport_raising (request : TaskRunReportRequest) (run : TaskRunRecord) :
    Raising (checkReport R request run) := by
  unfold checkReport
  split
  · trivial
  · split
    · trivial
    · refine Program.Calls.bind (raising_of_reads (checkRules_reads _ _)) fun checked => ?_
      split
      · refine Tx.calls_unless_refuse (Program.Calls.bind ?_ fun retryFiles => ?_)
        · exact raising_of_reads (findRetryFiles_reads _)
        · exact raising_of_reads (checkFailedFiles_reads _ _ _ _)
      · trivial

/-- Ending a run raises no alert. -/
theorem finish_raising (request : FinishTaskRunRequest) :
    Raising (TaskRunService.finish R request) := by
  refine Tx.calls_unless_refuse (Tx.calls_unless_refuse ?_)
  refine Tx.calls_sql_bind.mpr ⟨trivial, fun answer => ?_⟩
  cases answer with
  | none => trivial
  | some run =>
    refine Program.Calls.bind ?_ fun json => Tx.calls_sql.mpr trivial
    unfold TaskRunRepository.printed
    split <;> trivial

/-- Registering files raises no alert. -/
theorem recordFiles_raising (request : RawFileManifestRequest)
    (files : List RawFileManifestEntry) : Raising (recordFiles request files) := by
  induction files with
  | nil => trivial
  | cons file rest ih =>
    refine Program.Calls.bind ?_ fun id => Program.Calls.bind ih fun ids => trivial
    refine Tx.calls_unless_refuse (Tx.calls_unless_refuse (Tx.calls_unless_refuse
      (Tx.calls_unless_refuse ?_)))
    refine Tx.calls_sql_bind.mpr ⟨trivial, fun answer => ?_⟩
    cases answer with
    | none => trivial
    | some run =>
      refine Tx.calls_unless_refuse (Tx.calls_sql_bind.mpr ⟨trivial, fun stored => ?_⟩)
      cases stored <;> trivial

/-- A manifest raises no alert. -/
theorem acceptRawFileManifest_raising (request : RawFileManifestRequest) :
    Raising (acceptRawFileManifest R request) := by
  unfold acceptRawFileManifest
  split
  · trivial
  · refine Program.Calls.bind (validateTaskRunNode_raising _ _) fun run => ?_
    refine Program.Calls.bind (claim_raising _) fun claimed => ?_
    cases claimed with
    | acquired receiptId =>
      refine Program.Calls.bind (recordFiles_raising _ _) fun ids => ?_
      exact Program.Calls.bind (complete_raising _ _) fun _ => trivial
    | _ => trivial

/-- A report raises open alerts. -/
theorem acceptTaskRunReport_raising (request : TaskRunReportRequest) :
    Raising (acceptTaskRunReport R request) := by
  unfold acceptTaskRunReport
  split
  · trivial
  · refine Program.Calls.bind (validateTaskRunNode_raising _ _) fun run => ?_
    refine Tx.calls_unless_refuse (Program.Calls.bind (claim_raising _) fun claimed => ?_)
    cases claimed with
    | acquired receiptId =>
      refine Program.Calls.bind (checkReport_raising _ _) fun _ => ?_
      refine Program.Calls.bind (recordParsedRecords_raising _ _ _ _) fun created => ?_
      refine Program.Calls.bind (finish_raising _) fun _ => ?_
      exact Program.Calls.bind (complete_raising _ _) fun _ => trivial
    | _ => trivial

end AgentReportService

/-- Every call but a disposition adds open alerts at most. -/
theorem Call.transaction_raising {call : Call}
    (h : ∀ alertId acknowledge, call ≠ .disposeAlert alertId acknowledge) :
    Raising (call.transaction R) := by
  cases call with
  | start request =>
    refine Program.Calls.bind ?_ fun result => trivial
    exact (TaskRunService.start_starting request).mono fun _ _ => Statement.IsStarting.raises
  | manifest request =>
    exact Program.Calls.bind (AgentReportService.acceptRawFileManifest_raising request) fun _ =>
      trivial
  | report request =>
    exact Program.Calls.bind (AgentReportService.acceptTaskRunReport_raising request) fun _ =>
      trivial
  | trigger taskId key =>
    refine Program.Calls.bind ?_ fun result => trivial
    exact (TaskRunService.applyManualRun_starting _ _ _ _ _).mono fun _ _ =>
      Statement.IsStarting.raises
  | retry taskRunId key =>
    refine Program.Calls.bind ?_ fun result => trivial
    exact (TaskRunService.requestRetryRun_starting _ _).mono fun _ _ =>
      Statement.IsStarting.raises
  | setEnabled taskId enabled =>
    refine Program.Calls.bind ?_ fun result => trivial
    exact (setTaskEnabled_switching taskId enabled).mono fun _ _ => Statement.IsSwitching.raises
  | disposeAlert alertId acknowledge => exact absurd rfl (h alertId acknowledge)

/-! ## Dispositions -/

/-- The status that a disposition leads to. -/
def dispositionStatus (acknowledge : Bool) : Bytes :=
  if acknowledge then text "acknowledged" else text "closed"

/-- An alert that is read is stored under the identifier. -/
theorem selectAlert_ok {alertId : Bytes} {record : AlertRecord}
    (h : db.selectAlert pg alertId = .ok (some record)) :
    ∃ alert ∈ db.alerts.rows, pg.idParam alertId = .ok (some alert.id) ∧
      record = Database.toAlertRecord pg alert := by
  simp only [Database.selectAlert, Answer.bind_eq_ok, Answer.pure_eq_ok] at h
  obtain ⟨id, hid, hanswer⟩ := h
  cases hfind : id.bind db.alerts.find? with
  | none =>
    rw [hfind] at hanswer
    cases hanswer
  | some alert =>
    obtain ⟨rfl, hmem⟩ := find_of_param hfind
    rw [hfind] at hanswer
    exact ⟨alert, hmem, hid, (Option.some.inj (Except.ok.inj hanswer)).symm⟩

/-- An alert is read by the identifier it is stored under. -/
theorem selectAlert_of_mem {alertId : Bytes} {alert : AlertRow} (hmem : alert ∈ db.alerts.rows)
    (hid : pg.idParam alertId = .ok (some alert.id)) :
    db.selectAlert pg alertId = .ok (some (Database.toAlertRecord pg alert)) := by
  simp only [Database.selectAlert, hid, Answer.ok_bind, Option.bind_some,
    SerialTable.find?_key hmem, Option.map_some]
  rfl

/-- The update of a disposition. -/
def disposed (now : Timestamp) (acknowledge : Bool) (alert : AlertRow) : AlertRow :=
  if acknowledge then { alert with
    status := text "acknowledged"
    acknowledgedAt := some (alert.acknowledgedAt.getD now) }
  else { alert with
    status := text "closed"
    closedAt := some (alert.closedAt.getD now) }

/-- The update of a disposition keeps the identifier of the alert. -/
@[simp] theorem id_disposed (now : Timestamp) (acknowledge : Bool) (alert : AlertRow) :
    (disposed now acknowledge alert).id = alert.id := by
  cases acknowledge <;> rfl

/-- An alert is updated to the status of the disposition. -/
@[simp] theorem status_disposed (now : Timestamp) (acknowledge : Bool) (alert : AlertRow) :
    (disposed now acknowledge alert).status = dispositionStatus acknowledge := by
  cases acknowledge <;> rfl

/-- An alert that a disposition updates makes a move. -/
theorem disposed_move {alert : AlertRow} {acknowledge : Bool} (hfiled : Filed alert)
    (hopen : ¬(acknowledge && alert.status == text "closed") = true)
    (hnew : ¬(alert.status == dispositionStatus acknowledge) = true) (now : Timestamp) :
    AlertMove alert (disposed now acknowledge alert) := by
  cases acknowledge with
  | true =>
    have hnotClosed : alert.status ≠ text "closed" := by simpa using hopen
    have hnotAcknowledged : alert.status ≠ text "acknowledged" := by
      simpa [dispositionStatus] using hnew
    cases hfiled.disposition with
    | opened status acknowledgedAt _ =>
      refine .acknowledge now status ?_
      rw [disposed, if_pos rfl, acknowledgedAt]
      rfl
    | acknowledged status _ _ => exact absurd status hnotAcknowledged
    | closed status _ => exact absurd status hnotClosed
  | false =>
    have hnotClosed : alert.status ≠ text "closed" := by simpa [dispositionStatus] using hnew
    have hnone : alert.closedAt = none := by
      cases hfiled.disposition with
      | opened _ _ closedAt => exact closedAt
      | acknowledged _ _ closedAt => exact closedAt
      | closed status _ => exact absurd status hnotClosed
    refine .close now hnotClosed ?_
    rw [disposed, if_neg (by decide), hnone]
    rfl

/-- A disposition that succeeds moves its alert to the status it asks for and answers it. -/
theorem disposeAlert_settles {alertId : Bytes} {acknowledge : Bool} {record : AlertRecord}
    (hfiled : AlertsFiled db)
    (h : Tx.Yields pg session (AlertService.disposeAlert alertId acknowledge) db record db') :
    MovesAlerts db db' ∧ isPositiveId alertId = true ∧
      ∃ alert ∈ db'.alerts.rows, pg.idParam alertId = .ok (some alert.id) ∧
        record = Database.toAlertRecord pg alert ∧
        alert.status = dispositionStatus acknowledge := by
  simp only [AlertService.disposeAlert, Tx.yields_unless_refuse, Tx.yields_sql_bind,
    Statement.exec, Statement.reading_eq_ok] at h
  obtain ⟨hpositive, answer, mid, ⟨hread, rfl⟩, h⟩ := h
  have hpositive : isPositiveId alertId = true := by simpa using hpositive
  cases answer with
  | none => simp at h
  | some found =>
    obtain ⟨alert, hmem, hid, rfl⟩ := selectAlert_ok hread
    rw [Tx.yields_unless_refuse, Tx.yields_ite] at h
    obtain ⟨hopen, ⟨hsame, h⟩ | ⟨hnew, h⟩⟩ := h
    · obtain ⟨rfl, rfl⟩ := Tx.yields_pure.mp h
      refine ⟨.of_eq rfl, hpositive, alert, hmem, hid, rfl, ?_⟩
      exact eq_of_beq hsame
    · simp only [Tx.yields_sql_bind, Tx.yields_unless_raise, Statement.exec,
        Statement.reading_eq_ok, Database.updateAlert, Answer.bind_eq_ok, accepted_eq_ok] at h
      obtain ⟨updated, mid, ⟨id, hid', alerts, hupdate, hanswer⟩, -, reread, mid', ⟨hreread, rfl⟩,
        h⟩ := h
      cases hanswer
      obtain rfl : id = some alert.id := Except.ok.inj (hid'.symm.trans hid)
      cases reread with
      | none => simp at h
      | some reread =>
        obtain ⟨rfl, rfl⟩ := Tx.yields_pure.mp h
        obtain ⟨later, hlater, hlaterId, rfl⟩ := selectAlert_ok hreread
        have hrows : alerts.rows = db.alerts.rows.map fun row =>
            if some row.id == some alert.id then disposed session.now acknowledge row else row :=
          (SerialTable.update_eq_some hupdate).1
        have hmoves : MovesAlerts db { db with alerts := alerts } := by
          unfold MovesAlerts
          rw [hrows]
          refine .of_selected (fun _ => .stay rfl) fun row hrow hselected => ?_
          obtain rfl := SerialTable.eq_of_key_eq hrow hmem (by simpa using hselected)
          exact disposed_move (hfiled row hrow) hopen hnew session.now
        have hsame : later.id = alert.id :=
          Option.some.inj (Except.ok.inj (hlaterId.symm.trans hid))
        have hdisposed : disposed session.now acknowledge alert ∈ alerts.rows := by
          rw [hrows]
          exact List.mem_map.mpr ⟨alert, hmem, by simp⟩
        have hlaterEq : later = disposed session.now acknowledge alert :=
          SerialTable.eq_of_key_eq hlater hdisposed (by simpa using hsame)
        exact ⟨hmoves, hpositive, later, hlater, hlaterId, rfl, by rw [hlaterEq, status_disposed]⟩

/-- A call moves the alerts along their lives. -/
theorem Call.serve_movesAlerts (hfiled : AlertsFiled db) (call : Call) (session : Session) :
    MovesAlerts db (call.serve R session db).2 := by
  rcases call.serve_cases session db with h | ⟨reply, -, h⟩
  · exact .of_eq (congrArg Contents.alerts h)
  · by_cases hdispose : ∃ alertId acknowledge, call = .disposeAlert alertId acknowledge
    · obtain ⟨alertId, acknowledge, rfl⟩ := hdispose
      obtain ⟨record, mid, hyields, hrest⟩ := Tx.yields_bind.mp h
      obtain ⟨-, hmid⟩ := Tx.yields_pure.mp hrest
      exact hmid ▸ (disposeAlert_settles hfiled hyields).1
    · have hother : ∀ alertId acknowledge, call ≠ .disposeAlert alertId acknowledge :=
        fun alertId acknowledge heq => hdispose ⟨alertId, acknowledge, heq⟩
      exact ((Call.transaction_raising hother).alerts h).moves

/-- A step moves the alerts along their lives. -/
theorem Step.movesAlerts {permitted : Call → Database → Prop} (h : Step R permitted db db')
    (hfiled : AlertsFiled db) : MovesAlerts db db' := by
  cases h with
  | serve call session allowed => exact call.serve_movesAlerts hfiled session
  | configure configures => exact .of_eq (congrArg SerialTable.rows configures.alerts)

/-- Steps keep the alerts in their stages, and every alert advances. -/
theorem Steps.keepsAlerts {permitted : Call → Database → Prop} (h : Steps R permitted db db')
    (hfiled : AlertsFiled db) : AlertsFiled db' ∧ KeepsAlerts db db' := by
  induction h with
  | refl => exact ⟨hfiled, fun alert halert => ⟨alert, halert, .refl alert⟩⟩
  | tail _ hstep ih =>
    obtain ⟨hreached, hkept⟩ := ih
    have hmoves := hstep.movesAlerts hreached
    exact ⟨hmoves.filed hreached, hkept.trans (hmoves.keeps hreached)⟩

/-- In every reachable state every alert is in one of its stages. -/
theorem Reachable.alertsFiled (h : Reachable R db) : AlertsFiled db :=
  (Steps.keepsAlerts h (fun _ halert => absurd halert List.not_mem_nil)).1

/-! ## Histories -/

/-- In every history of calls from the fresh schema, each step moves the alerts along their lives,
whatever lies between two states every alert has advanced, and every state holds alerts in one of
their stages only. -/
theorem alert_lifecycle (R : Runtime) (history : List Database)
    (h : (Database.empty :: history).IsChain (Step R anyCall)) :
    (Database.empty :: history).IsChain MovesAlerts ∧
      (Database.empty :: history).Pairwise KeepsAlerts ∧
      ∀ db ∈ Database.empty :: history, AlertsFiled db := by
  have hsteps {first : Database} (hfiled : AlertsFiled first) {history : List Database}
      (h : (first :: history).IsChain (Step R anyCall)) :
      (first :: history).IsChain MovesAlerts ∧ (first :: history).Pairwise KeepsAlerts ∧
        ∀ db ∈ first :: history, AlertsFiled db := by
    induction history generalizing first with
    | nil => exact ⟨.singleton _, List.pairwise_singleton _ _, by simpa using hfiled⟩
    | cons second rest ih =>
      obtain ⟨hstep, hrest⟩ := List.isChain_cons_cons.mp h
      have hmoves := hstep.movesAlerts hfiled
      obtain ⟨hchain, hkeeps, hall⟩ := ih (hmoves.filed hfiled) hrest
      refine ⟨.cons_cons hmoves hchain, List.pairwise_cons.mpr ⟨fun later hlater => ?_, hkeeps⟩,
        List.forall_mem_cons.mpr ⟨hfiled, hall⟩⟩
      have hfirst := hmoves.keeps hfiled
      cases List.mem_cons.mp hlater with
      | inl heq => exact heq ▸ hfirst
      | inr hmem => exact hfirst.trans ((List.pairwise_cons.mp hkeeps).1 later hmem)
  exact hsteps (fun _ halert => absurd halert List.not_mem_nil) h

/-- The refusal of an acknowledgement that comes too late. -/
def alreadyClosed : Failure := .conflict (text "alert is already closed")

/-- A disposition of an alert that has the status already answers it and changes nothing. -/
theorem disposeAlert_repeated {alertId : Bytes} {acknowledge : Bool} {alert : AlertRow}
    (hpositive : isPositiveId alertId = true) (hmem : alert ∈ db.alerts.rows)
    (hid : pg.idParam alertId = .ok (some alert.id))
    (hstatus : alert.status = dispositionStatus acknowledge) :
    Tx.Yields pg session (AlertService.disposeAlert alertId acknowledge) db
      (Database.toAlertRecord pg alert) db := by
  have hopen : ¬(acknowledge && alert.status == text "closed") = true := by
    cases acknowledge with
    | true =>
      rw [hstatus]
      decide +kernel
    | false => simp
  simp only [AlertService.disposeAlert, Tx.yields_unless_refuse, Tx.yields_sql_bind,
    Statement.exec, Statement.reading_eq_ok]
  refine ⟨by simp [hpositive], _, db, ⟨selectAlert_of_mem hmem hid, rfl⟩, ?_⟩
  refine Tx.yields_unless_refuse.mpr ⟨hopen, Tx.yields_ite.mpr (.inl ⟨?_, by simp⟩)⟩
  exact beq_iff_eq.mpr hstatus

/-- An acknowledgement of a closed alert is refused. -/
theorem disposeAlert_closed {alertId : Bytes} {alert : AlertRow}
    (hpositive : isPositiveId alertId = true) (hmem : alert ∈ db.alerts.rows)
    (hid : pg.idParam alertId = .ok (some alert.id)) (hclosed : alert.status = text "closed") :
    Tx.run (AlertService.disposeAlert alertId true) pg session db =
      (.error (.refused alreadyClosed), db) := by
  have hexec : (Statement.selectAlert alertId).exec pg session db =
      .ok (some (Database.toAlertRecord pg alert), db) := by
    simp [Statement.exec, Statement.reading, selectAlert_of_mem hmem hid, Except.map]
  have hguard : (true && (Database.toAlertRecord pg alert).status == text "closed") = true :=
    beq_iff_eq.mpr hclosed
  unfold AlertService.disposeAlert
  rw [if_neg (by simp [hpositive]), Tx.run_bind_of_yields (Tx.yields_sql.mpr hexec)]
  simp only
  rw [if_pos hguard]
  rfl

/-- A disposition that succeeded is answered again as it was, in every later state and without any
change, unless it was an acknowledgement and the alert has been closed: then it is refused. -/
theorem dispositions_replay {later : Database} {session' : Session} {alertId : Bytes}
    {acknowledge : Bool} {record : AlertRecord} (reachable : Reachable R db)
    (served : Tx.execute (AlertService.disposeAlert alertId acknowledge) R.postgres session db =
      (.ok record, db'))
    (steps : Steps R anyCall db' later) (healthy : session'.fault = none) :
    let again := Tx.execute (AlertService.disposeAlert alertId acknowledge) R.postgres session' later
    again.2.contents = later.contents ∧
      ((∃ alert ∈ later.alerts.rows, R.postgres.idParam alertId = .ok (some alert.id) ∧
          acknowledge = true ∧ alert.status = text "closed") ∧
        again.1 = .error (.refused alreadyClosed) ∨
      (∃ alert ∈ later.alerts.rows, R.postgres.idParam alertId = .ok (some alert.id) ∧
          alert.status = dispositionStatus acknowledge) ∧ again.1 = .ok record) := by
  have hfiled := reachable.alertsFiled
  obtain ⟨hmoves, hpositive, alert, hmem, hid, rfl, hstatus⟩ :=
    disposeAlert_settles hfiled (Tx.yields_of_execute_eq served)
  obtain ⟨hlaterFiled, hkept⟩ := steps.keepsAlerts (hmoves.filed hfiled)
  obtain ⟨found, hfound, hadvances⟩ := hkept alert hmem
  have hfoundId : R.postgres.idParam alertId = .ok (some found.id) := by rw [hadvances.id, hid]
  by_cases hsame : found.status = dispositionStatus acknowledge
  · obtain rfl : found = alert := by
      cases acknowledge with
      | true =>
        exact hadvances.eq_of_acknowledged (hmoves.filed hfiled alert hmem)
          (hlaterFiled found hfound) hstatus hsame
      | false => exact hadvances.closed hstatus
    have hagain : Tx.execute (AlertService.disposeAlert alertId acknowledge) R.postgres session'
        later = (.ok (Database.toAlertRecord R.postgres found), later) :=
      Tx.execute_of_yields healthy (disposeAlert_repeated hpositive hfound hfoundId hsame)
    rw [hagain]
    exact ⟨rfl, .inr ⟨⟨found, hfound, hfoundId, hsame⟩, rfl⟩⟩
  · obtain ⟨rfl, hclosed⟩ : acknowledge = true ∧ found.status = text "closed" := by
      cases acknowledge with
      | true => exact ⟨rfl, (hadvances.acknowledged hstatus).resolve_left hsame⟩
      | false => exact absurd (hadvances.closed hstatus ▸ hstatus) hsame
    have hrefused : (Tx.execute (AlertService.disposeAlert alertId true) R.postgres session'
        later).1 = .error (.refused alreadyClosed) := by
      rw [Tx.execute_fst_of_no_fault healthy,
        disposeAlert_closed hpositive hfound hfoundId hclosed]
    exact ⟨Tx.contents_of_execute_error hrefused,
      .inl ⟨⟨found, hfound, hfoundId, rfl, hclosed⟩, hrefused⟩⟩

/-- A run that was reported with a warning. -/
def warnedCalls : List Call :=
  Reference.startedCalls ++ [.report (Reference.report [Reference.warnedRow])]

/-- The states that calls on the site with a rule pass through. -/
def ruledHistory (calls : List Call) : List Database :=
  calls.scanl (fun db call => (call.serve Reference.runtime (.first Reference.now) db).2) Reference.ruledSite

/-- Every call is a step of its history. -/
theorem isChain_ruledHistory (calls : List Call) :
    (Database.empty :: ruledHistory calls).IsChain (Step Reference.runtime anyCall) := by
  have hserve (calls : List Call) (before db : Database)
      (hstep : Step Reference.runtime anyCall before db) :
      (before :: calls.scanl (fun db call =>
        (call.serve Reference.runtime (.first Reference.now) db).2) db).IsChain
          (Step Reference.runtime anyCall) := by
    induction calls generalizing before db with
    | nil => exact .cons_cons hstep (.singleton _)
    | cons call rest ih =>
      rw [List.scanl_cons]
      exact .cons_cons hstep (ih _ _ (.serve call _ trivial))
  exact hserve calls _ _ (.configure Reference.configures_ruledSite)

example : (Reference.ruledAfter warnedCalls).alerts.rows.map AlertRow.status = [text "open"] := by
  decide +kernel

/-- A warning is raised and closed. -/
theorem alert_lifecycle_warned :
    (Database.empty :: ruledHistory (warnedCalls ++ [.disposeAlert (text "1") false])).Pairwise
      KeepsAlerts :=
  (alert_lifecycle Reference.runtime _ (isChain_ruledHistory _)).2.1

/-- The tables after a warning was acknowledged. -/
def acknowledgedWarning : Database :=
  (Tx.execute (AlertService.disposeAlert (text "1") true) Reference.runtime.postgres
    (.first Reference.now) (Reference.ruledAfter warnedCalls)).2

/-- The tables after an acknowledged warning was closed. -/
def closedWarning : Database :=
  ((Call.disposeAlert (text "1") false).serve Reference.runtime (.first Reference.now)
    acknowledgedWarning).2

/-- The acknowledgement of a warning is refused once the warning is closed. -/
theorem dispositions_replay_warned :
    (Tx.execute (AlertService.disposeAlert (text "1") true) Reference.runtime.postgres
      (.first Reference.now) closedWarning).1 = .error (.refused alreadyClosed) := by
  have hanswer : (Tx.execute (AlertService.disposeAlert (text "1") true) Reference.runtime.postgres
      (.first Reference.now) (Reference.ruledAfter warnedCalls)).1 = .ok {
        id := text "1"
        nodeCode := text "lab-node"
        taskRunId := text "1"
        alertType := text "qc_result"
        severity := text "warning"
        message := text "value is missing"
        status := text "acknowledged"
        acknowledgedAt := text "2024-05-01T08:00:00Z" } := by
    decide +kernel
  have hclosed : ∀ alert ∈ closedWarning.alerts.rows, alert.status ≠ dispositionStatus true := by
    decide +kernel
  have hhealthy : (Session.first Reference.now).fault = none := rfl
  have hlater := dispositions_replay (Reference.reachable_ruledAfter warnedCalls) (Tx.execute_of_answer hanswer)
    (.single (.serve (.disposeAlert (text "1") false) (.first Reference.now) trivial)) hhealthy
  unfold closedWarning acknowledgedWarning at hclosed ⊢
  obtain ⟨-, ⟨-, hrefused⟩ | ⟨⟨alert, hmem, -, hstatus⟩, -⟩⟩ := hlater
  · exact hrefused
  · exact absurd hstatus (hclosed alert hmem)

end LabBridge.Server
