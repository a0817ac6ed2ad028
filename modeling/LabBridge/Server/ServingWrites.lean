import LabBridge.Server.FlightSteps
import LabBridge.Server.ServingFacts
import LabBridge.Server.StatementFrames

/-!
# What a statement of a request in flight writes

The versions of a transaction after a statement are those it had and the rows that the statement
changed. A changed run or alert is one that the statement locks or numbers, a changed receipt is
a new one or that of the claim.
-/

namespace LabBridge.Server

open ByteText LabBridge.Core Storage Interaction AgentReportService ReceiptRepository

variable {R : Runtime} {pg : Postgres} {session : Session} {reported : TaskRunStatus → Prop}
  {db db' view reached : Database} {serving other : Serving} {α γ : Type} {statement : Statement γ}
  {answer : γ} {rest : Tx Reply} {stage stage' : ServingStage}

/-- A changed alert is new or of the row that the statement locks. -/
theorem alert_of_changed (h : statement.exec pg session db = .ok (answer, db')) {alert : AlertRow}
    (halert : alert ∈ db'.alerts.rows) (hchanged : alert ∉ db.alerts.rows) :
    db.alerts.next ≤ (alert.id : ℕ) ∨ alert.id ∈ statement.lockedAlert pg db := by
  by_cases hon : statement.IsOnAlerts
  · rcases (Statement.exec_frame h).draws.alerts.rows alert halert with ⟨old, hold, hid⟩ | hnew
    · cases statement <;> simp only [Statement.IsOnAlerts] at hon
      case insertAlert record =>
        obtain ⟨-, rfl⟩ | ⟨stored, alerts, -, -, rfl, hrows⟩ := insertAlert_stores h
        · exact absurd halert hchanged
        · have hkept : old ∈ alerts.rows := hrows ▸ List.mem_append_left _ hold
          exact absurd (SerialTable.eq_of_key_eq hkept halert hid ▸ hold) hchanged
      case updateAlert alertId acknowledge =>
        simp only [Statement.exec, Database.updateAlert, Answer.bind_eq_ok, accepted_eq_ok] at h
        obtain ⟨id, hparam, alerts, hupdate, h⟩ := h
        cases h
        obtain ⟨source, hsource, hrow⟩ := (SerialTable.mem_update hupdate).mp halert
        split at hrow
        · rename_i hselected
          have hsome : some old.id = id := by
            have hsame : alert.id = source.id := by
              rw [← hrow]
              cases acknowledge <;> rfl
            rw [hid, hsame]
            simpa using hselected
          refine .inr ?_
          simp only [Statement.lockedAlert, hparam, ← hsome, List.mem_filter, List.mem_map,
            beq_iff_eq]
          exact ⟨⟨old, hold, hid⟩, hid.symm⟩
        · exact absurd (hrow ▸ hsource) hchanged
    · exact .inl hnew
  · rw [(Statement.exec_frame h).alerts hon] at halert
    exact absurd halert hchanged

/-- A changed run is new or of a row that the statement rewrites. -/
theorem run_of_changed (h : statement.exec pg session db = .ok (answer, db')) {run : TaskRunRow}
    (hrun : run ∈ db'.taskRuns.rows) (hchanged : run ∉ db.taskRuns.rows) :
    db.taskRuns.next ≤ (run.id : ℕ) ∨ run.id ∈ rewrittenRuns db db' := by
  rcases (Statement.exec_frame h).draws.runs.rows run hrun with ⟨old, hold, hid⟩ | hnew
  · refine .inr (hid ▸ List.mem_map_of_mem (List.mem_filter.mpr ⟨hold, decide_eq_true ?_⟩))
    exact fun hstays => hchanged (SerialTable.eq_of_key_eq hstays hrun hid ▸ hold)
  · exact .inl hnew

/-- A receipt that at most was completed. -/
structure SameReceipt (before after : ReceiptRow) : Prop where
  id : after.id = before.id
  nodeCode : after.nodeCode = before.nodeCode
  requestType : after.requestType = before.requestType
  idempotencyKey : after.idempotencyKey = before.idempotencyKey
  taskRunId : after.taskRunId = before.taskRunId

/-- A completed receipt excludes what it excluded before. -/
theorem SameReceipt.clash {before after : ReceiptRow} (h : SameReceipt before after)
    (left : ReceiptRow) : left.clash after = left.clash before := by
  simp only [ReceiptRow.clash, h.nodeCode, h.requestType, h.idempotencyKey, h.taskRunId]

/-- Completing a receipt rewrites that receipt. -/
theorem updateReceiptComplete_ok {receiptId rawFileIds parsedRecordIds qcResultIds alertIds : Bytes}
    {answer : Option Bytes} (h : db.updateReceiptComplete pg session receiptId rawFileIds
      parsedRecordIds qcResultIds alertIds = .ok (answer, db')) :
    ∃ receipts, db' = { db with receipts := receipts } ∧
      ∀ row ∈ receipts.rows, row ∈ db.receipts.rows ∨
        ∃ old ∈ db.receipts.rows, pg.idParam receiptId = .ok (some old.id) ∧
          SameReceipt old row := by
  simp only [Database.updateReceiptComplete, Answer.bind_eq_ok, accepted_eq_ok] at h
  obtain ⟨id, hid, raw, -, parsed, -, qc, -, alerts, -, receipts, hupdate, h⟩ := h
  cases h
  refine ⟨receipts, rfl, fun row hrow => ?_⟩
  obtain ⟨old, hold, hrow⟩ := (SerialTable.mem_update hupdate).mp hrow
  split at hrow
  · rename_i hselected
    simp only [Bool.and_eq_true, beq_iff_eq] at hselected
    exact .inr ⟨old, hold, hselected.1 ▸ hid, hrow ▸ ⟨rfl, rfl, rfl, rfl, rfl⟩⟩
  · exact .inl (hrow ▸ hold)

/-- The claim of a manifest or report fits its columns when its key does. -/
theorem fits_manifestClaim {request : RawFileManifestRequest}
    (h : request.idempotencyKey.length ≤ 128) : FitsColumns R.postgres (manifestClaim R request) :=
  fits_digest _ rfl h

/-- The claim of a report fits its columns when its key does. -/
theorem fits_reportClaim {request : TaskRunReportRequest}
    (h : request.idempotencyKey.length ≤ 128) : FitsColumns R.postgres (reportClaim R request) :=
  fits_digest _ rfl h

/-- A claim that is acquired appends its open receipt. -/
theorem insertReceipt_some {claim : AgentReportReceiptClaim} {receiptId : Bytes}
    (fits : FitsColumns pg claim) (h : db.insertReceipt pg claim = .ok (some receiptId, db')) :
    ∃ row receipts, receiptId = decimal (row : ReceiptRow).id ∧ Acquired pg claim db row ∧
      db' = { db with receipts := receipts } ∧ receipts.rows = db.receipts.rows ++ [row] := by
  obtain ⟨hnone, -⟩ | ⟨row, receipts, hid, hacquired, hdb, hrows⟩ := insertReceipt_ok fits h
  · cases hnone
  · exact ⟨row, receipts, Option.some.inj hid, hacquired, hdb, hrows⟩

/-- A changed receipt is new and excluded by none, or the completed receipt of the claim. -/
theorem receipt_of_changed {call : Call} (hseen : Seen serving db view)
    (hafter : ServingStage.After R call stage statement answer stage')
    (hknows : serving.Knows R reported db call stage)
    (h : statement.exec R.postgres session view = .ok (answer, reached)) {receipt : ReceiptRow}
    (hreceipt : receipt ∈ reached.receipts.rows) (hchanged : receipt ∉ view.receipts.rows) :
    (view.receipts.next ≤ (receipt.id : ℕ) ∧
        ∀ stored ∈ view.receipts.rows, stored.clash receipt = false) ∨
      ∃ own ∈ serving.evidence.receipts, SameReceipt own receipt := by
  have hsame {P : Prop} (hsame : reached.receipts = view.receipts) : P := by
    rw [hsame] at hreceipt
    exact absurd hreceipt hchanged
  have hclaim {claim : AgentReportReceiptClaim} {receiptId : Bytes}
      (fits : FitsColumns R.postgres claim)
      (hexec : view.insertReceipt R.postgres claim = .ok (some receiptId, reached)) :
      view.receipts.next ≤ (receipt.id : ℕ) ∧
        ∀ stored ∈ view.receipts.rows, stored.clash receipt = false := by
    obtain ⟨row, receipts, -, hacquired, hdb, hrows⟩ := insertReceipt_some fits hexec
    rcases (Statement.exec_frame h).draws.receipts.rows receipt hreceipt with ⟨old, hold, hid⟩ | hnew
    · have hkept : old ∈ reached.receipts.rows := by
        rw [hdb]
        exact hrows ▸ List.mem_append_left _ hold
      exact absurd (SerialTable.eq_of_key_eq hkept hreceipt hid ▸ hold) hchanged
    · refine ⟨hnew, ?_⟩
      rw [hdb] at hreceipt
      rcases List.mem_append.mp (hrows ▸ hreceipt) with hold | hlast
      · exact absurd hold hchanged
      · rw [List.mem_singleton.mp hlast]
        exact hacquired.fresh
  have hcomplete {receiptId rawFileIds parsedRecordIds qcResultIds alertIds : Bytes}
      {answer : Option Bytes} {claim : AgentReportReceiptClaim}
      (claims : Claims R.postgres claim receiptId serving.evidence)
      (hexec : view.updateReceiptComplete R.postgres session receiptId rawFileIds parsedRecordIds
        qcResultIds alertIds = .ok (answer, reached)) :
      ∃ own ∈ serving.evidence.receipts, SameReceipt own receipt := by
    obtain ⟨own, hown, rfl, -, -⟩ := claims
    obtain ⟨receipts, hdb, hrows⟩ := updateReceiptComplete_ok hexec
    rcases hrows receipt (by simpa [hdb] using hreceipt) with hold | ⟨old, hold, hid, same⟩
    · exact absurd hold hchanged
    · rw [Postgres.idParam_decimal, Except.ok.injEq, Option.some.injEq] at hid
      obtain rfl := SerialTable.eq_of_key_eq (hseen.receipts.of_version hown) hold hid
      exact ⟨own, hown, same⟩
  cases hafter with
  | claimManifest fits => exact .inl (hclaim (fits_manifestClaim fits) h)
  | claimEnded fits => exact .inl (hclaim (fits_reportClaim fits) h)
  | claimReport fits => exact .inl (hclaim (fits_reportClaim fits) h)
  | completeManifest => exact .inr (hcomplete hknows.2.claims h)
  | completeReport =>
    obtain ⟨-, run, hstores, -⟩ := hknows
    exact .inr (hcomplete hstores.claims h)
  | refused => exact hsame (by rw [insertReceipt_none h])
  | read _ isRead => exact hsame (by rw [isRead.exec_eq h])
  | start _ isStarting => exact hsame (isStarting.exec h).elsewhere.receipts
  | switch isSwitching => exact hsame (isSwitching.exec h).elsewhere.receipts
  | _ => exact hsame ((Statement.exec_frame h).receipts id)

end LabBridge.Server
