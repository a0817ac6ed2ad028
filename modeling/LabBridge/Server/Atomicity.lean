import LabBridge.Server.Progress
import LabBridge.Server.Reference

/-!
# Requests of agents are atomic

A manifest or a report that does not end with a result leaves every row as it was, whatever
status, exception or outage ends it. So a receipt is only ever committed complete.
-/

namespace LabBridge.Server

open ByteText LabBridge.Core Storage AgentReportService

variable {R : Runtime} {session : Session} {db db' : Database}

/-- Where every receipt is complete, a claim meets no incomplete one. -/
theorem claim_not_incomplete {pg : Postgres}
    (hcomplete : ∀ receipt ∈ db.receipts.rows, receipt.response.isSome = true)
    (request : AgentReportReceiptClaim) :
    ¬Tx.Ends pg session (ReceiptRepository.claim request) db
      (.thrown (text "agent report receipt is incomplete")) := by
  intro h
  rw [ReceiptRepository.claim, Tx.ends_bind, Tx.ends_sql] at h
  rcases h with ⟨fault, -, hstop⟩ | ⟨answer, mid, hinsert, h⟩
  · cases hstop
  cases answer with
  | some id => exact Tx.not_ends_pure h
  | none =>
    obtain rfl := ReceiptRepository.insertReceipt_none (Tx.yields_sql.mp hinsert)
    simp only [ReceiptRepository.resolveClaim] at h
    rw [Tx.ends_bind, Tx.ends_sql] at h
    rcases h with ⟨fault, -, hstop⟩ | ⟨answer, mid', hselect, h⟩
    · cases hstop
    rw [Tx.yields_sql, Statement.exec, Statement.reading_eq_ok] at hselect
    obtain ⟨hselect, rfl⟩ := hselect
    cases answer with
    | some record =>
      -- The branch of the source that throws on an incomplete receipt.
      obtain ⟨row, hrow, -, rfl⟩ := ReceiptRepository.selectReceiptByKey_ok _ hselect
      simp [Tx.ends_ite, ReceiptRepository.toReceipt, Database.toReceiptRecord,
        hcomplete row hrow] at h
    | none =>
      simp only at h
      rw [Tx.ends_ite, Tx.ends_bind, Tx.ends_sql, Tx.ends_raise] at h
      rcases h with ⟨-, ⟨fault, -, hstop⟩ | ⟨existing, mid', -, h⟩⟩ | ⟨-, hstop⟩
      · cases hstop
      · cases existing with
        | some existing => exact Tx.not_ends_pure h
        | none => exact absurd (Stop.thrown.inj (Tx.ends_raise.mp h)) (by decide)
      · exact absurd (Stop.thrown.inj hstop) (by decide)

/-- A manifest or report that does not end with a result changes no row, and in every
reachable state every receipt is complete, so that no claim meets an incomplete one. -/
theorem agent_requests_atomic (R : Runtime) :
    (∀ (request : RawFileManifestRequest) (session : Session) (db : Database) (stop : Stop),
      ((acceptRawFileManifest R request).execute R.postgres session db).1 = .error stop →
      ((acceptRawFileManifest R request).execute R.postgres session db).2.contents =
        db.contents) ∧
    (∀ (request : TaskRunReportRequest) (session : Session) (db : Database) (stop : Stop),
      ((acceptTaskRunReport R request).execute R.postgres session db).1 = .error stop →
      ((acceptTaskRunReport R request).execute R.postgres session db).2.contents =
        db.contents) ∧
    ∀ db, Reachable R db →
      (∀ receipt ∈ db.receipts.rows, receipt.response.isSome = true) ∧
      ∀ (request : AgentReportReceiptClaim) (session : Session),
        ¬Tx.Ends R.postgres session (ReceiptRepository.claim request) db
          (.thrown (text "agent report receipt is incomplete")) := by
  refine ⟨fun _ _ _ _ => Tx.contents_of_execute_error,
    fun _ _ _ _ => Tx.contents_of_execute_error, fun db hreachable => ?_⟩
  have hcomplete : ∀ receipt ∈ db.receipts.rows, receipt.response.isSome = true :=
    fun receipt hreceipt => (hreachable.sound.receipts receipt hreceipt).complete
  exact ⟨hcomplete, fun request session => claim_not_incomplete hcomplete request⟩

/-- A manifest that is cut off behind its first file has claimed a receipt and numbered the file,
but the rows are as they were; and the first run of the site leaves complete receipts. -/
theorem agent_requests_atomic_site :
    (((acceptRawFileManifest Reference.runtime (Reference.manifest "files-1")).execute
        Reference.postgres (.first Reference.now (some 4))
        (Reference.after [.start Reference.scheduledStart])).2.receipts.next,
      ((acceptRawFileManifest Reference.runtime (Reference.manifest "files-1")).execute
        Reference.postgres (.first Reference.now (some 4))
        (Reference.after [.start Reference.scheduledStart])).2.rawFiles.next) = (2, 2) ∧
    ((acceptRawFileManifest Reference.runtime (Reference.manifest "files-1")).execute
        Reference.postgres (.first Reference.now (some 4))
        (Reference.after [.start Reference.scheduledStart])).2.contents =
      (Reference.after [.start Reference.scheduledStart]).contents ∧
    ∀ receipt ∈ (Reference.after Reference.startedCalls).receipts.rows,
      receipt.response.isSome = true :=
  ⟨by decide +kernel,
    (agent_requests_atomic Reference.runtime).1 _ _ _ (.failed .outage) (by decide +kernel),
    ((agent_requests_atomic Reference.runtime).2.2 _ (Reference.reachable_after _)).1⟩

end LabBridge.Server
