import LabBridge.Server.Lifecycle

/-!
# The evidence of runs that have ended

The raw files, parsed rows, rule results and alerts of a run. Whatever requests are in flight,
nothing is added to a run that has ended, when no manifest that lists files is committed for
such a run and no disabled task gives up a run on which a report is in flight. A manifest is
accepted whatever the state of its run is, and a report does not look at its run again.
-/

namespace LabBridge.Server

open ByteText LabBridge.Core Storage ReceiptRepository AgentReportService

variable {R : Runtime} {state reached : Traffic} {db db' : Database} {run : RowId}
  {serving : Serving} {reported : TaskRunStatus → Prop}

/-- Whether a rule result belongs to a run, through its parsed row. -/
def Database.ownsResult (db : Database) (run : RowId) (result : QcResultRow) : Bool :=
  db.parsedRecords.rows.any fun parsed =>
    parsed.id == result.parsedRecordId && parsed.taskRunId == run

/-- A rule result belongs to the run of its parsed row. -/
theorem ownsResult_eq_true {result : QcResultRow} : db.ownsResult run result = true ↔
    ∃ parsed ∈ db.parsedRecords.rows, parsed.id = result.parsedRecordId ∧
      parsed.taskRunId = run := by
  simp [Database.ownsResult]

/-- Nothing is added to the evidence of a run. -/
structure NothingAdded (run : RowId) (before after : Database) : Prop where
  rawFiles : ∀ file ∈ after.rawFiles.rows, file.taskRunId = run → file ∈ before.rawFiles.rows
  parsedRecords : ∀ parsed ∈ after.parsedRecords.rows, parsed.taskRunId = run →
    parsed ∈ before.parsedRecords.rows
  qcResults : ∀ result ∈ after.qcResults.rows, after.ownsResult run result = true →
    result ∈ before.qcResults.rows ∧ before.ownsResult run result = true
  alerts : ∀ alert ∈ after.alerts.rows, alert.taskRunId = some run →
    ∃ old ∈ before.alerts.rows, old.id = alert.id ∧ old.taskRunId = some run

namespace NothingAdded

/-- Equal rows hold nothing more. -/
theorem of_sameRows (h : SameRows db db') : NothingAdded run db db' where
  rawFiles file hfile _ := h.rawFiles ▸ hfile
  parsedRecords parsed hparsed _ := h.parsedRecords ▸ hparsed
  qcResults result hresult hown := by
    refine ⟨h.qcResults ▸ hresult, ?_⟩
    rw [ownsResult_eq_true, h.parsedRecords] at hown
    exact ownsResult_eq_true.mpr hown
  alerts alert halert hrun := ⟨alert, h.alerts ▸ halert, rfl, hrun⟩

/-- Nothing is added in two steps. -/
theorem trans {a b c : Database} (first : NothingAdded run a b) (second : NothingAdded run b c) :
    NothingAdded run a c where
  rawFiles file hfile hrun := first.rawFiles file (second.rawFiles file hfile hrun) hrun
  parsedRecords parsed hparsed hrun :=
    first.parsedRecords parsed (second.parsedRecords parsed hparsed hrun) hrun
  qcResults result hresult hown := by
    obtain ⟨hmiddle, hown'⟩ := second.qcResults result hresult hown
    exact first.qcResults result hmiddle hown'
  alerts alert halert hrun := by
    obtain ⟨middle, hmiddle, hid, hrun'⟩ := second.alerts alert halert hrun
    obtain ⟨old, hold, hid', hrun''⟩ := first.alerts middle hmiddle hrun'
    exact ⟨old, hold, hid'.trans hid, hrun''⟩

end NothingAdded

/-- A run that has ended stays stored, and nothing is added to its evidence. -/
def KeepsEvidence (before after : Database) : Prop :=
  ∀ run ∈ before.taskRuns.rows, run.status.isTerminal = true →
    run ∈ after.taskRuns.rows ∧ NothingAdded run.id before after

/-- The evidence that a transaction has stored is that of other runs. -/
structure StoresElsewhere (db : Database) (evidence : EvidencePatch) (run : RowId) : Prop where
  rawFiles : ∀ file ∈ evidence.rawFiles, file.taskRunId ≠ run
  parsedRecords : ∀ parsed ∈ evidence.parsedRecords, parsed.taskRunId ≠ run
  qcResults : ∀ result ∈ evidence.qcResults, ∃ parsed ∈ evidence.parsedRecords,
    parsed.id = result.parsedRecordId
  alerts : ∀ alert ∈ evidence.alerts, alert.taskRunId ≠ some run ∨
    ∃ stored ∈ db.alerts.rows, SameAlert stored alert

/-- Where no evidence is stored, none is of the run. -/
theorem EvidencePatch.NoRows.storesElsewhere {evidence : EvidencePatch} (h : evidence.NoRows) :
    StoresElsewhere db evidence run := by
  constructor <;> simp [h.rawFiles, h.parsedRecords, h.qcResults, h.alerts]

/-- A report on an open run stores nothing for one that has ended. -/
theorem StoresRows.storesElsewhere {request : TaskRunReportRequest} {receiptId : Bytes}
    {owner : RowId} {row : TaskRunRow}
    (h : StoresRows R reported request receiptId db serving.evidence owner)
    (hrow : row ∈ db.taskRuns.rows) (hended : row.status.isTerminal = true) :
    StoresElsewhere db serving.evidence row.id := by
  have hne : owner ≠ row.id := by
    rintro rfl
    obtain ⟨found, hfound, hid, hopen, -⟩ := h.isOpen
    obtain rfl := SerialTable.eq_of_key_eq hfound hrow hid
    rw [hended] at hopen
    cases hopen
  refine ⟨by simp [h.rawFiles], fun parsed hparsed => ?_, h.qcResults, fun alert halert => .inl ?_⟩
  · exact h.parsedRecords parsed hparsed ▸ hne
  · rw [h.alerts alert halert]
    exact fun hsame => hne (Option.some.inj hsame)

/-- What a request has stored is evidence of other runs than one that has ended, unless it is a
manifest that lists files for it. -/
theorem Serving.Sound.storesElsewhere (h : serving.Sound R reported db) {row : TaskRunRow}
    (hrow : row ∈ db.taskRuns.rows) (hended : row.status.isTerminal = true)
    (hmanifest : ∀ request, serving.call = .manifest request →
      R.postgres.idParam request.taskRunId = .ok (some row.id) → request.files = [] ∨
        ∃ receipt ∈ db.receipts.rows,
          ReceiptRepository.Names R.postgres (manifestClaim R request) receipt) :
    StoresElsewhere db serving.evidence row.id := by
  obtain ⟨stage, -, hknows⟩ := h.stage
  generalize hcall : serving.call = call at hknows
  cases call with
  | start request => exact hknows.1.storesElsewhere
  | trigger taskId key => exact hknows.1.storesElsewhere
  | retry taskRunId key => exact hknows.1.storesElsewhere
  | setEnabled taskId enabled => exact hknows.1.storesElsewhere
  | disposeAlert alertId acknowledge =>
    obtain ⟨-, ⟨hfiles, hparsed, hresults, -⟩, halerts⟩ := hknows
    simp only at hfiles hparsed hresults
    exact ⟨by simp [hfiles], by simp [hparsed], by simp [hresults],
      fun alert halert => .inr (halerts alert halert)⟩
  | manifest request =>
    cases stage with
    | claimed receiptId =>
      obtain ⟨-, hstores⟩ := hknows
      refine ⟨fun file hfile hrun => ?_, by simp [hstores.parsedRecords],
        by simp [hstores.qcResults], by simp [hstores.alerts]⟩
      obtain ⟨hfiles, hid⟩ := hstores.files file hfile
      obtain hnil | ⟨receipt, hreceipt, hnames⟩ := hmanifest request hcall (hrun ▸ hid)
      · exact hfiles hnil
      · obtain ⟨own, hown, -, hownNames, -⟩ := hstores.claims
        have hfree := (h.receipts own hown receipt hreceipt).2
        rw [hnames.clash hownNames] at hfree
        cases hfree
    | _ => exact hknows.2.storesElsewhere
  | report request =>
    cases stage with
    | begun => exact hknows.2.2.storesElsewhere
    | reading => exact hknows.2.2.storesElsewhere
    | opened => exact hknows.2.2.1.storesElsewhere
    | claimed receiptId =>
      obtain ⟨-, -, owner, hstores⟩ := hknows
      exact hstores.storesElsewhere hrow hended
    | parsed receiptId key =>
      obtain ⟨-, -, owner, hstores, -⟩ := hknows
      exact hstores.storesElsewhere hrow hended
    | located receiptId taskRunId =>
      obtain ⟨-, -, owner, hstores, -⟩ := hknows
      exact hstores.storesElsewhere hrow hended
    | finished receiptId =>
      obtain ⟨-, owner, hstores, -⟩ := hknows
      exact hstores.storesElsewhere hrow hended

/-- A commit of evidence of other runs adds nothing to a run. -/
theorem StoresElsewhere.nothingAdded (h : StoresElsewhere db serving.evidence run)
    (hsees : serving.view db = some db') : NothingAdded run db db' := by
  have hseen := seen_of_view hsees
  have hparsed {parsed : ParsedRecordRow} (hmem : parsed ∈ db'.parsedRecords.rows)
      (hrun : parsed.taskRunId = run) : parsed ∈ db.parsedRecords.rows :=
    (hseen.parsedRecords.origin hmem).resolve_left fun hown => h.parsedRecords parsed hown hrun
  constructor
  · exact fun file hfile hrun =>
      (hseen.rawFiles.origin hfile).resolve_left fun hown => h.rawFiles file hown hrun
  · exact fun parsed hmem hrun => hparsed hmem hrun
  · intro result hresult hown
    obtain ⟨parsed, hmem, hid, hrun⟩ := ownsResult_eq_true.mp hown
    refine ⟨(hseen.qcResults.origin hresult).resolve_left fun hversion => ?_,
      ownsResult_eq_true.mpr ⟨parsed, hparsed hmem hrun, hid, hrun⟩⟩
    obtain ⟨owner, howner, hid'⟩ := h.qcResults result hversion
    obtain rfl := SerialTable.eq_of_key_eq hmem (hseen.parsedRecords.of_version howner)
      (hid.trans hid'.symm)
    exact h.parsedRecords _ howner hrun
  · intro alert halert hrun
    rcases hseen.alerts.origin halert with hversion | hstored
    · rcases h.alerts alert hversion with hne | ⟨stored, hstored, same⟩
      · exact absurd hrun hne
      · exact ⟨stored, hstored, same.id.symm, same.taskRunId.symm.trans hrun⟩
    · exact ⟨alert, hstored, rfl, hrun⟩

/-- A manifest that is committed for a run which has ended lists no files or has its receipt
stored already, and no switch that is committed gives up a run that a report in flight names. -/
def commitsWhileOpen (R : Runtime) (state : Traffic) : Move → Prop
  | .advance connection => ∀ serving reply, state.servings[connection]? = some serving →
      serving.rest = .ret reply →
      (∀ request, serving.call = .manifest request → ∀ run ∈ state.committed.taskRuns.rows,
        R.postgres.idParam request.taskRunId = .ok (some run.id) →
          run.status.isTerminal = true → request.files = [] ∨
            ∃ receipt ∈ state.committed.receipts.rows,
              ReceiptRepository.Names R.postgres (manifestClaim R request) receipt) ∧
      ∀ other ∈ state.servings, ∀ request run, other.call = .report request →
        other.asked ≠ 0 → R.postgres.idParam request.taskRunId = .ok (some run) →
          ¬GivesUp state.committed serving run
  | _ => True

/-- Such commits are careful. -/
theorem careful_of_commitsWhileOpen {move : Move} (h : commitsWhileOpen R state move) :
    Careful R (fun _ => True) state move := by
  cases move with
  | advance connection =>
    intro serving hserving
    exact ⟨fun _ _ _ _ _ => trivial, fun reply hrest _ => (h serving reply hserving hrest).2⟩
  | begin call session => trivial
  | lose connection => trivial

/-- A step of such commits keeps the evidence of the runs that have ended. -/
theorem Guarded.keepsEvidence (h : Guarded R (fun _ => True) state)
    (hstep : Traffic.Step R (commitsWhileOpen R) state reached) :
    KeepsEvidence state.committed reached.committed := by
  intro run hrun hended
  refine ⟨h.keepsEnded hstep run hrun hended, ?_⟩
  rcases hstep.commits with hsame | ⟨connection, serving, reply, hopen, hserving, hrest, hsees⟩
  · exact .of_sameRows hsame
  · refine StoresElsewhere.nothingAdded ?_ hsees
    exact (h.sound serving (List.mem_of_getElem? hserving)).storesElsewhere hrun hended
      fun request hcall hid => (hopen serving reply hserving hrest).1 request hcall run hrun hid
        hended

/-- In every state of all requests in flight that is reached from the fresh schema by such
commits, nothing is added to the evidence of a run that has ended, in every later state. -/
theorem evidence_frozen (R : Runtime) {state later : Traffic}
    (h : Traffic.Steps R (commitsWhileOpen R) ⟨.empty, []⟩ state)
    (hlater : Traffic.Steps R (commitsWhileOpen R) state later) :
    KeepsEvidence state.committed later.committed := by
  have hcareful (state : Traffic) (move : Move) (h : commitsWhileOpen R state move) :=
    careful_of_commitsWhileOpen h
  have hguarded : Guarded R (fun _ => True) state := Guarded.empty.steps trivial hcareful h
  induction hlater with
  | refl => exact fun run hrun _ => ⟨hrun, .of_sameRows (by constructor <;> simp)⟩
  | tail hsteps hstep ih =>
    intro run hrun hended
    obtain ⟨hmiddle, hnothing⟩ := ih run hrun hended
    have hreached := hguarded.steps trivial hcareful hsteps
    obtain ⟨hkept, hnothing'⟩ := hreached.keepsEvidence hstep run hmiddle hended
    exact ⟨hkept, hnothing.trans hnothing'⟩

namespace Reference

/-- The run is started and its file registered; then its report and an operator's trigger are
in flight together until both are committed. -/
def reportedRows : List Move :=
  .begin (.start scheduledStart) (.first now) :: List.replicate 3 (.advance 0) ++
    .begin (.manifest (manifest "files-1")) (.first now) :: List.replicate 6 (.advance 0) ++
    [.begin (.report (report [warnedRow])) (.first now),
      .begin (.trigger (text "1") operatorKey) (.first now)] ++
    (List.replicate 11 [.advance 0, .advance 1]).flatten

/-- The manifest and the report arrive again, while the alert is acknowledged and the task is
disabled. -/
def lateRequests : List Move :=
  [.begin (.manifest (manifest "files-1")) (.first now),
    .begin (.report (report [warnedRow])) (.first now),
    .begin (.disposeAlert (text "1") true) (.first now),
    .begin (.setEnabled (text "1") false) (.first now)] ++
  (List.replicate 4 [.advance 3, .advance 2, .advance 1, .advance 0]).flatten ++
  List.replicate 3 (.advance 0)

end Reference

/-- Whether a manifest names a run that has ended and has no stored receipt. -/
def manifestIsLate (pg : Postgres) (db : Database) (request : RawFileManifestRequest) : Bool :=
  db.taskRuns.rows.any (fun run => run.status.isTerminal &&
      decide (pg.idParam request.taskRunId = .ok (some run.id))) &&
    !db.receipts.rows.any fun receipt => receipt.requestType == .rawFileManifest &&
      decide (pg.textParam request.nodeCode = .ok receipt.nodeCode) &&
        decide (pg.textParam request.idempotencyKey = .ok receipt.idempotencyKey)

/-- Whether a move commits no late manifest, and gives up no run while a report is in flight. -/
def commitsNothingLate (pg : Postgres) (state : Traffic) : Move → Bool
  | .advance connection =>
    match state.servings[connection]? with
    | none => true
    | some serving =>
      match serving.rest with
      | .ret _ =>
        (match serving.call with
          | .manifest request => !manifestIsLate pg state.committed request
          | _ => true) &&
        (serving.own.runs.all (·.status != .failed) || state.servings.all fun other =>
          match other.call with
          | .report _ => other.asked == 0
          | _ => true)
      | _ => true
  | _ => true

/-- A move that commits nothing late is one of such commits. -/
theorem commitsWhileOpen_of_commitsNothingLate (state : Traffic) (move : Move)
    (h : commitsNothingLate R.postgres state move = true) : commitsWhileOpen R state move := by
  cases move with
  | begin call session => trivial
  | lose connection => trivial
  | advance connection =>
    intro serving reply hserving hrest
    simp only [commitsNothingLate, hserving, hrest, Bool.and_eq_true, Bool.or_eq_true] at h
    obtain ⟨hmanifest, hkept⟩ := h
    refine ⟨fun request hcall run hrun hid hended => .inr ?_,
      fun other hother request run hcall hasked _ hgives => ?_⟩
    · have hlate : (state.committed.taskRuns.rows.any fun run => run.status.isTerminal &&
          decide (R.postgres.idParam request.taskRunId = .ok (some run.id))) = true :=
        List.any_eq_true.mpr ⟨run, hrun, by simp [hended, hid]⟩
      simp only [hcall, manifestIsLate, hlate, Bool.true_and, Bool.not_not,
        List.any_eq_true, Bool.and_eq_true, beq_iff_eq, decide_eq_true_eq] at hmanifest
      obtain ⟨receipt, hreceipt, ⟨htype, hnode⟩, hkey⟩ := hmanifest
      exact ⟨receipt, hreceipt, hnode, htype, hkey⟩
    · obtain ⟨version, hversion, -, hfailed, -⟩ := hgives
      rcases hkept with hnone | hidle
      · have hnot := List.all_eq_true.mp hnone version hversion
        rw [hfailed] at hnot
        cases hnot
      · have hzero := List.all_eq_true.mp hidle other hother
        simp only [hcall, beq_iff_eq] at hzero
        exact hasked hzero

/-- A run with a file, a row, a result and an alert ends, and later requests that race add
nothing to it. -/
theorem evidence_frozen_site :
    ∃ run ∈ (Reference.traffic Reference.ruledSite
        Reference.reportedRows).committed.taskRuns.rows,
      run.status = .succeeded ∧
        NothingAdded run.id (Reference.traffic Reference.ruledSite
          Reference.reportedRows).committed
          (Traffic.play Reference.runtime (Reference.traffic Reference.ruledSite
            Reference.reportedRows) Reference.lateRequests).committed := by
  have hreported : Traffic.Steps Reference.runtime (commitsWhileOpen Reference.runtime)
      ⟨.empty, []⟩ (Reference.traffic Reference.ruledSite Reference.reportedRows) :=
    Reference.steps_traffic Reference.configures_ruledSite commitsWhileOpen_of_commitsNothingLate
      _ (by decide +kernel)
  have hlater : Traffic.Steps Reference.runtime (commitsWhileOpen Reference.runtime)
      (Reference.traffic Reference.ruledSite Reference.reportedRows)
      (Traffic.play Reference.runtime (Reference.traffic Reference.ruledSite
        Reference.reportedRows) Reference.lateRequests) :=
    Traffic.steps_play commitsWhileOpen_of_commitsNothingLate _ _ (by decide +kernel)
  obtain ⟨run, hrun, hstatus⟩ : ∃ run ∈ (Reference.traffic Reference.ruledSite
      Reference.reportedRows).committed.taskRuns.rows, run.status = .succeeded := by
    decide +kernel
  refine ⟨run, hrun, hstatus, ?_⟩
  refine (evidence_frozen Reference.runtime hreported hlater run hrun ?_).2
  rw [hstatus]
  rfl

/-- A run is started and reported as succeeded. -/
def Reference.succeeded : List Move :=
  .begin (.start scheduledStart) (.first now) :: List.replicate 3 (.advance 0) ++
    .begin (.report (report [])) (.first now) :: List.replicate 6 (.advance 0)

/-- A manifest of the run under a fresh key. -/
def Reference.lateManifest : List Move :=
  .begin (.manifest (manifest "late")) (.first now) :: List.replicate 6 (.advance 0)

/-- A manifest under a fresh key adds a raw file to a run that was reported as succeeded. -/
theorem not_evidence_frozen :
    ¬∀ state later, Traffic.Steps Reference.runtime Traffic.anyMove ⟨.empty, []⟩ state →
      Traffic.Steps Reference.runtime Traffic.anyMove state later →
        KeepsEvidence state.committed later.committed := by
  intro h
  have hreported : Traffic.Steps Reference.runtime Traffic.anyMove ⟨.empty, []⟩
      (Reference.traffic Reference.site Reference.succeeded) :=
    Reference.steps_traffic Reference.configures_site
      (fun _ _ (_ : true = true) => trivial) _ (by decide +kernel)
  have hlate : Traffic.Steps Reference.runtime Traffic.anyMove
      (Reference.traffic Reference.site Reference.succeeded)
      (Traffic.play Reference.runtime (Reference.traffic Reference.site Reference.succeeded)
        Reference.lateManifest) :=
    Traffic.steps_play (fun _ _ (_ : true = true) => trivial) _ _ (by decide +kernel)
  obtain ⟨run, hrun, hended, file, hfile, hown, hadded⟩ :
      ∃ run ∈ (Reference.traffic Reference.site Reference.succeeded).committed.taskRuns.rows,
        run.status.isTerminal = true ∧
        ∃ file ∈ (Traffic.play Reference.runtime (Reference.traffic Reference.site
            Reference.succeeded) Reference.lateManifest).committed.rawFiles.rows,
          file.taskRunId = run.id ∧ file ∉ (Reference.traffic Reference.site
            Reference.succeeded).committed.rawFiles.rows := by
    decide +kernel
  exact hadded ((h _ _ hreported hlate run hrun hended).2.rawFiles file hfile hown)

end LabBridge.Server
