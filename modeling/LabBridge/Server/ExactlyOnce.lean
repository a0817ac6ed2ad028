import LabBridge.Server.Reference
import LabBridge.Server.Replay

/-!
# Deliveries take effect once

A sequence of manifests and reports is served one transaction at a time, each under its own
session, with repetitions and failures at any place. What is stored in the end is what the
requests that took effect store when each is delivered once, on serial counters that may
skip values; every repetition is answered with the identifiers of the first success.
-/

namespace LabBridge.Server

open ByteText LabBridge.Core Storage ReceiptRepository AgentReportService

variable {R : Runtime} {session : Session} {db db' : Database}

/-- A manifest or a report of an agent. -/
inductive AgentRequest
  | manifest (request : RawFileManifestRequest)
  | report (request : TaskRunReportRequest)
  deriving DecidableEq

namespace AgentRequest

/-- The call that serves a request. -/
def call : AgentRequest → Call
  | manifest request => .manifest request
  | report request => .report request

/-- What a request claims. -/
def claim (R : Runtime) : AgentRequest → AgentReportReceiptClaim
  | manifest request => manifestClaim R request
  | report request => reportClaim R request

/-- The reply to a request from its response. -/
def reply : AgentRequest → AgentReportReceiptResponse → Bool → Reply
  | manifest _, response, replayed => .manifest (manifestResult response replayed)
  | report _, response, replayed => .report (reportResult response replayed)

/-- The checks before a request claims its receipt. -/
structure Valid (request : AgentRequest) (R : Runtime) : Prop where
  key : validateIdempotencyKey (request.claim R).idempotencyKey = none
  node : (request.claim R).nodeCode ≠ []
  status : ∀ report, request = .report report → report.status.isTerminal = true

end AgentRequest

/-- The same reply, marked as a repetition. -/
def Reply.asReplay : Reply → Reply
  | .manifest result => .manifest { result with replayed := true }
  | .report result => .report { result with replayed := true }
  | reply => reply

/-- Whether a reply to a manifest or report says that the request took effect. -/
def Reply.isNew : Reply → Bool
  | .manifest result => !result.replayed
  | .report result => !result.replayed
  | _ => false

@[simp] theorem AgentRequest.isNew_reply (request : AgentRequest)
    (response : AgentReportReceiptResponse) (replayed : Bool) :
    (request.reply response replayed).isNew = !replayed := by
  cases request <;> rfl

@[simp] theorem AgentRequest.asReplay_reply (request : AgentRequest)
    (response : AgentReportReceiptResponse) (replayed : Bool) :
    (request.reply response replayed).asReplay = request.reply response true := by
  cases request <;> rfl

/-- The node of a request is checked before its run is read. -/
theorem nodeCode_ne_nil_of_yields {pg : Postgres} {taskRunId nodeCode : Bytes}
    {record : TaskRunRecord}
    (h : Tx.Yields pg session (validateTaskRunNode taskRunId nodeCode) db record db') :
    nodeCode ≠ [] := by
  simp only [validateTaskRunNode, Tx.yields_unless_refuse] at h
  exact h.2.1

/-- What is known of a request that ended with a result. -/
structure Settled (R : Runtime) (request : AgentRequest) (run : TaskRunRow) (db : Database) :
    Prop where
  valid : request.Valid R
  own : OwnRun R.postgres (request.claim R).taskRunId (request.claim R).nodeCode run db

/-- A served request that ends with a result was replayed or accepted. -/
theorem AgentRequest.serve_ok {request : AgentRequest} {reply : Reply}
    (h : request.call.serve R session db = (.ok reply, db')) :
    ∃ run response, Settled R request run db ∧
      ((reply = request.reply response true ∧ db' = db ∧
          Replayed R.postgres (request.claim R) response db) ∨
        (reply = request.reply response false ∧
          Accepted R.postgres (request.claim R) run.id response db db')) := by
  have hyields := Tx.yields_of_execute_eq h
  cases request with
  | manifest request =>
    simp only [call, Call.transaction, Tx.yields_bind, Tx.yields_pure] at hyields
    obtain ⟨result, mid, hresult, rfl, rfl⟩ := hyields
    obtain ⟨run, response, hrun, hcases⟩ := acceptRawFileManifest_yields hresult
    refine ⟨run, response, ⟨?_, hrun⟩, ?_⟩
    · unfold acceptRawFileManifest at hresult
      split at hresult
      · simp at hresult
      · rename_i hkey
        rw [Tx.yields_bind] at hresult
        obtain ⟨record, mid', hown, -⟩ := hresult
        refine ⟨hkey, nodeCode_ne_nil_of_yields hown, fun report heq => ?_⟩
        cases heq
    · rcases hcases with ⟨rfl, hdb, hreplayed⟩ | ⟨rfl, -, -, haccepted⟩
      · exact .inl ⟨rfl, hdb, hreplayed⟩
      · exact .inr ⟨rfl, haccepted⟩
  | report request =>
    simp only [call, Call.transaction, Tx.yields_bind, Tx.yields_pure] at hyields
    obtain ⟨result, mid, hresult, rfl, rfl⟩ := hyields
    obtain ⟨hterminal, run, response, hrun, hcases⟩ := acceptTaskRunReport_yields hresult
    refine ⟨run, response, ⟨?_, hrun⟩, ?_⟩
    · unfold acceptTaskRunReport at hresult
      split at hresult
      · simp at hresult
      · rename_i hkey
        rw [Tx.yields_bind] at hresult
        obtain ⟨record, mid', hown, -⟩ := hresult
        refine ⟨hkey, nodeCode_ne_nil_of_yields hown, fun report heq => ?_⟩
        cases heq
        exact hterminal
    · rcases hcases with ⟨rfl, hdb, hreplayed⟩ | ⟨rfl, -, -, haccepted⟩
      · exact .inl ⟨rfl, hdb, hreplayed⟩
      · exact .inr ⟨rfl, haccepted⟩

/-- The completed receipt of a request, with the response it answers. -/
structure Receipted (R : Runtime) (request : AgentRequest)
    (response : AgentReportReceiptResponse) (row : ReceiptRow) : Prop where
  names : Names R.postgres (request.claim R) row
  fingerprint : row.requestFingerprint = (request.claim R).requestFingerprint
  answers : Answers row response

/-- A request that ended with a result has a receipt that answers the same. -/
theorem AgentRequest.receipted {request : AgentRequest} {reply : Reply}
    (h : request.call.serve R session db = (.ok reply, db')) :
    ∃ run response replayed, request.Valid R ∧ reply = request.reply response replayed ∧
      OwnRun R.postgres (request.claim R).taskRunId (request.claim R).nodeCode run db ∧
      ∃ row ∈ db'.receipts.rows, Receipted R request response row := by
  obtain ⟨run, response, hsettled, ⟨hreply, rfl, hreplayed⟩ | ⟨hreply, haccepted⟩⟩ := serve_ok h
  · obtain ⟨row, hrow, hnames, hprint, hanswers⟩ := hreplayed.stored
    exact ⟨run, response, true, hsettled.valid, hreply, hsettled.own, row, hrow, hnames, hprint,
      hanswers⟩
  · obtain ⟨row, hnew, -, hrows⟩ := haccepted.receipt
    exact ⟨run, response, false, hsettled.valid, hreply, hsettled.own, row, by rw [hrows]; simp,
      hnew.names, hnew.fingerprint, hnew.answers⟩

/-- A run that keeps its fixed columns is owned as before. -/
theorem OwnRun.of_same {pg : Postgres} {taskRunId nodeCode : Bytes} {run later : TaskRunRow}
    (h : OwnRun pg taskRunId nodeCode run db) (hlater : later ∈ db'.taskRuns.rows)
    (same : SameRun run later) : OwnRun pg taskRunId nodeCode later db' where
  named := by rw [same.id]; exact h.named
  stored := hlater
  node := same.nodeCode.trans h.node

/-- Without a fault a request that names a completed receipt is answered from it or refused. -/
theorem AgentRequest.serve_of_names {request : AgentRequest} {run : TaskRunRow}
    {row : ReceiptRow} {response : AgentReportReceiptResponse} (hfault : session.fault = none)
    (hvalid : request.Valid R)
    (hrun : OwnRun R.postgres (request.claim R).taskRunId (request.claim R).nodeCode run db)
    (hrow : row ∈ db.receipts.rows) (hnames : Names R.postgres (request.claim R) row)
    (hanswers : Answers row response) :
    (request.call.serve R session db).1 =
      if row.requestFingerprint = (request.claim R).requestFingerprint then
        .ok (request.reply response true)
      else .error (.refused reusedKey) := by
  cases request with
  | manifest request =>
    rw [Call.serve, call, Call.transaction, Tx.execute_fst_map hfault,
      acceptRawFileManifest_of_names hfault hvalid.key hvalid.node hrun hrow hnames hanswers]
    exact apply_ite (Except.map Reply.manifest) _ _ _
  | report request =>
    rw [Call.serve, call, Call.transaction, Tx.execute_fst_map hfault,
      acceptTaskRunReport_of_names hfault hvalid.key hvalid.node (hvalid.status request rfl)
        hrun hrow hnames hanswers]
    exact apply_ite (Except.map Reply.report) _ _ _

/-- A request with the session it is served under. -/
structure Delivery where
  request : AgentRequest
  session : Session

/-- A served delivery: the tables around it and how it ended. -/
structure Served where
  delivery : Delivery
  before : Database
  outcome : Except Stop Reply
  after : Database

/-- Serve a delivery. -/
def Delivery.serve (R : Runtime) (delivery : Delivery) (db : Database) : Served where
  delivery := delivery
  before := db
  outcome := (delivery.request.call.serve R delivery.session db).1
  after := (delivery.request.call.serve R delivery.session db).2

/-- Serve deliveries one after another. -/
def serveAll (R : Runtime) : List Delivery → Database → List Served
  | [], _ => []
  | delivery :: rest, db => delivery.serve R db :: serveAll R rest (delivery.serve R db).after

/-- The tables after the deliveries. -/
def lastTables : List Served → Database → Database
  | [], db => db
  | served :: rest, _ => lastTables rest served.after

/-- Whether a delivery took effect. -/
def Served.isNew (served : Served) : Bool :=
  match served.outcome with
  | .ok reply => reply.isNew
  | .error _ => false

/-- Deliveries that all take effect, in this order, while the serial counters may skip values
between them. -/
inductive DeliversOnce (R : Runtime) : List Delivery → Database → Database → Prop
  | done (db : Database) : DeliversOnce R [] db db
  | skip {deliveries : List Delivery} {db last : Database} (reached : Database)
      (rest : DeliversOnce R deliveries (db.rollback reached) last) :
      DeliversOnce R deliveries db last
  | accept {delivery : Delivery} {deliveries : List Delivery} {db last : Database}
      (isNew : (delivery.serve R db).isNew = true)
      (rest : DeliversOnce R deliveries (delivery.serve R db).after last) :
      DeliversOnce R (delivery :: deliveries) db last

/-- A delivery that takes no effect leaves the tables, but for skipped serial values. -/
theorem Delivery.serve_eq_or_rollback {delivery : Delivery}
    (h : (delivery.serve R db).isNew = false) :
    (delivery.serve R db).after = db ∨
      ∃ reached, (delivery.serve R db).after = db.rollback reached := by
  rcases houtcome : (delivery.serve R db).outcome with stop | reply
  · exact .inr (Tx.rollback_of_execute_error houtcome)
  · have hserve : delivery.request.call.serve R delivery.session db =
        (.ok reply, (delivery.serve R db).after) := Prod.ext houtcome rfl
    obtain ⟨run, response, -, ⟨-, hdb, -⟩ | ⟨hreply, -⟩⟩ := AgentRequest.serve_ok hserve
    · exact .inl hdb
    · simp [Served.isNew, houtcome, hreply] at h

/-- The deliveries that took effect store by themselves what all deliveries stored. -/
theorem serveAll_deliversOnce (deliveries : List Delivery) (db : Database) :
    DeliversOnce R (((serveAll R deliveries db).filter Served.isNew).map Served.delivery) db
      (lastTables (serveAll R deliveries db) db) := by
  induction deliveries generalizing db with
  | nil => exact .done db
  | cons delivery rest ih =>
    have hrest := ih (delivery.serve R db).after
    simp only [serveAll, lastTables, List.filter_cons]
    cases hnew : (delivery.serve R db).isNew with
    | true =>
      simp only [if_true, List.map_cons]
      exact .accept hnew hrest
    | false =>
      simp only [Bool.false_eq_true, if_false]
      rcases delivery.serve_eq_or_rollback hnew with hafter | ⟨reached, hafter⟩
      · rw [hafter] at hrest ⊢
        exact hrest
      · rw [hafter] at hrest ⊢
        exact .skip reached hrest

/-- Every served delivery was served after some steps. -/
theorem exists_steps_of_mem {deliveries : List Delivery} {served : Served}
    (h : served ∈ serveAll R deliveries db) :
    ∃ (delivery : Delivery) (mid : Database),
      Steps R anyCall db mid ∧ served = delivery.serve R mid := by
  induction deliveries generalizing db with
  | nil => cases h
  | cons delivery rest ih =>
    rcases List.mem_cons.mp h with rfl | h
    · exact ⟨delivery, db, .refl, rfl⟩
    · obtain ⟨other, mid, hsteps, rfl⟩ := ih h
      have hstep : Step R anyCall db (delivery.serve R db).after :=
        .serve delivery.request.call delivery.session trivial
      exact ⟨other, mid, .head hstep hsteps, rfl⟩

/-- What relates a delivery to every delivery after some steps relates each delivery of a
sequence to the later ones. -/
theorem serveAll_pairwise {related : Served → Served → Prop}
    (h : ∀ (first later : Delivery) (db mid : Database),
      Steps R anyCall (first.serve R db).after mid →
        related (first.serve R db) (later.serve R mid))
    (deliveries : List Delivery) (db : Database) : (serveAll R deliveries db).Pairwise related := by
  induction deliveries generalizing db with
  | nil => exact .nil
  | cons delivery rest ih =>
    refine .cons (fun served hserved => ?_) (ih _)
    obtain ⟨later, mid, hsteps, rfl⟩ := exists_steps_of_mem hserved
    exact h delivery later db mid hsteps

/-- A repetition of a delivery that ended with a result changes no row, and is answered with
the same identifiers unless the database fails. -/
def AnsweredAlike (first later : Served) : Prop :=
  first.delivery.request = later.delivery.request → ∀ reply, first.outcome = .ok reply →
    (later.delivery.session.fault = none → later.outcome = .ok reply.asReplay) ∧
    (∀ again, later.outcome = .ok again → again = reply.asReplay) ∧
    later.after.contents = later.before.contents

/-- Two requests carry one idempotency key, for one node and kind. -/
structure SameKey (R : Runtime) (first later : AgentRequest) : Prop where
  node : (first.claim R).nodeCode = (later.claim R).nodeCode
  type : (first.claim R).requestType = (later.claim R).requestType
  key : (first.claim R).idempotencyKey = (later.claim R).idempotencyKey

/-- A later delivery under the key of one that ended with a result, with another fingerprint,
ends without a result and changes no row; a valid request of the node is told so. -/
def RefusesReuse (R : Runtime) (first later : Served) : Prop :=
  ∀ reply, first.outcome = .ok reply → SameKey R first.delivery.request later.delivery.request →
    (first.delivery.request.claim R).requestFingerprint ≠
      (later.delivery.request.claim R).requestFingerprint →
    (∃ stop, later.outcome = .error stop) ∧ later.after.contents = later.before.contents ∧
    ∀ run, later.delivery.session.fault = none → later.delivery.request.Valid R →
      OwnRun R.postgres (later.delivery.request.claim R).taskRunId
        (later.delivery.request.claim R).nodeCode run later.before →
      later.outcome = .error (.refused reusedKey)

/-- Two reports that take effect name different runs. -/
def ReportsOnce (R : Runtime) (first later : Served) : Prop :=
  ∀ report again, first.delivery.request = .report report →
    later.delivery.request = .report again → first.isNew = true → later.isNew = true →
    R.postgres.idParam report.taskRunId ≠ R.postgres.idParam again.taskRunId

/-- A receipt is stored under one key only. -/
theorem Receipted.names_of_sameKey {first later : AgentRequest}
    {response : AgentReportReceiptResponse} {row : ReceiptRow}
    (h : Receipted R first response row) (same : SameKey R first later) :
    Names R.postgres (later.claim R) row where
  node := by rw [← same.node]; exact h.names.node
  type := by rw [← same.type]; exact h.names.type
  key := by rw [← same.key]; exact h.names.key

/-- A delivery that ends with a result was answered from the receipt its key names. -/
theorem Delivery.reply_of_names {delivery : Delivery} {reply : Reply} {row : ReceiptRow}
    {response : AgentReportReceiptResponse}
    (houtcome : (delivery.serve R db).outcome = .ok reply) (hrow : row ∈ db.receipts.rows)
    (hnames : Names R.postgres (delivery.request.claim R) row) (hanswers : Answers row response) :
    (delivery.serve R db).after = db ∧ reply = delivery.request.reply response true ∧
      row.requestFingerprint = (delivery.request.claim R).requestFingerprint := by
  have hserve : delivery.request.call.serve R delivery.session db =
      (.ok reply, (delivery.serve R db).after) := Prod.ext houtcome rfl
  obtain ⟨run, stored, -, ⟨hreply, hdb, hreplayed⟩ | ⟨-, haccepted⟩⟩ := AgentRequest.serve_ok hserve
  · obtain ⟨other, hother, hotherNames, hprint, hotherAnswers⟩ := hreplayed.stored
    obtain rfl := hotherNames.unique hnames hother hrow
    obtain rfl : stored = response := hotherAnswers.1.symm.trans hanswers.1
    exact ⟨hdb, hreply, hprint⟩
  · obtain ⟨fresh, hfresh, -⟩ := haccepted.receipt
    have hfree := hfresh.fresh _ hrow
    rw [hnames.clash hfresh.names] at hfree
    cases hfree

/-- A delivery that ends without a result changes no row. -/
theorem Delivery.contents_of_error {delivery : Delivery} {stop : Stop}
    (houtcome : (delivery.serve R db).outcome = .error stop) :
    (delivery.serve R db).after.contents = db.contents :=
  Tx.contents_of_execute_error houtcome

/-- Repetitions are answered alike. -/
theorem answeredAlike (first later : Delivery) (db mid : Database)
    (steps : Steps R anyCall (first.serve R db).after mid) :
    AnsweredAlike (first.serve R db) (later.serve R mid) := by
  obtain ⟨request, session⟩ := later
  intro hsame reply hreply
  obtain rfl : first.request = request := hsame
  have hserve : first.request.call.serve R first.session db =
      (.ok reply, (first.serve R db).after) := Prod.ext hreply rfl
  obtain ⟨run, response, replayed, hvalid, rfl, hown, row, hrow, hreceipted⟩ :=
    AgentRequest.receipted hserve
  have hlater := steps.mem_receipts hrow
  have halike (again : Reply)
      (hagain : (Delivery.serve R ⟨first.request, session⟩ mid).outcome = .ok again) :=
    Delivery.reply_of_names hagain hlater hreceipted.names hreceipted.answers
  refine ⟨fun hfault => ?_, fun again hagain => ?_, ?_⟩
  · have hstep : Step R anyCall db (first.serve R db).after :=
      .serve first.request.call first.session trivial
    obtain ⟨kept, hkept, same, -⟩ := Steps.exists_same (steps.head hstep) hown.stored
    have hanswer := AgentRequest.serve_of_names (R := R) hfault hvalid (hown.of_same hkept same)
      hlater hreceipted.names hreceipted.answers
    rw [AgentRequest.asReplay_reply]
    exact hanswer.trans (if_pos hreceipted.fingerprint)
  · rw [AgentRequest.asReplay_reply]
    exact (halike again hagain).2.1
  · rcases houtcome : (Delivery.serve R ⟨first.request, session⟩ mid).outcome with
      stop | again
    · exact Delivery.contents_of_error houtcome
    · rw [(halike again houtcome).1]
      rfl

/-- A reused key with another fingerprint is refused. -/
theorem refusesReuse (first later : Delivery) (db mid : Database)
    (steps : Steps R anyCall (first.serve R db).after mid) :
    RefusesReuse R (first.serve R db) (later.serve R mid) := by
  intro reply hreply hsame hdifferent
  have hserve : first.request.call.serve R first.session db =
      (.ok reply, (first.serve R db).after) := Prod.ext hreply rfl
  obtain ⟨run, response, replayed, -, -, -, row, hrow, hreceipted⟩ :=
    AgentRequest.receipted hserve
  have hlater := steps.mem_receipts hrow
  have hnames := hreceipted.names_of_sameKey hsame
  have hprint : ¬row.requestFingerprint = (later.request.claim R).requestFingerprint :=
    fun h => hdifferent (hreceipted.fingerprint.symm.trans h)
  have hstops : ∃ stop, (later.serve R mid).outcome = .error stop := by
    rcases houtcome : (later.serve R mid).outcome with stop | again
    · exact ⟨stop, rfl⟩
    · exact absurd (later.reply_of_names houtcome hlater hnames hreceipted.answers).2.2 hprint
  obtain ⟨stop, hstop⟩ := hstops
  refine ⟨⟨stop, hstop⟩, Delivery.contents_of_error hstop, fun run hfault hvalid hown => ?_⟩
  have hanswer := AgentRequest.serve_of_names (R := R) hfault hvalid hown hlater hnames
    hreceipted.answers
  exact hanswer.trans (if_neg hprint)

/-- A delivery that took effect left its receipt. -/
theorem Delivery.exists_newReceipt {delivery : Delivery}
    (h : (delivery.serve R db).isNew = true) :
    ∃ run response row, R.postgres.idParam (delivery.request.claim R).taskRunId =
        .ok (some run) ∧ NewReceipt R.postgres (delivery.request.claim R) response db row ∧
      row.taskRunId = run ∧
      (delivery.serve R db).after.receipts.rows = db.receipts.rows ++ [row] := by
  rcases houtcome : (delivery.serve R db).outcome with stop | reply
  · simp [Served.isNew, houtcome] at h
  · have hserve : delivery.request.call.serve R delivery.session db =
        (.ok reply, (delivery.serve R db).after) := Prod.ext houtcome rfl
    obtain ⟨run, response, -, ⟨hreply, -, -⟩ | ⟨-, haccepted⟩⟩ := AgentRequest.serve_ok hserve
    · simp [Served.isNew, houtcome, hreply] at h
    · obtain ⟨row, hnew, hrun, hrows⟩ := haccepted.receipt
      exact ⟨run.id, response, row, haccepted.named, hnew, hrun, hrows⟩

/-- Two reports on one run do not both take effect. -/
theorem reportsOnce (first later : Delivery) (db mid : Database)
    (steps : Steps R anyCall (first.serve R db).after mid) :
    ReportsOnce R (first.serve R db) (later.serve R mid) := by
  obtain ⟨firstRequest, firstSession⟩ := first
  obtain ⟨laterRequest, laterSession⟩ := later
  rintro report again rfl rfl hfirst hlater hsame
  obtain ⟨run, response, row, hnamed, hnew, hrun, hrows⟩ := Delivery.exists_newReceipt hfirst
  obtain ⟨run', response', row', hnamed', hnew', hrun', -⟩ := Delivery.exists_newReceipt hlater
  have hrow : row ∈ mid.receipts.rows := steps.mem_receipts (by rw [hrows]; simp)
  have hid : run = run' := by
    have h : some run = some run' := Except.ok.inj ((hnamed.symm.trans hsame).trans hnamed')
    exact Option.some.inj h
  have hclash : row.clash row' = true := ReceiptRow.clash_eq_true.mpr (.inr
    ⟨hnew.names.type, hnew'.names.type, (hrun.trans hid).trans hrun'.symm⟩)
  rw [hnew'.fresh row hrow] at hclash
  cases hclash

/-- For every sequence of deliveries, on any tables and with any failures of the database:
what is stored is what the deliveries that took effect store alone, each request taking
effect once; repetitions are answered alike; a key reused with another fingerprint is
refused without effect; and at most one report of a run takes effect. -/
theorem deliveries_exactly_once (R : Runtime) (deliveries : List Delivery) (db : Database) :
    DeliversOnce R (((serveAll R deliveries db).filter Served.isNew).map Served.delivery) db
        (lastTables (serveAll R deliveries db) db) ∧
      (((serveAll R deliveries db).filter Served.isNew).map
        fun served => served.delivery.request).Nodup ∧
      (serveAll R deliveries db).Pairwise AnsweredAlike ∧
      (serveAll R deliveries db).Pairwise (RefusesReuse R) ∧
      (serveAll R deliveries db).Pairwise (ReportsOnce R) := by
  have halike := serveAll_pairwise (R := R) answeredAlike deliveries db
  refine ⟨serveAll_deliversOnce deliveries db, ?_, halike,
    serveAll_pairwise refusesReuse deliveries db, serveAll_pairwise reportsOnce deliveries db⟩
  refine List.pairwise_map.mpr ((halike.filter _).imp_of_mem fun {first later} hfirst hlater h => ?_)
  intro hsame
  have hnew := (List.mem_filter.mp hfirst).2
  have hlaterNew := (List.mem_filter.mp hlater).2
  unfold Served.isNew at hnew hlaterNew
  split at hnew
  · rename_i reply hreply
    split at hlaterNew
    · rename_i again hagain
      rw [(h hsame reply hreply).2.1 again hagain] at hlaterNew
      cases reply <;> simp [Reply.asReplay, Reply.isNew] at hlaterNew hnew
    · cases hlaterNew
  · cases hnew

end LabBridge.Server
