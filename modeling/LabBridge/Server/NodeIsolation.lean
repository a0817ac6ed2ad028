import LabBridge.Server.AgentEndpoints
import LabBridge.Server.NamedEvidence
import LabBridge.Server.Reference
import LabBridge.Server.RefusalTexts
import LabBridge.Server.StartResults

/-!
# Nodes are isolated

Requests that authenticate as one node create and change rows of that node only, whatever their
bodies say, and a response names rows of that node only. A refusal has a fixed text or one that
depends on the request alone.
-/

namespace LabBridge.Server

open ByteText LabBridge.Core Storage Interaction AgentReportHttp

variable {R : Runtime} {pg : Postgres} {session : Session} {db db' : Database} {node : Bytes}
  {run : RowId}

/-- Rows that a condition leaves out do not show behind it. -/
theorem filter_append_of_none {α : Type} {rows added : List α} {p : α → Bool}
    (h : ∀ row ∈ added, p row = false) : (rows ++ added).filter p = rows.filter p := by
  have hadded : added.filter p = [] :=
    List.filter_eq_nil_iff.mpr fun row hrow => by simp [h row hrow]
  rw [List.filter_append, hadded, List.append_nil]

/-- The rows that belong to other nodes. -/
@[ext] structure OtherRows where
  taskRuns : List TaskRunRow
  rawFiles : List RawFileRow
  parsedRecords : List ParsedRecordRow
  qcResults : List QcResultRow
  alerts : List AlertRow
  receipts : List ReceiptRow

/-- Whether a run belongs to another node. -/
def Contents.isOtherRun (contents : Contents) (node : Bytes) (run : RowId) : Bool :=
  (contents.taskRuns.filter fun row => row.nodeCode != node).any fun row => row.id == run

/-- Whether a rule result belongs to another node, through its parsed row. -/
def Contents.isOtherResult (contents : Contents) (node : Bytes) (result : QcResultRow) : Bool :=
  (contents.parsedRecords.filter fun parsed => contents.isOtherRun node parsed.taskRunId).any
    fun parsed => parsed.id == result.parsedRecordId

/-- The rows of all nodes but one. -/
def Contents.ofOthers (contents : Contents) (node : Bytes) : OtherRows where
  taskRuns := contents.taskRuns.filter fun row => row.nodeCode != node
  rawFiles := contents.rawFiles.filter fun file => file.nodeCode != node
  parsedRecords := contents.parsedRecords.filter fun parsed =>
    contents.isOtherRun node parsed.taskRunId
  qcResults := contents.qcResults.filter (contents.isOtherResult node)
  alerts := contents.alerts.filter fun alert => alert.nodeCode != node
  receipts := contents.receipts.filter fun receipt => receipt.nodeCode != node

/-- A run belongs to one node. -/
theorem Database.RunOf.unique {other : Bytes} (h : db.RunOf node run)
    (hother : db.RunOf other run) : node = other := by
  obtain ⟨left, hleft, hid, rfl⟩ := h
  obtain ⟨right, hright, hid', rfl⟩ := hother
  rw [SerialTable.eq_of_key_eq hleft hright (hid.trans hid'.symm)]

/-- The runs of a node are no runs of another one. -/
theorem Database.RunOf.isOtherRun (h : db.RunOf node run) :
    db.contents.isOtherRun node run = false := by
  rw [Contents.isOtherRun, List.any_eq_false]
  intro row hrow hid
  obtain ⟨hmem, hother⟩ := List.mem_filter.mp hrow
  have hnode : db.RunOf row.nodeCode run := ⟨row, hmem, by simpa using hid, rfl⟩
  simp [h.unique hnode] at hother

/-- What a request of a node may do to the rows. -/
structure NodeWork (node : Bytes) (before after : Database) : Prop where
  taskRuns : (after.taskRuns.rows.filter fun row => row.nodeCode != node) =
    before.taskRuns.rows.filter fun row => row.nodeCode != node
  rawFiles : ∃ added, after.rawFiles.rows = before.rawFiles.rows ++ added ∧
    ∀ file ∈ added, file.nodeCode = node
  parsedRecords : ∃ added, after.parsedRecords.rows = before.parsedRecords.rows ++ added ∧
    ∀ parsed ∈ added, after.RunOf node parsed.taskRunId
  qcResults : ∃ added, after.qcResults.rows = before.qcResults.rows ++ added ∧
    ∀ result ∈ added, ∃ parsed ∈ after.parsedRecords.rows,
      parsed.id = result.parsedRecordId ∧ after.RunOf node parsed.taskRunId
  alerts : ∃ added, after.alerts.rows = before.alerts.rows ++ added ∧
    ∀ alert ∈ added, alert.nodeCode = node
  receipts : ∃ added, after.receipts.rows = before.receipts.rows ++ added ∧
    ∀ receipt ∈ added, receipt.nodeCode = node

namespace NodeWork

/-- The work on runs of a node. -/
theorem of_runs (elsewhere : SameElsewhere db db')
    (taskRuns : (db'.taskRuns.rows.filter fun row => row.nodeCode != node) =
      db.taskRuns.rows.filter fun row => row.nodeCode != node) : NodeWork node db db' where
  taskRuns := taskRuns
  rawFiles := ⟨[], by simp [elsewhere.rawFiles], by simp⟩
  parsedRecords := ⟨[], by simp [elsewhere.parsedRecords], by simp⟩
  qcResults := ⟨[], by simp [elsewhere.qcResults], by simp⟩
  alerts := ⟨[], by simp [elsewhere.alerts], by simp⟩
  receipts := ⟨[], by simp [elsewhere.receipts], by simp⟩

/-- Work of a node leaves the rows of the others as they are. -/
theorem ofOthers_eq (h : NodeWork node db db') :
    db'.contents.ofOthers node = db.contents.ofOthers node := by
  obtain ⟨files, hfiles, hfilesNode⟩ := h.rawFiles
  obtain ⟨parsed, hparsed, hparsedNode⟩ := h.parsedRecords
  obtain ⟨results, hresults, hresultsNode⟩ := h.qcResults
  obtain ⟨alerts, halerts, halertsNode⟩ := h.alerts
  obtain ⟨receipts, hreceipts, hreceiptsNode⟩ := h.receipts
  have hruns (run : RowId) :
      db'.contents.isOtherRun node run = db.contents.isOtherRun node run := by
    simp only [Contents.isOtherRun, Database.contents, h.taskRuns]
  have hrecords : (db'.parsedRecords.rows.filter fun row =>
      db'.contents.isOtherRun node row.taskRunId) =
      db.parsedRecords.rows.filter fun row => db.contents.isOtherRun node row.taskRunId := by
    rw [hparsed, filter_append_of_none fun row hrow => (hparsedNode row hrow).isOtherRun]
    simp only [hruns]
  have hold (result : QcResultRow) :
      db'.contents.isOtherResult node result = db.contents.isOtherResult node result :=
    congrArg (fun rows : List ParsedRecordRow => rows.any fun row =>
      row.id == result.parsedRecordId) hrecords
  have hnew (result : QcResultRow) (hresult : result ∈ results) :
      db'.contents.isOtherResult node result = false := by
    obtain ⟨owner, howner, hid, hnode⟩ := hresultsNode result hresult
    rw [Contents.isOtherResult, List.any_eq_false]
    intro row hrow hmatch
    obtain ⟨hmem, hother⟩ := List.mem_filter.mp hrow
    obtain rfl := SerialTable.eq_of_key_eq hmem howner ((beq_iff_eq.mp hmatch).trans hid.symm)
    rw [hnode.isOtherRun] at hother
    cases hother
  have hfunction : db'.contents.isOtherResult node = db.contents.isOtherResult node := funext hold
  ext1
  · exact h.taskRuns
  · change List.filter _ db'.rawFiles.rows = _
    rw [hfiles, filter_append_of_none fun file hfile => by simp [hfilesNode file hfile]]
    rfl
  · exact hrecords
  · change List.filter _ db'.qcResults.rows = _
    rw [hresults, filter_append_of_none hnew, hfunction]
    rfl
  · change List.filter _ db'.alerts.rows = _
    rw [halerts, filter_append_of_none fun alert halert => by simp [halertsNode alert halert]]
    rfl
  · change List.filter _ db'.receipts.rows = _
    rw [hreceipts, filter_append_of_none fun receipt hreceipt => by
      simp [hreceiptsNode receipt hreceipt]]
    rfl

/-- An accepted request of a node works on its rows. -/
theorem of_accepted {claim : AgentReportReceiptClaim} {response : AgentReportReceiptResponse}
    (h : Accepted pg claim run response db db') (hrun : db.RunOf node run)
    (accumulates : Accumulates db db') (attributed : Attributed db')
    (taskRuns : (db'.taskRuns.rows.filter fun row => row.nodeCode != node) =
      db.taskRuns.rows.filter fun row => row.nodeCode != node) : NodeWork node db db' where
  taskRuns := taskRuns
  rawFiles := by
    obtain ⟨added, hrows, howner⟩ := h.evidence.rawFiles
    refine ⟨added, hrows, fun file hfile => ?_⟩
    have hmem : file ∈ db'.rawFiles.rows := by
      rw [show db'.rawFiles.rows = _ from hrows]
      exact List.mem_append_right _ hfile
    have hfileNode := attributed.rawFiles file hmem
    rw [howner file hfile] at hfileNode
    exact hfileNode.unique (accumulates.taskRuns hrun)
  parsedRecords := by
    obtain ⟨added, hrows, howner⟩ := h.evidence.parsedRecords
    exact ⟨added, hrows, fun parsed hparsed =>
      howner parsed hparsed ▸ accumulates.taskRuns hrun⟩
  qcResults := by
    obtain ⟨added, hrows, howner⟩ := h.evidence.qcResults
    refine ⟨added, hrows, fun result hresult => ?_⟩
    obtain ⟨parsed, hparsed, hid, rfl⟩ := howner result hresult
    exact ⟨parsed, hparsed, hid, accumulates.taskRuns hrun⟩
  alerts := by
    obtain ⟨added, hrows, howner⟩ := h.evidence.alerts
    refine ⟨added, hrows, fun alert halert => ?_⟩
    have hmem : alert ∈ db'.alerts.rows := by
      rw [show db'.alerts.rows = _ from hrows]
      exact List.mem_append_right _ halert
    exact (attributed.alerts alert hmem run (howner alert halert)).unique
      (accumulates.taskRuns hrun)
  receipts := by
    obtain ⟨row, hnew, hid, hrows⟩ := h.receipt
    refine ⟨[row], hrows, fun receipt hreceipt => ?_⟩
    rw [List.mem_singleton.mp hreceipt]
    obtain ⟨owner, howner, hownerId, hnode⟩ := hnew.owner
    have hreceiptNode : db.RunOf row.nodeCode run := ⟨owner, howner, hownerId.trans hid, hnode⟩
    exact hreceiptNode.unique hrun

end NodeWork

/-- A change of rows of a node shows in no other row. -/
theorem filter_map_eq_of_own {Row : Type} {rows : List Row} {change : Row → Row}
    {p : Row → Bool}
    (h : ∀ row ∈ rows, change row = row ∨ p row = false ∧ p (change row) = false) :
    (rows.map change).filter p = rows.filter p := by
  induction rows with
  | nil => rfl
  | cons row rest ih =>
    have hrest := ih fun other hother => h other (List.mem_cons_of_mem _ hother)
    rw [List.map_cons, List.filter_cons, List.filter_cons, hrest]
    rcases h row List.mem_cons_self with hsame | ⟨hbefore, hafter⟩
    · rw [hsame]
    · simp [hbefore, hafter]

/-- Changing a run of a node shows in no run of another node. -/
theorem taskRuns_of_change {selected : TaskRunRow → Bool} {change : TaskRunRow → TaskRunRow}
    {own : TaskRunRow}
    (hrows : db'.taskRuns.rows = db.taskRuns.rows.map fun row =>
      if selected row then change row else row)
    (hown : own ∈ db.taskRuns.rows) (hnode : own.nodeCode = node)
    (hselected : ∀ row, selected row = true → row.id = own.id)
    (hchange : ∀ row, (change row).nodeCode = row.nodeCode) :
    (db'.taskRuns.rows.filter fun row => row.nodeCode != node) =
      db.taskRuns.rows.filter fun row => row.nodeCode != node := by
  rw [hrows]
  apply filter_map_eq_of_own
  intro row hrow
  by_cases hrowSelected : selected row = true
  · obtain rfl := SerialTable.eq_of_key_eq hrow hown (hselected row hrowSelected)
    right
    simp [hrowSelected, hchange, hnode]
  · left
    simp [hrowSelected]

/-- Nothing is work of any node. -/
theorem NodeWork.refl (node : Bytes) (db : Database) : NodeWork node db db :=
  .of_runs (.refl db) rfl

namespace TaskRunService

/-- A manual start works on a run of its node. -/
theorem startManual_nodeWork {request : StartTaskRunRequest} {result : TaskRunCreateResult}
    (h : Tx.Yields pg session (startManual request) db result db') :
    NodeWork request.nodeCode db db' := by
  simp only [startManual, Tx.yields_unless_refuse, Tx.yields_sql_bind, Statement.exec,
    Statement.reading_eq_ok] at h
  obtain ⟨-, -, -, answer, mid, ⟨hselect, rfl⟩, h⟩ := h
  cases answer with
  | none => simp at h
  | some record =>
    obtain ⟨-, run, -, hmem, -, rfl⟩ := selectRunByKey_ok hselect
    simp only [Tx.yields_unless_refuse] at h
    obtain ⟨hmatch, h⟩ := h
    simp only [not_or, not_not] at hmatch
    rw [Tx.yields_ite] at h
    rcases h with ⟨-, h⟩ | ⟨-, h⟩
    · obtain ⟨-, rfl⟩ := Tx.yields_pure.mp h
      exact .refl _ _
    simp only [Tx.yields_sql_bind, Tx.yields_unless_refuse, Statement.exec,
      Statement.reading_eq_ok] at h
    obtain ⟨-, mid, ⟨-, rfl⟩, -, locked, mid, ⟨-, rfl⟩, h⟩ := h
    cases locked with
    | none => simp at h
    | some locked =>
      simp only [Tx.yields_ite] at h
      rcases h with ⟨-, h⟩ | ⟨-, h⟩
      · obtain ⟨-, rfl⟩ := Tx.yields_pure.mp h
        exact .refl _ _
      · simp only [Tx.yields_sql_bind, Statement.exec, Database.updateManualRunning,
          Answer.bind_eq_ok] at h
        obtain ⟨⟨⟩, mid, ⟨id, hid, instant, -, hchange⟩, h⟩ := h
        obtain ⟨-, rfl⟩ := Tx.yields_pure.mp h
        obtain ⟨taskRuns, rfl, hrows⟩ := changeRuns_ok hchange
        obtain rfl : some run.id = id := by simpa [Database.toTaskRunRecord] using hid
        refine .of_runs ⟨rfl, rfl, rfl, rfl, rfl, rfl, rfl, rfl, rfl⟩ (taskRuns_of_change hrows
          hmem hmatch.1 (fun row hrow => ?_) fun _ => rfl)
        simp only [Bool.and_eq_true, beq_iff_eq, Option.some.injEq] at hrow
        exact hrow.1

/-- The run of a scheduled start belongs to its node. -/
theorem nodeCode_of_asksForSlot {request : StartTaskRunRequest} {run : TaskRunRow}
    {task : TaskRow} (hsound : Sound pg db) (htask : SlotTask pg request db task)
    (h : AsksForSlot pg request run) : run.nodeCode = request.nodeCode := by
  obtain ⟨registered, hregistered, hcode⟩ := hsound.taskNodes task htask.stored
  have hreceived := hsound.codes registered hregistered
  rw [hcode, htask.node] at hreceived
  have hnode := accepted_eq_ok.mp h.node
  exact Option.some.inj (hnode.symm.trans hreceived)

/-- A keyed start works on runs of its node and names one of them. -/
theorem start_nodeWork {request : StartTaskRunRequest} {result : TaskRunCreateResult}
    (hsound : Sound R.postgres db) (hkey : request.executionKey ≠ [])
    (h : Tx.Yields R.postgres session (start request) db result db') :
    NodeWork request.nodeCode db db' ∧
      ∃ run ∈ db'.taskRuns.rows, result.id = decimal run.id ∧
        run.nodeCode = request.nodeCode := by
  have hstarts := starts_of_yields (start_starting request) h
  rw [start, Tx.yields_unless_refuse, Tx.yields_unless_refuse, Tx.yields_ite] at h
  obtain ⟨-, -, ⟨-, h⟩ | ⟨-, h⟩⟩ := h
  · obtain ⟨-, run, hrun, hasks, -, hnames⟩ := startManual_yields h
    exact ⟨startManual_nodeWork h, run, hrun, hnames.id, hasks.node⟩
  · have hkeyed : isScheduledStart request = true := by simp [isScheduledStart, hkey]
    obtain ⟨-, ⟨task, htask⟩, run, hasks, hstart, hid, -⟩ := startScheduled_yields hkeyed h
    have hnode := nodeCode_of_asksForSlot hsound htask hasks
    cases hstart with
    | created running rows fresh =>
      refine ⟨.of_runs hstarts.elsewhere ?_, run, by simp [rows], hid, hnode⟩
      rw [rows]
      exact filter_append_of_none fun row hrow => by simp [List.mem_singleton.mp hrow, hnode]
    | found unchanged stored sameTask =>
      subst unchanged
      exact ⟨.refl _ _, run, stored, hid, hnode⟩

end TaskRunService

/-- The rows that a reply names belong to a node. -/
def Reply.OwnedBy (db : Database) (node : Bytes) : Reply → Prop
  | .start result => ∃ run ∈ db.taskRuns.rows, result.id = decimal run.id ∧ run.nodeCode = node
  | .manifest result => ∀ id ∈ result.rawFileIds,
      ∃ file ∈ db.rawFiles.rows, id = decimal file.id ∧ file.nodeCode = node
  | .report result =>
      (∀ id ∈ result.parsedRecordIds, ∃ parsed ∈ db.parsedRecords.rows, id = decimal parsed.id ∧
        db.RunOf node parsed.taskRunId) ∧
      (∀ id ∈ result.qcResultIds, ∃ stored ∈ db.qcResults.rows, id = decimal stored.id ∧
        ∃ parsed ∈ db.parsedRecords.rows, parsed.id = stored.parsedRecordId ∧
          db.RunOf node parsed.taskRunId) ∧
      ∀ id ∈ result.alertIds, ∃ alert ∈ db.alerts.rows, id = decimal alert.id ∧
        alert.nodeCode = node
  | _ => False

namespace Attributed

/-- Files of a run of a node are files of the node. -/
theorem ownedBy_of_namesFiles (h : Attributed db) (hrun : db.RunOf node run)
    {result : RawFileManifestResult} (hids : NamesFiles db run result.rawFileIds) :
    Reply.OwnedBy db node (.manifest result) := by
  intro id hid
  obtain ⟨file, hfile, hnamed, rfl⟩ := hids id hid
  exact ⟨file, hfile, hnamed, (h.rawFiles file hfile).unique hrun⟩

/-- Evidence of a run of a node is evidence of the node. -/
theorem ownedBy_of_names (h : Attributed db) (hrun : db.RunOf node run)
    {result : TaskRunReportResult} (hparsed : NamesParsed db run result.parsedRecordIds)
    (hresults : NamesResults db run result.qcResultIds)
    (halerts : NamesAlerts db run result.alertIds) :
    Reply.OwnedBy db node (.report result) := by
  refine ⟨fun id hid => ?_, fun id hid => ?_, fun id hid => ?_⟩
  · obtain ⟨parsed, hmem, hnamed, rfl⟩ := hparsed id hid
    exact ⟨parsed, hmem, hnamed, hrun⟩
  · obtain ⟨stored, hmem, hnamed, parsed, hmem', howner, rfl⟩ := hresults id hid
    exact ⟨stored, hmem, hnamed, parsed, hmem', howner, hrun⟩
  · obtain ⟨alert, hmem, hnamed, howner⟩ := halerts id hid
    exact ⟨alert, hmem, hnamed, (h.alerts alert hmem run howner).unique hrun⟩

/-- The receipt that a repeated request is answered from names evidence of its node. -/
theorem names_of_replayed (h : Attributed db) (hsound : Sound pg db)
    {claim : AgentReportReceiptClaim} {response : AgentReportReceiptResponse}
    {own : TaskRunRow} (hreceived : pg.textParam claim.nodeCode = .ok own.nodeCode)
    (hreplayed : Replayed pg claim response db) :
    ∃ run, db.RunOf own.nodeCode run ∧ NamesEvidence db run response claim.requestType := by
  obtain ⟨row, hrow, hnames, -, hanswers⟩ := hreplayed.stored
  have hnode : row.nodeCode = own.nodeCode :=
    Except.ok.inj (hnames.node.symm.trans hreceived)
  obtain ⟨owner, howner, hid, hownerNode⟩ := (hsound.receipts row hrow).owner
  exact ⟨row.taskRunId, ⟨owner, howner, hid, hownerNode.trans hnode⟩,
    hnames.type ▸ h.receipts row hrow response hanswers⟩

end Attributed

/-- The node code of a stored run arrives as it is. -/
theorem Sound.textParam_nodeCode (hsound : Sound pg db) {own : TaskRunRow}
    (hown : own ∈ db.taskRuns.rows) : pg.textParam own.nodeCode = .ok own.nodeCode := by
  obtain ⟨task, htask, -, htaskNode⟩ := hsound.runTasks own hown
  obtain ⟨registered, hregistered, hcode⟩ := hsound.taskNodes task htask
  have hreceived := hsound.codes registered hregistered
  rw [hcode, htaskNode] at hreceived
  exact accepted_eq_ok.mpr hreceived

namespace AgentReportService

/-- A manifest works on rows of its node and names files of it. -/
theorem manifest_nodeWork {request : RawFileManifestRequest} {result : RawFileManifestResult}
    (hsound : Sound R.postgres db) (attributed : Attributed db) (attributed' : Attributed db')
    (h : Tx.Yields R.postgres session (acceptRawFileManifest R request) db result db') :
    NodeWork request.nodeCode db db' ∧
      Reply.OwnedBy db' request.nodeCode (.manifest result) := by
  obtain ⟨own, response, hown, ⟨rfl, rfl, hreplayed⟩ | ⟨rfl, hruns, -, haccepted⟩⟩ :=
    acceptRawFileManifest_yields h
  · obtain ⟨run, hrun, hnames⟩ := attributed.names_of_replayed hsound
      (by rw [show (manifestClaim R request).nodeCode = own.nodeCode from hown.node.symm]
          exact hsound.textParam_nodeCode hown.stored) hreplayed
    rw [hown.node] at hrun
    exact ⟨.refl _ _, attributed.ownedBy_of_namesFiles hrun hnames⟩
  · have hrun : db.RunOf request.nodeCode own.id := ⟨own, hown.stored, rfl, hown.node⟩
    refine ⟨.of_accepted haccepted hrun h.accumulates attributed' (by rw [hruns]), ?_⟩
    exact attributed'.ownedBy_of_namesFiles (h.accumulates.taskRuns hrun)
      (acceptRawFileManifest_names rfl hown.named h)

/-- A report works on rows of its node and names evidence of it. -/
theorem report_nodeWork {request : TaskRunReportRequest} {result : TaskRunReportResult}
    (hsound : Sound R.postgres db) (attributed : Attributed db) (attributed' : Attributed db')
    (h : Tx.Yields R.postgres session (acceptTaskRunReport R request) db result db') :
    NodeWork request.nodeCode db db' ∧ Reply.OwnedBy db' request.nodeCode (.report result) := by
  obtain ⟨-, own, response, hown, ⟨rfl, rfl, hreplayed⟩ |
    ⟨rfl, -, ⟨change, hchange, hruns⟩, haccepted⟩⟩ := acceptTaskRunReport_yields h
  · obtain ⟨run, hrun, hparsed, hresults, halerts⟩ :=
      attributed.names_of_replayed hsound
        (by rw [show (reportClaim R request).nodeCode = own.nodeCode from hown.node.symm]
            exact hsound.textParam_nodeCode hown.stored) hreplayed
    rw [hown.node] at hrun
    exact ⟨.refl _ _, attributed.ownedBy_of_names hrun hparsed hresults halerts⟩
  · have hrun : db.RunOf request.nodeCode own.id := ⟨own, hown.stored, rfl, hown.node⟩
    have hothers := taskRuns_of_change hruns hown.stored hown.node
      (fun row hrow => by simpa using hrow) fun row => (hchange row).nodeCode
    obtain ⟨hparsed, hresults, halerts⟩ := acceptTaskRunReport_names rfl hown.named h
    exact ⟨.of_accepted haccepted hrun h.accumulates attributed' hothers,
      attributed'.ownedBy_of_names (h.accumulates.taskRuns hrun) hparsed hresults halerts⟩

end AgentReportService

/-- What a reply names stays with its node. -/
theorem Accumulates.ownedBy (h : Accumulates db db') {reply : Reply}
    (howned : reply.OwnedBy db node) : reply.OwnedBy db' node := by
  cases reply with
  | start result =>
    obtain ⟨run, hrun, hid, hnode⟩ := howned
    obtain ⟨later, hlater, hsame, hlaterNode⟩ := h.taskRuns ⟨run, hrun, rfl, hnode⟩
    exact ⟨later, hlater, by rw [hsame, hid], hlaterNode⟩
  | manifest result =>
    intro id hid
    obtain ⟨file, hfile, hnamed⟩ := howned id hid
    obtain ⟨added, hrows, -⟩ := h.rawFiles
    exact ⟨file, by rw [hrows]; exact List.mem_append_left _ hfile, hnamed⟩
  | report result =>
    obtain ⟨hparsed, hresults, halerts⟩ := howned
    refine ⟨fun id hid => ?_, fun id hid => ?_, fun id hid => ?_⟩
    · obtain ⟨parsed, hmem, hnamed, hrun⟩ := hparsed id hid
      exact ⟨parsed, h.parsedRecords.subset hmem, hnamed, h.taskRuns hrun⟩
    · obtain ⟨stored, hmem, hnamed, parsed, hmem', howner, hrun⟩ := hresults id hid
      exact ⟨stored, h.qcResults.subset hmem, hnamed, parsed, h.parsedRecords.subset hmem',
        howner, h.taskRuns hrun⟩
    · obtain ⟨alert, hmem, hnamed, hnode⟩ := halerts id hid
      obtain ⟨moved, hmoved, same⟩ := h.alerts.exists_moved hmem
      exact ⟨moved, hmoved, by rw [same.id, hnamed], by rw [same.nodeCode, hnode]⟩
  | manual _ => exact howned
  | task _ => exact howned
  | alert _ => exact howned

/-- A call of an agent that ends with a result works on rows of its node and names such rows. -/
theorem AgentCall.nodeWork {call : Call} (h : AgentCall node call) (hreachable : Reachable R db)
    {session : Session} {reply : Reply} (hreply : (call.serve R session db).1 = .ok reply) :
    NodeWork node db (call.serve R session db).2 ∧
      reply.OwnedBy (call.serve R session db).2 node := by
  have hyields := Tx.yields_of_execute hreply
  have hattributed' := call.serve_attributed (R := R) session hreachable.attributed
  unfold Call.serve at hattributed' ⊢
  generalize (Tx.execute (call.transaction R) R.postgres session db).2 = db' at *
  cases h with
  | start declared keyed =>
    simp only [Call.transaction, Tx.yields_bind, Tx.yields_pure] at hyields
    obtain ⟨result, mid, hyields, rfl, rfl⟩ := hyields
    exact declared ▸ TaskRunService.start_nodeWork hreachable.sound keyed hyields
  | manifest declared =>
    simp only [Call.transaction, Tx.yields_bind, Tx.yields_pure] at hyields
    obtain ⟨result, mid, hyields, rfl, rfl⟩ := hyields
    exact declared ▸ AgentReportService.manifest_nodeWork hreachable.sound hreachable.attributed
      hattributed' hyields
  | report declared =>
    simp only [Call.transaction, Tx.yields_bind, Tx.yields_pure] at hyields
    obtain ⟨result, mid, hyields, rfl, rfl⟩ := hyields
    exact declared ▸ AgentReportService.report_nodeWork hreachable.sound hreachable.attributed
      hattributed' hyields

/-- A call of an agent leaves the rows of the other nodes as they are. -/
theorem AgentCall.ofOthers_eq {call : Call} (h : AgentCall node call)
    (hreachable : Reachable R db) (session : Session) :
    (call.serve R session db).2.contents.ofOthers node = db.contents.ofOthers node := by
  rcases hreply : (call.serve R session db).1 with stop | reply
  · rw [show (call.serve R session db).2.contents = db.contents from
      Tx.contents_of_execute_error hreply]
  · exact (h.nodeWork hreachable hreply).1.ofOthers_eq

/-- A call of an agent is refused with a fixed text. -/
theorem AgentCall.fixed {call : Call} (h : AgentCall node call) {failure : Failure}
    (hrefused : (call.serve R session db).1 = .error (.refused failure)) : Fixed failure := by
  refine Discreet.refused ?_ hrefused
  cases h with
  | start _ _ => exact Program.Stops.bind (TaskRunService.start_discreet _) fun _ => trivial
  | manifest _ =>
    exact Program.Stops.bind (AgentReportService.acceptRawFileManifest_discreet _)
      fun _ => trivial
  | report _ =>
    exact Program.Stops.bind (AgentReportService.acceptTaskRunReport_discreet _) fun _ => trivial

/-- A request that arrives at an endpoint, and the session it is served in. -/
structure HttpDelivery where
  endpoint : AgentEndpoint
  request : HttpRequest
  session : Session

/-- Serve deliveries one after the other. -/
def HttpAuthenticator.serveAll (authenticator : HttpAuthenticator) (R : Runtime) (J : JsonCpp) :
    List HttpDelivery → Database → List HttpResponse × Database
  | [], db => ([], db)
  | delivery :: rest, db =>
    let served := authenticator.serve R J delivery.endpoint delivery.request delivery.session db
    let others := serveAll authenticator R J rest served.2
    (served.1 :: others.1, others.2)

/-- A response that returns rows of a node at most: a success names rows of the node, and the text
of a failure is a fixed one or the same whatever is stored. -/
def HttpDelivery.Confined (authenticator : HttpAuthenticator) (R : Runtime) (J : JsonCpp)
    (node : Bytes) (db : Database) (delivery : HttpDelivery) : HttpResponse → Prop
  | .success _ data => data.OwnedBy db node
  | .failure code error message =>
    (∃ known ∈ "internal server error" :: refusalTexts, message = text known) ∨
      ∀ session other, (authenticator.serve R J delivery.endpoint delivery.request session
        other).1 = .failure code error message

variable {authenticator : HttpAuthenticator} {J : JsonCpp}

/-- A success names rows of its node in every later state. -/
theorem HttpDelivery.Confined.later {delivery : HttpDelivery} {response : HttpResponse}
    (h : delivery.Confined authenticator R J node db response)
    (haccumulates : Accumulates db db') :
    delivery.Confined authenticator R J node db' response := by
  cases response with
  | success code data => exact haccumulates.ownedBy h
  | failure code error message => exact h

/-- A response to a call of an agent is confined. -/
theorem AgentCall.confined {call : Call} (h : AgentCall node call) (hreachable : Reachable R db)
    {delivery : HttpDelivery} {session : Session} :
    delivery.Confined authenticator R J node (call.serve R session db).2
      (delivery.endpoint.respond (call.serve R session db).1) := by
  rcases houtcome : (call.serve R session db).1 with (failure | fault | message) | reply
  · obtain ⟨known, hknown, hmessage⟩ := h.fixed houtcome
    have hinternal : ∃ known ∈ "internal server error" :: refusalTexts,
        text "internal server error" = text known := ⟨_, List.mem_cons_self, rfl⟩
    simp only [AgentEndpoint.respond, statusErrorResponse]
    cases failure.code with
    | ok => exact .inl hinternal
    | invalidArgument => exact .inl ⟨known, List.mem_cons_of_mem _ hknown, hmessage⟩
    | notFound => exact .inl ⟨known, List.mem_cons_of_mem _ hknown, hmessage⟩
    | conflict => exact .inl ⟨known, List.mem_cons_of_mem _ hknown, hmessage⟩
  · exact .inl ⟨_, List.mem_cons_self, rfl⟩
  · exact .inl ⟨_, List.mem_cons_self, rfl⟩
  · exact (h.nodeWork hreachable houtcome).2

/-- One authenticated delivery leaves the other nodes alone. -/
theorem HttpAuthenticator.serve_isolated (hreachable : Reachable R db) {delivery : HttpDelivery}
    (hnode : authenticator.requireAgentNode delivery.request = some node) :
    let served := authenticator.serve R J delivery.endpoint delivery.request delivery.session db
    Reachable R served.2 ∧ Accumulates db served.2 ∧
      served.2.contents.ofOthers node = db.contents.ofOthers node ∧
      delivery.Confined authenticator R J node served.2 served.1 := by
  dsimp only
  rcases authenticator.serve_cases R J delivery.endpoint hnode with
    ⟨code, error, message, hserve⟩ | ⟨call, hparse, hserve⟩
  · rw [hserve]
    refine ⟨hreachable, .refl db, rfl, .inr fun session other => ?_⟩
    rw [hserve]
  · have hcall := AgentEndpoint.agentCall_of_parse hparse
    rw [hserve]
    refine ⟨?_, call.serve_accumulates _ _, hcall.ofOthers_eq hreachable _,
      hcall.confined hreachable⟩
    exact Relation.ReflTransGen.tail hreachable (.serve call delivery.session trivial)

/-- Whatever requests authenticate as a node, in whatever order and with whatever bodies: they
leave the rows of the other nodes as they are, and every response returns rows of the node at
most. -/
theorem node_isolation (authenticator : HttpAuthenticator) (R : Runtime) (J : JsonCpp)
    {db : Database} (hreachable : Reachable R db) {node : Bytes} {deliveries : List HttpDelivery}
    (hnode : ∀ delivery ∈ deliveries,
      authenticator.requireAgentNode delivery.request = some node) :
    let served := authenticator.serveAll R J deliveries db
    served.2.contents.ofOthers node = db.contents.ofOthers node ∧
      List.Forall₂ (HttpDelivery.Confined authenticator R J node served.2) deliveries served.1 := by
  dsimp only
  suffices hrun : Accumulates db (authenticator.serveAll R J deliveries db).2 ∧
      (authenticator.serveAll R J deliveries db).2.contents.ofOthers node =
        db.contents.ofOthers node ∧
      List.Forall₂ (HttpDelivery.Confined authenticator R J node
        (authenticator.serveAll R J deliveries db).2) deliveries
        (authenticator.serveAll R J deliveries db).1 from hrun.2
  induction deliveries generalizing db with
  | nil => exact ⟨.refl db, rfl, .nil⟩
  | cons delivery rest ih =>
    obtain ⟨hreachable', haccumulates, hothers, hconfined⟩ :=
      HttpAuthenticator.serve_isolated (J := J) hreachable (hnode delivery List.mem_cons_self)
    obtain ⟨hrest, hrestOthers, hrestConfined⟩ := ih hreachable'
      fun other hother => hnode other (List.mem_cons_of_mem _ hother)
    exact ⟨haccumulates.trans hrest, hrestOthers.trans hothers,
      .cons (hconfined.later hrest) hrestConfined⟩

namespace Reference

/-- A token of one digit. -/
def token (digit : Char) : Bytes := List.replicate 64 (byte digit)

/-- The authenticator of a site with two nodes. -/
def twoTokens : HttpAuthenticator where
  credentials := {
    managementToken := token 'c'
    agentTokens := [(text "lab-node", token 'a'), (text "second-node", token 'b')]
    distinct := by decide +kernel }
  accepted := by decide +kernel

/-- A start of a task that the first node declares as its own. -/
def startOf (taskId : String) : HttpDelivery where
  endpoint := .start
  request := {
    nodeCode := text "lab-node"
    authorization := text "Bearer " ++ token 'a'
    isJson := true
    body := some (.record [
      ("execution_key", .str (text "slot-1")),
      ("node_code", .str (text "lab-node")),
      ("scheduled_for", .str (text "2024-05-01T08:00:00Z")),
      ("started_at", .str (text "2024-05-01T08:00:00Z")),
      ("task_id", .str (text taskId)),
      ("trigger_type", .str (text "scheduled"))]) }
  session := .first now

/-- A start of the second node. -/
def secondStart : StartTaskRunRequest :=
  { scheduledStart with nodeCode := text "second-node", taskId := text "2" }

/-- The tables in which a run of the second node is running. -/
def secondRunning : Database := ((Call.start secondStart).serve runtime (.first now) twoNodes).2

/-- The tables are reachable. -/
theorem reachable_secondRunning : Reachable runtime secondRunning :=
  Relation.ReflTransGen.tail (.single (.configure configures_twoNodes)) (.serve _ _ trivial)

end Reference

/-- The first node starts the task of the second one and its own, and the run of the second node
stays as it is. -/
theorem node_isolation_twoNodes :
    (Reference.twoTokens.serveAll Reference.runtime Reference.jsonCpp
      [Reference.startOf "2", Reference.startOf "1"] Reference.secondRunning).2.contents.ofOthers
        (text "lab-node") = Reference.secondRunning.contents.ofOthers (text "lab-node") :=
  (node_isolation Reference.twoTokens Reference.runtime Reference.jsonCpp
    Reference.reachable_secondRunning (by decide +kernel)).1

end LabBridge.Server
