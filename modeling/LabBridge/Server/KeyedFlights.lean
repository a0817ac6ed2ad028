import LabBridge.Server.KeyedRuns

/-!
# A request in flight and its key

What a stage says about the tables and the transaction, and that every answer that leads to
a stage makes it true. The insert of a run is the one statement that other requests with the
key can disturb: it is assumed that the runs under the key are ones that the request asks for.
-/

namespace LabBridge.Server

open ByteText LabBridge.Core Storage Interaction

variable {R : Runtime} {pg : Postgres} {key : Bytes} {db committed view reached : Database}
  {flight other next : Flight} {others : List Flight} {γ : Type} {statement : Statement γ}
  {rest : γ → Tx Reply} {answer : γ} {stage stage' : KeyStage} {known known' : LockStage}

/-- No run under a key was stored when a transaction began. -/
def Unused (key : Bytes) (db : Database) : Prop := ∀ run ∈ db.taskRuns.rows, ¬UnderKey key run

/-- A run under the key of a request that it asks for. -/
structure Answers (pg : Postgres) (key : Bytes) (db : Database) (call : Call) (id : Bytes)
    (run : TaskRunRow) : Prop where
  id : id = decimal run.id
  key : UnderKey key run
  asks : Asks pg db.taskRuns.rows call run

/-- What a request knows in a stage. -/
def KeyStage.Knows (pg : Postgres) (key : Bytes) (db : Database) (flight : Flight) :
    KeyStage → Prop
  | fresh => flight.own = {}
  | looked => flight.own = {} ∧ Unused key flight.began
  | parent record => flight.own = {} ∧ Unused key flight.began ∧ ∃ parent ∈ db.taskRuns.rows,
      (∀ taskRunId key, flight.call = .retry taskRunId key →
        pg.idParam taskRunId = .ok (some parent.id)) ∧
        record.id = decimal parent.id ∧ record.taskId = decimal parent.taskId
  | made id => ∃ run ∈ flight.own.runs, Answers pg key db flight.call id run
  | taken => flight.own = {} ∧ ∃ run ∈ db.taskRuns.rows,
      Answers pg key db flight.call (decimal run.id) run
  | names id => ∃ run, (run ∈ flight.own.runs ∨ run ∈ db.taskRuns.rows) ∧
      Answers pg key db flight.call id run

/-- A run that answers a request answers it after every commit. -/
theorem Answers.carried {call : Call} {id : Bytes} {run same : TaskRunRow}
    (h : Answers pg key db call id run) (hcarried : Carried db committed)
    (hsame : SameRun run same) : Answers pg key committed call id same where
  id := by rw [h.id, hsame.id]
  key := h.key.same hsame
  asks := h.asks.carried hcarried hsame

/-- What a request knows survives whatever carries the stored runs. -/
theorem KeyStage.Knows.carried (h : stage.Knows pg key db other) (hcarried : Carried db committed) :
    stage.Knows pg key committed other := by
  cases stage with
  | fresh => exact h
  | looked => exact h
  | parent record =>
    obtain ⟨hown, hunused, parent, hparent, hid, hrecord, htask⟩ := h
    obtain ⟨same, hsame, hfixed⟩ := hcarried parent hparent
    refine ⟨hown, hunused, same, hsame, fun taskRunId key hcall => ?_, ?_, ?_⟩
    · rw [hfixed.id]
      exact hid taskRunId key hcall
    · rw [hfixed.id]
      exact hrecord
    · rw [hfixed.taskId]
      exact htask
  | made id =>
    obtain ⟨run, hrun, hanswers⟩ := h
    exact ⟨run, hrun, hanswers.carried hcarried (.refl run)⟩
  | taken =>
    obtain ⟨hown, run, hrun, hanswers⟩ := h
    obtain ⟨same, hsame, hfixed⟩ := hcarried run hrun
    refine ⟨hown, same, hsame, ?_⟩
    rw [hfixed.id]
    exact hanswers.carried hcarried hfixed
  | names id =>
    obtain ⟨run, hown | hstored, hanswers⟩ := h
    · exact ⟨run, .inl hown, hanswers.carried hcarried (.refl run)⟩
    · obtain ⟨same, hsame, hfixed⟩ := hcarried run hstored
      exact ⟨same, .inr hsame, hanswers.carried hcarried hfixed⟩

/-- The operator run that a statement inserts. -/
def Statement.asksFor : {α : Type} → Statement α → Option ManualTaskRunRequest
  | _, .insertManualRun request _ => some request
  | _, _ => none

/-- An operator run is inserted once its task was seen to be clear. -/
theorem LockStage.After.clear_of_insert {request : ManualTaskRunRequest}
    (h : LockStage.After known statement answer known')
    (hrequest : statement.asksFor = some request) :
    known = .clear request.taskId request.nodeCode request.executionKey := by
  cases h with
  | read isRead =>
    cases statement <;> first
      | exact isRead.elim
      | cases hrequest
  | insert =>
    cases hrequest
    rfl
  | _ => cases hrequest

/-- The insert of an operator run, once its task was seen to be clear, appends the run it asks
for, or finds a stored run under its key. -/
theorem Runs.insert_cases {request : ManualTaskRunRequest} {json : Bytes} {answer : Option Bytes}
    {rest : Option Bytes → Tx Reply}
    (hruns : Runs R db others flight next committed (.insertManualRun request json) rest answer
      view reached)
    (hholds : known.Holds R.postgres db flight)
    (hcodes : ∀ task ∈ db.tasks.rows, R.postgres.textParam task.nodeCode = .ok task.nodeCode)
    (hafter : LockStage.After known (.insertManualRun request json) answer known')
    (formed : isOperatorIdempotencyKey key = true)
    (keyed : request.executionKey = TaskRunService.operatorKey key) :
    flight.own = {} ∧ view = db ∧
      (answer = none ∧ reached = db ∧ (∃ other ∈ db.taskRuns.rows, UnderKey key other) ∨
        ∃ run, answer = some (decimal run.id) ∧ Appends db reached run ∧
          AskedRun R.postgres request run ∧ UnderKey key run) := by
  obtain rfl := hafter.clear_of_insert rfl
  obtain ⟨hown, task, hmem, hlocks, -, hnode, hsame⟩ := hholds
  have hview := hruns.view_eq hown
  have hexec := hruns.executes
  rw [hview] at hexec
  have hcode := hcodes task hmem
  nth_rewrite 1 [hnode] at hcode
  have hkey {run : TaskRunRow} (h : AskedRun R.postgres request run) : UnderKey key run := by
    obtain ⟨received, hreceived, hrun⟩ := h.key
    rw [keyed, varcharParam_operatorKey formed] at hreceived
    rw [UnderKey, hrun, ← Except.ok.inj hreceived]
  refine ⟨hown, hview, ?_⟩
  rcases insertManualRun_ok hmem hlocks.1 hcode hexec with
    ⟨hnone, hdb, run, hasked, other, hother, hclash⟩ | ⟨run, hsome, happends, hasked⟩
  · refine .inl ⟨hnone, hdb, other, hother, ?_⟩
    simp only [TaskRunRow.clash, Bool.or_eq_true, Bool.and_eq_true, beq_iff_eq] at hclash
    rcases hclash with ⟨-, hentry⟩ | ⟨⟨htask, hwaits⟩, -⟩
    · exact hentry.trans (hkey hasked)
    · have htask' := hasked.task
      rw [hlocks.1] at htask'
      have hid : task.id = run.taskId := by simpa using htask'
      have hpending : Database.isPendingManual task.id other = true := by
        simp only [Database.isPendingManual, Bool.and_eq_true, beq_iff_eq]
        exact ⟨⟨htask.trans hid.symm, hwaits.1⟩, hwaits.2⟩
      have hheld := hsame other hother hpending
      rw [keyed] at hheld
      cases hstored : other.executionKey with
      | none =>
        rw [hstored] at hheld
        have hprefix : (text "operator:") ≠ [] := by decide +kernel
        simp [TaskRunService.operatorKey, hprefix] at hheld
      | some stored =>
        rw [hstored] at hheld
        rw [UnderKey, hstored, ← hheld]
        rfl
  · exact .inr ⟨run, hsome, happends, hasked, hkey hasked⟩

section Step

variable (hruns : Runs R db others flight next committed statement rest answer view reached)
  (htidy : Tidy db flight)

include hruns

/-- A transaction that goes on carries the stored runs. -/
theorem Runs.carried : Carried db committed := by
  intro run hrun
  exact ⟨run, hruns.runs_eq ▸ hrun, .refl run⟩

/-- What a request knows of the tables before a statement holds after it. -/
theorem Runs.knows_of_stored (h : stage.Knows R.postgres key db next) :
    stage.Knows R.postgres key committed next := h.carried hruns.carried

/-- A statement that only reads leaves the versions of its transaction. -/
theorem Runs.own_of_read (hread : statement.IsRead) : next.own = flight.own := by
  rw [hruns.next, hread.exec_eq hruns.executes]
  exact record_self _ _

/-- A transaction keeps its call and what it began with. -/
theorem Runs.call_eq : next.call = flight.call ∧ next.began = flight.began := by
  rw [hruns.next]
  exact ⟨rfl, rfl⟩

/-- What a request knows survives its reads. -/
theorem KeyStage.Knows.read (h : stage.Knows R.postgres key db flight)
    (hread : statement.IsRead) : stage.Knows R.postgres key committed next := by
  have hcommitted := h.carried hruns.carried
  obtain ⟨hcall, hbegan⟩ := hruns.call_eq
  cases stage <;>
    simp only [KeyStage.Knows, hruns.own_of_read hread, hcall, hbegan] at hcommitted ⊢ <;>
    exact hcommitted

/-- An appended run is a version of its transaction. -/
theorem Runs.mem_own_of_appends {run : TaskRunRow} (hown : flight.own = {})
    (happends : Appends db reached run) : run ∈ next.own.runs := by
  rw [(hruns.own_of_empty hown).1, mem_changedRows, happends.rows]
  refine ⟨by simp, fun hstored => ?_⟩
  have hbelow := db.taskRuns.below run hstored
  rw [happends.id] at hbelow
  exact lt_irrefl _ hbelow

end Step

/-- A run that the table answers with is a stored one. -/
theorem selectRunByKey_some {session : Session} {record : TaskRunRecord}
    (formed : isOperatorIdempotencyKey key = true)
    (h : (Statement.selectRunByKey (TaskRunService.operatorKey key)).exec pg session db =
      .ok (some record, reached)) :
    ∃ run ∈ db.taskRuns.rows, UnderKey key run ∧ record = Database.toTaskRunRecord pg run := by
  obtain ⟨received, run, hreceived, hrun, hkey, hrecord⟩ :=
    selectRunByKey_ok (Statement.reading_eq_ok.mp h).1
  rw [textParam_operatorKey formed] at hreceived
  exact ⟨run, hrun, by rw [UnderKey, hkey, Except.ok.inj hreceived], hrecord⟩

/-- Without an answer no run is stored under the key. -/
theorem selectRunByKey_none {session : Session} (formed : isOperatorIdempotencyKey key = true)
    (h : (Statement.selectRunByKey (TaskRunService.operatorKey key)).exec pg session db =
      .ok (none, reached)) : Unused key db := by
  intro run hrun hkey
  have hanswer := (Statement.reading_eq_ok.mp h).1
  simp only [Database.selectRunByKey, textParam_operatorKey formed, Answer.ok_bind,
    Answer.pure_eq_ok, Except.ok.injEq, Option.map_eq_none_iff] at hanswer
  have hne : db.runsByKey (TaskRunService.operatorKey key) ≠ [] :=
    List.ne_nil_of_mem (List.mem_filter.mpr ⟨hrun, beq_iff_eq.mpr hkey⟩)
  have hsome := session.pick_isSome hne
  rw [hanswer] at hsome
  cases hsome

/-- What the other requests must leave to one that goes on: under its key is at most one run,
made by an operator request, and it is what the one that inserts a run asks for. -/
structure Fair (pg : Postgres) (key : Bytes) (db : Database) (flight : Flight) : Prop where
  began : Carried flight.began db
  single : ∀ left ∈ db.taskRuns.rows, ∀ right ∈ db.taskRuns.rows,
    UnderKey key left → UnderKey key right → left.id = right.id
  made : ∀ run ∈ db.taskRuns.rows, UnderKey key run → ∃ call, Asks pg db.taskRuns.rows call run
  unmixed : ∀ request json rest, flight.rest = .call (.insertManualRun request json) rest →
    ∀ run ∈ db.taskRuns.rows, UnderKey key run → Asks pg db.taskRuns.rows flight.call run

/-- The insert of a run under its key tells a request what it has made or met. -/
theorem Runs.knows_insert {request : ManualTaskRunRequest} {json : Bytes}
    {answer : Option Bytes} {rest : Option Bytes → Tx Reply}
    (hruns : Runs R db others flight next committed (.insertManualRun request json) rest answer
      view reached)
    (hholds : known.Holds R.postgres db flight)
    (hcodes : ∀ task ∈ db.tasks.rows, R.postgres.textParam task.nodeCode = .ok task.nodeCode)
    (hafter : LockStage.After known (.insertManualRun request json) answer known')
    (formed : isOperatorIdempotencyKey key = true)
    (keyed : request.executionKey = TaskRunService.operatorKey key)
    (hfair : Fair R.postgres key db flight)
    (hasks : ∀ run, AskedRun R.postgres request run →
      Asks R.postgres db.taskRuns.rows flight.call run) :
    KeyStage.Knows R.postgres key committed next (answer.elim .taken .made) := by
  obtain ⟨hcall, -⟩ := hruns.call_eq
  obtain ⟨hown, hview, ⟨rfl, hdb, other, hother, hkey⟩ | ⟨run, rfl, happends, hasked, hkey⟩⟩ :=
    hruns.insert_cases hholds hcodes hafter formed keyed
  · refine hruns.knows_of_stored ⟨?_, other, hother, rfl, hkey, ?_⟩
    · rw [hruns.next, hdb, hview, hown]
      exact record_self _ _
    · rw [hcall]
      exact hfair.unmixed request json rest hruns.issues other hother hkey
  · refine hruns.knows_of_stored ⟨run, hruns.mem_own_of_appends hown happends, rfl,
      hkey, ?_⟩
    rw [hcall]
    exact hasks run hasked

/-- A run that is found under the key of a request that asks for it answers it. -/
theorem Runs.knows_names (hruns : Runs R db others flight next committed statement rest answer
      view reached) {run : TaskRunRow} (hrun : run ∈ db.taskRuns.rows) (hkey : UnderKey key run)
    (hasks : Asks R.postgres db.taskRuns.rows flight.call run) :
    KeyStage.Knows R.postgres key committed next
      (.names (Database.toTaskRunRecord R.postgres run).id) := by
  refine hruns.knows_of_stored ⟨run, .inr hrun, rfl, hkey, ?_⟩
  rw [hruns.call_eq.1]
  exact hasks

/-- Every answer to a request with a key makes it know what the stage it has reached says. -/
theorem Runs.knows
    (hruns : Runs R db others flight next committed statement rest answer view reached)
    (hholds : known.Holds R.postgres db flight)
    (hcodes : ∀ task ∈ db.tasks.rows, R.postgres.textParam task.nodeCode = .ok task.nodeCode)
    (hlock : LockStage.After known statement answer known')
    (carries : flight.call.operatorKey? = some key) (hfair : Fair R.postgres key db flight)
    (hknows : stage.Knows R.postgres key db flight)
    (hafter : KeyStage.After flight.call stage statement answer stage') :
    stage'.Knows R.postgres key committed next := by
  have hcarried := hruns.carried
  obtain ⟨hcall, hbegan⟩ := hruns.call_eq
  have hexec := hruns.executes
  cases hafter with
  | read isRead => exact hknows.read hruns isRead
  | update keyless =>
    rw [keyless] at carries
    cases carries
  | scheduled starts =>
    rw [starts] at carries
    cases carries
  | look carries' formed =>
    rw [carries] at carries'
    cases carries'
    rw [hruns.view_eq hknows] at hexec
    refine ⟨(hruns.own_of_read trivial).trans hknows, fun run hrun hkey => ?_⟩
    rw [hbegan] at hrun
    obtain ⟨same, hsame, hfixed⟩ := hfair.began run hrun
    exact selectRunByKey_none formed hexec same hsame (hkey.same hfixed)
  | see asks =>
    obtain ⟨hown, hunused⟩ := hknows
    rw [hruns.view_eq hown] at hexec
    rcases selectRunById_ok (Statement.reading_eq_ok.mp hexec).1 with hnone | ⟨run, hrun, hid, hrecord⟩
    · cases hnone
    · cases hrecord
      refine ⟨(hruns.own_of_read trivial).trans hown, hbegan ▸ hunused, run,
        hruns.runs_eq ▸ hrun, fun taskRunId key hretry => ?_, rfl, rfl⟩
      rw [hcall, asks] at hretry
      cases hretry
      exact hid
  | trigger asks manual parentless formed keyed =>
    rw [asks] at carries
    cases carries
    refine hruns.knows_insert hholds hcodes hlock formed keyed hfair fun run hasked => ?_
    rw [asks]
    exact hasked.asks_trigger manual parentless
  | retry asks again task parent formed keyed =>
    rw [asks] at carries
    cases carries
    obtain ⟨-, -, stored, hstored, hid, hrecord, htask⟩ := hknows
    refine hruns.knows_insert hholds hcodes hlock formed keyed hfair fun run hasked => ?_
    rw [asks]
    exact hasked.asks_retry again hstored (hid _ _ asks) (task.trans htask) (parent.trans hrecord)
  | created =>
    obtain ⟨run, hrun, hanswers⟩ := hknows
    have hmem := (overlaid_of_overlay hruns.sees).runs.mpr (.inl hrun)
    rcases selectRunById_ok (Statement.reading_eq_ok.mp hexec).1 with hnone | ⟨found, hfound, hid, hrecord⟩
    · cases hnone
    · cases hrecord
      rw [hanswers.id, R.postgres.idParam_decimal] at hid
      obtain rfl := SerialTable.eq_of_key_eq hmem hfound (by simpa using hid)
      refine hruns.knows_of_stored ⟨run, .inl ?_, rfl, hanswers.key, ?_⟩
      · rw [hruns.own_of_read trivial]
        exact hrun
      · rw [hcall]
        exact hanswers.asks
  | existing carries' formed =>
    rw [carries] at carries'
    cases carries'
    obtain ⟨hown, run, hrun, hanswers⟩ := hknows
    rw [hruns.view_eq hown] at hexec
    obtain ⟨found, hfound, hkey, rfl⟩ := selectRunByKey_some formed hexec
    obtain rfl := SerialTable.eq_of_key_eq hrun hfound
      (hfair.single run hrun found hfound hanswers.key hkey)
    exact hruns.knows_names hrun hkey hanswers.asks
  | replayTrigger asks manual parentless formed =>
    rw [asks] at carries
    cases carries
    rw [hruns.view_eq hknows] at hexec
    obtain ⟨run, hrun, hkey, rfl⟩ := selectRunByKey_some formed hexec
    refine hruns.knows_names hrun hkey ?_
    rw [asks]
    refine ⟨manual, R.postgres.idParam_decimal run.taskId, ?_⟩
    cases hparent : run.retryOfRunId with
    | none => rfl
    | some parent => simp [Database.toTaskRunRecord, hparent] at parentless
  | replayRetry asks again formed =>
    rw [asks] at carries
    cases carries
    rw [hruns.view_eq hknows] at hexec
    obtain ⟨run, hrun, hkey, rfl⟩ := selectRunByKey_some formed hexec
    refine hruns.knows_names hrun hkey ?_
    rw [asks]
    obtain ⟨call, hmade⟩ := hfair.made run hrun hkey
    cases call with
    | trigger taskId key =>
      have hmanual := hmade.1.symm.trans again
      exact absurd hmanual (by decide +kernel)
    | retry taskRunId key =>
      obtain ⟨-, parent, hparent, -, hretries, htask⟩ := hmade
      refine ⟨again, parent, hparent, ?_, hretries, htask⟩
      simp [Database.toTaskRunRecord, hretries]
    | _ => exact hmade.elim
  | replayParent asks again task retries formed =>
    rw [asks] at carries
    cases carries
    obtain ⟨hown, -, parent, hparent, hid, hrecord, htask⟩ := hknows
    rw [hruns.view_eq hown] at hexec
    obtain ⟨run, hrun, hkey, rfl⟩ := selectRunByKey_some formed hexec
    refine hruns.knows_names hrun hkey ?_
    rw [asks]
    refine ⟨again, parent, hparent, hid _ _ asks, ?_, ?_⟩
    · rw [hrecord] at retries
      cases hstored : run.retryOfRunId with
      | none =>
        have hempty : decimal (parent.id : ℕ) = [] := by
          rw [← retries]
          simp [Database.toTaskRunRecord, hstored]
        exact absurd hempty (decimal_ne_nil _)
      | some stored =>
        have hsame : decimal (stored : ℕ) = decimal (parent.id : ℕ) := by
          rw [← retries]
          simp [Database.toTaskRunRecord, hstored]
        rw [Fin.ext (decimal_inj.mp hsame)]
    · exact Fin.ext (decimal_inj.mp (task.trans htask))

end LabBridge.Server
