import LabBridge.Server.KeyedFlights

/-!
# Interleaved requests that carry a key

One run at most is stored or about to be stored under an operator key, and every request with
the key has been accounted for. Every step keeps this in which no request inserts its run
while another one under its key is for something else.
-/

namespace LabBridge.Server

open ByteText LabBridge.Core Storage Interaction

variable {R : Runtime} {pg : Postgres} {key : Bytes} {db committed view reached : Database}
  {state after : Concurrent} {flight other next : Flight} {others : List Flight} {γ : Type}
  {statement : Statement γ} {rest : γ → Tx Reply} {answer : γ} {stage stage' : KeyStage}
  {known known' : LockStage} {run : TaskRunRow}

/-- A run is stored, or about to be stored by a transaction. -/
def Concurrent.Stores (state : Concurrent) (run : TaskRunRow) : Prop :=
  run ∈ state.committed.taskRuns.rows ∨ ∃ flight ∈ state.flights, run ∈ flight.own.runs

/-- When a request with the key inserts its run, the runs under the key are ones it asks for;
no scheduled start carries the key. -/
def Unmixed (pg : Postgres) (key : Bytes) (state : Concurrent) : Move → Prop
  | .begin call _ => ∀ request, call = .start request →
      TaskRunService.isManualStart request = false →
      pg.varcharParam 128 request.executionKey ≠ .ok (TaskRunService.operatorKey key)
  | .advance connection => ∀ flight, state.flights[connection]? = some flight →
      flight.call.operatorKey? = some key →
      ∀ request json rest, flight.rest = .call (.insertManualRun request json) rest →
      ∀ run, UnderKey key run → (run ∈ state.committed.taskRuns.rows ∨
        ∃ other ∈ state.flights.eraseIdx connection, run ∈ other.own.runs) →
      Asks pg state.committed.taskRuns.rows flight.call run
  | .lose _ => True

/-- What a request with the key is answered: the run it asks for; a conflict; another refusal
when its key is malformed or no run was stored under it; or a failure. -/
def Accounted (pg : Postgres) (key : Bytes) (db : Database) (answered : Answered) : Prop :=
  answered.call.operatorKey? = some key →
    match answered.result with
    | .ok reply => ∃ result, reply = .manual result ∧ ∃ run ∈ db.taskRuns.rows,
        Answers pg key db answered.call result.taskRunId run
    | .error (.refused failure) => failure.code = .conflict ∨
        isOperatorIdempotencyKey key = false ∨ Unused key answered.began
    | .error _ => True

/-- The answers with which a transaction may end. -/
def Names (call : Call) (stage : KeyStage) (reply : Reply) : Prop :=
  call.operatorKey? ≠ none → ∃ result, reply = .manual result ∧ stage = .names result.taskRunId

/-- What holds of the runs under a key and of the requests that carry it. -/
structure Keyed (pg : Postgres) (key : Bytes) (state : Concurrent) : Prop where
  orderly : Orderly pg state
  began : ∀ flight ∈ state.flights, Carried flight.began state.committed
  single : ∀ left right, state.Stores left → state.Stores right → UnderKey key left →
    UnderKey key right → left.id = right.id
  made : ∀ run, state.Stores run → UnderKey key run →
    ∃ call, Asks pg state.committed.taskRuns.rows call run
  follows : ∀ flight ∈ state.flights, ∃ stage : KeyStage,
    Program.Follows (keyProtocol flight.call) (Names flight.call) flight.rest stage ∧
      (flight.call.operatorKey? = some key → stage.Knows pg key state.committed flight)
  foreign : ∀ flight ∈ state.flights, ∀ request, flight.call = .start request →
    TaskRunService.isManualStart request = false →
    pg.varcharParam 128 request.executionKey ≠ .ok (TaskRunService.operatorKey key)
  accounted : ∀ answered ∈ state.answered, Accounted pg key state.committed answered

/-- What was answered stays accounted for. -/
theorem Accounted.carried {answered : Answered} (h : Accounted pg key db answered)
    (hcarried : Carried db committed) : Accounted pg key committed answered := by
  intro hcarries
  have hanswer := h hcarries
  revert hanswer
  cases answered.result with
  | ok reply =>
    rintro ⟨result, hreply, run, hrun, hanswers⟩
    obtain ⟨same, hsame, hfixed⟩ := hcarried run hrun
    exact ⟨result, hreply, same, hsame, hanswers.carried hcarried hfixed⟩
  | error stop => cases stop <;> exact id

/-- A request that is stopped is accounted for. -/
theorem accounted_of_stops {stop : Stop} (hstops : stage.Stops flight.call stop)
    (hknows : flight.call.operatorKey? = some key → stage.Knows pg key db flight) :
    Accounted pg key db ⟨flight.call, flight.began, .error stop⟩ := by
  intro hcarries
  cases stop with
  | refused failure =>
    rcases hstops with hconflict | hlooked
    · exact .inl hconflict
    · rcases hlooked key hcarries with hmalformed | hstage
      · exact .inr (.inl hmalformed)
      · have hstate := hknows hcarries
        cases stage with
        | looked => exact .inr (.inr hstate.2)
        | parent record => exact .inr (.inr hstate.2.1)
        | _ => exact hstage.elim
  | failed fault => trivial
  | thrown message => trivial

/-- A run that a statement appends under the key was asked for by the request it serves, which
carries the key and has written nothing before. -/
theorem Runs.asks_of_appends
    (hruns : Runs R db others flight next committed statement rest answer view reached)
    (hholds : known.Holds R.postgres db flight)
    (hcodes : ∀ task ∈ db.tasks.rows, R.postgres.textParam task.nodeCode = .ok task.nodeCode)
    (hlock : LockStage.After known statement answer known')
    (hknows : flight.call.operatorKey? = some key → stage.Knows R.postgres key db flight)
    (hafter : KeyStage.After flight.call stage statement answer stage')
    (hforeign : ∀ request, flight.call = .start request →
      TaskRunService.isManualStart request = false →
      R.postgres.varcharParam 128 request.executionKey ≠ .ok (TaskRunService.operatorKey key))
    (happends : Appends view reached run) (hstores : statement.StoresKey R.postgres run)
    (hkey : UnderKey key run) :
    flight.call.operatorKey? = some key ∧ flight.own = {} ∧
      Asks R.postgres db.taskRuns.rows flight.call run ∧
      ∃ request json rest, flight.rest = .call (.insertManualRun request json) rest := by
  have hnone {run : TaskRunRow} (hsame : run.executionKey = none) : ¬UnderKey key run := by
    intro hkey
    rw [UnderKey, hsame] at hkey
    cases hkey
  have hinsert {key' : Bytes} {request : ManualTaskRunRequest} (formed : isOperatorIdempotencyKey key' = true)
      (keyed : request.executionKey = TaskRunService.operatorKey key')
      (hstores : ∃ received, R.postgres.varcharParam 128 request.executionKey = .ok received ∧
        run.executionKey = some received) : key' = key := by
    obtain ⟨received, hreceived, hrun⟩ := hstores
    rw [keyed, varcharParam_operatorKey formed] at hreceived
    rw [UnderKey, hrun, ← Except.ok.inj hreceived] at hkey
    exact List.append_cancel_left (Option.some.inj hkey)
  have hasked {request : ManualTaskRunRequest} {json : Bytes} {answer : Option Bytes}
      {rest : Option Bytes → Tx Reply} {key' : Bytes}
      (hruns : Runs R db others flight next committed (.insertManualRun request json) rest answer
        view reached) (hlock : LockStage.After known (.insertManualRun request json) answer known')
      (formed : isOperatorIdempotencyKey key' = true)
      (keyed : request.executionKey = TaskRunService.operatorKey key') :
      flight.own = {} ∧ AskedRun R.postgres request run := by
    obtain ⟨hown, hview, ⟨-, hdb, -⟩ | ⟨stored, -, hstored, hasked, -⟩⟩ :=
      hruns.insert_cases hholds hcodes hlock formed keyed
    · rw [hview, hdb] at happends
      exact absurd rfl happends.counts
    · rw [hview] at happends
      exact ⟨hown, happends.eq hstored ▸ hasked⟩
  cases hafter with
  | read isRead =>
    have hsame := isRead.exec_eq hruns.executes
    rw [hsame] at happends
    exact absurd rfl happends.counts
  | update keyless unkeyed =>
    rw [Statement.StoresKey, unkeyed] at hstores
    exact absurd hkey (hnone hstores)
  | scheduled starts isScheduled key =>
    obtain ⟨received, hreceived, hrun⟩ := hstores
    rw [key] at hreceived
    rw [UnderKey, hrun] at hkey
    rw [Option.some.inj hkey] at hreceived
    exact absurd hreceived (hforeign _ starts isScheduled)
  | trigger asks manual parentless formed keyed =>
    obtain rfl := hinsert formed keyed hstores
    obtain ⟨hown, hrun⟩ := hasked hruns hlock formed keyed
    refine ⟨asks ▸ rfl, hown, ?_, _, _, _, hruns.issues⟩
    rw [asks]
    exact hrun.asks_trigger manual parentless
  | retry asks again task parent formed keyed =>
    obtain rfl := hinsert formed keyed hstores
    obtain ⟨hown, hrun⟩ := hasked hruns hlock formed keyed
    obtain ⟨-, -, stored, hstored, hid, hrecord, htask⟩ := hknows (asks ▸ rfl)
    refine ⟨asks ▸ rfl, hown, ?_, _, _, _, hruns.issues⟩
    rw [asks]
    exact hrun.asks_retry again hstored (hid _ _ asks) (task.trans htask) (parent.trans hrecord)
  | _ => exact absurd hkey (hnone hstores)

/-- Where a run comes from that is stored or about to be after a statement: it was before, or
it is the one that the statement appends. -/
theorem Runs.origin
    (hruns : Runs R db others flight next committed statement rest answer view reached)
    (hlock : LockStage.After known statement answer known') (hown : run ∈ next.own.runs) :
    (∃ old, (old ∈ flight.own.runs ∨ old ∈ db.taskRuns.rows) ∧ SameRun old run) ∨
      Appends view reached run ∧ statement.StoresKey R.postgres run := by
  rcases hruns.mem_own hown with hold | ⟨hreached, hfresh⟩
  · exact .inl ⟨run, .inl hold, .refl run⟩
  · cases hlock.changes hruns.executes with
    | nothing same => exact absurd (same ▸ hreached) hfresh
    | appends happends hstores _ =>
      have hrows := happends.rows
      rw [hrows] at hreached
      rcases List.mem_append.mp hreached with hold | hnew
      · exact absurd hold hfresh
      · rw [List.mem_singleton.mp hnew]
        exact .inr ⟨happends, hstores⟩
    | rewrites hrewrites =>
      rcases hrewrites.origin run hreached with ⟨hold, -⟩ | ⟨old, hold, -, hleaves⟩
      · exact absurd hold hfresh
      · exact .inl ⟨old, (overlaid_of_overlay hruns.sees).runs.mp hold |>.imp_right And.left,
          hleaves.same⟩

/-- Two runs under the key of one task exclude each other. -/
theorem clash_of_underKey {left right : TaskRunRow} {tasks : List TaskRow}
    (hunique : ∀ task ∈ tasks, ∀ task' ∈ tasks, task.id = task'.id → task = task')
    (hleft : OwnedRun tasks left) (hright : OwnedRun tasks right)
    (htask : left.taskId = right.taskId) (hkey : UnderKey key left) (hkey' : UnderKey key right) :
    left.clash right = true := by
  obtain ⟨task, hmem, hid, hnode⟩ := hleft
  obtain ⟨task', hmem', hid', hnode'⟩ := hright
  obtain rfl := hunique task hmem task' hmem' ((hid.trans htask).trans hid'.symm)
  rw [UnderKey] at hkey hkey'
  simp [TaskRunRow.clash, ← hnode, ← hnode', hkey, hkey']

namespace Keyed

/-- The fresh schema without transactions. -/
theorem empty : Keyed pg key ⟨.empty, [], []⟩ where
  orderly := .empty
  began := by simp
  single left right hleft := by
    rcases hleft with hleft | ⟨flight, hflight, -⟩
    · cases hleft
    · cases hflight
  made run hrun := by
    rcases hrun with hrun | ⟨flight, hflight, -⟩
    · cases hrun
    · cases hflight
  follows := by simp
  foreign := by simp
  accounted := by simp

/-- What other requests leave to one that is permitted to go on. -/
theorem fair (h : Keyed R.postgres key state) {connection : ℕ}
    (hflight : state.flights[connection]? = some flight)
    (hpermitted : Unmixed R.postgres key state (.advance connection))
    (hcarries : flight.call.operatorKey? = some key) :
    Fair R.postgres key state.committed flight where
  began := h.began flight (List.mem_of_getElem? hflight)
  single left hleft right hright := h.single left right (.inl hleft) (.inl hright)
  made run hrun := h.made run (.inl hrun)
  unmixed request json rest hrest run hrun hkey :=
    hpermitted flight hflight hcarries request json rest hrest run hkey (.inl hrun)

/-- A transaction begins. -/
theorem begin (h : Keyed R.postgres key state) {call : Call} {session : Session}
    (hruns : call.concernsRuns = true)
    (hpermitted : Unmixed R.postgres key state (.begin call session)) :
    Keyed R.postgres key { state with
      flights := state.flights ++ [{
        call := call
        session := session
        began := state.committed
        rest := call.transaction R }] } := by
  have hstores {run : TaskRunRow} (hrun : Concurrent.Stores { state with
      flights := state.flights ++ [{
        call := call
        session := session
        began := state.committed
        rest := call.transaction R }] } run) : state.Stores run := by
    rcases hrun with hstored | ⟨flight, hflight, hown⟩
    · exact .inl hstored
    · rcases List.mem_append.mp hflight with hold | hnew
      · exact .inr ⟨flight, hold, hown⟩
      · rw [List.mem_singleton.mp hnew] at hown
        cases hown
  refine ⟨h.orderly.begin hruns, fun flight hflight => ?_,
    fun left right hleft hright => h.single left right (hstores hleft) (hstores hright),
    fun run hrun => h.made run (hstores hrun), fun flight hflight => ?_, fun flight hflight => ?_,
    h.accounted⟩
  · rcases List.mem_append.mp hflight with hold | hnew
    · exact h.began flight hold
    · rw [List.mem_singleton.mp hnew]
      exact fun run hrun => ⟨run, hrun, .refl run⟩
  · rcases List.mem_append.mp hflight with hold | hnew
    · exact h.follows flight hold
    · rw [List.mem_singleton.mp hnew]
      exact ⟨.fresh, Call.transaction_keyed hruns, fun _ => rfl⟩
  · rcases List.mem_append.mp hflight with hold | hnew
    · exact h.foreign flight hold
    · rw [List.mem_singleton.mp hnew]
      exact hpermitted

section Ends

variable (h : Keyed R.postgres key state) {left right : List Flight} {connection : ℕ}
  (hflights : state.flights = left ++ flight :: right)
  (herase : state.flights.eraseIdx connection = left ++ right)

include h hflights herase

/-- A transaction ends: the stored runs are carried, no run is stored that it had not written,
and its answer is accounted for. -/
theorem ends {result : Except Stop Reply}
    (horderly : Orderly R.postgres (state.finish connection flight committed result))
    (hcarried : Carried state.committed committed)
    (hstored : ∀ run ∈ committed.taskRuns.rows, state.Stores run)
    (haccounted : Accounted R.postgres key committed ⟨flight.call, flight.began, result⟩) :
    Keyed R.postgres key (state.finish connection flight committed result) := by
  have hmem {other : Flight}
      (hother : other ∈ (state.finish connection flight committed result).flights) :
      other ∈ state.flights := by
    simp only [Concurrent.finish, herase] at hother
    exact Orderly.mem_of_other hflights hother
  have hstores {run : TaskRunRow}
      (hrun : (state.finish connection flight committed result).Stores run) :
      state.Stores run := by
    rcases hrun with hrun | ⟨other, hother, hown⟩
    · exact hstored run hrun
    · exact .inr ⟨other, hmem hother, hown⟩
  refine ⟨horderly, fun other hother => (h.began other (hmem hother)).trans hcarried,
    fun left right hleft hright => h.single left right (hstores hleft) (hstores hright),
    fun run hrun hkey => ?_, fun other hother => ?_,
    fun other hother => h.foreign other (hmem hother), fun answered hanswered => ?_⟩
  · obtain ⟨call, hasks⟩ := h.made run (hstores hrun) hkey
    exact ⟨call, hasks.carried hcarried (.refl run)⟩
  · obtain ⟨stage, hfollows, hknows⟩ := h.follows other (hmem hother)
    exact ⟨stage, hfollows, fun hcarries => (hknows hcarries).carried hcarried⟩
  · rcases List.mem_append.mp hanswered with hold | hnew
    · exact (h.accounted answered hold).carried hcarried
    · rw [List.mem_singleton.mp hnew]
      exact haccounted

/-- A transaction is rolled back. -/
theorem rollback {stop : Stop}
    (haccounted : Accounted R.postgres key state.committed
      ⟨flight.call, flight.began, .error stop⟩) :
    Keyed R.postgres key (state.finish connection flight state.committed (.error stop)) :=
  h.ends hflights herase (h.orderly.rollback hflights herase stop)
    (fun run hrun => ⟨run, hrun, .refl run⟩) (fun _ => .inl) haccounted

/-- A transaction commits. -/
theorem commit {reply : Reply} (hrest : flight.rest = .ret reply)
    (hover : flight.own.overlay state.committed = some committed) :
    Keyed R.postgres key (state.finish connection flight committed (.ok reply)) := by
  have hmem := Orderly.mem_flights hflights
  have htidy := h.orderly.tidy flight hmem
  have hcommit := overlaid_of_overlay hover
  have hcarried := carried_of_commit htidy hcommit
  refine h.ends hflights herase (h.orderly.commit hflights herase hrest hover) hcarried
    (fun run hrun => ?_) fun hcarries => ?_
  · rcases hcommit.runs.mp hrun with hown | ⟨hstored, -⟩
    · exact .inr ⟨flight, hmem, hown⟩
    · exact .inl hstored
  · obtain ⟨stage, hfollows, hknows⟩ := h.follows flight hmem
    rw [hrest] at hfollows
    obtain ⟨result, hreply, hstage⟩ := hfollows (by rw [hcarries]; simp)
    subst hstage
    obtain ⟨run, hown | hstored, hanswers⟩ := hknows hcarries
    · exact ⟨result, hreply, run, hcommit.runs.mpr (.inl hown),
        hanswers.carried hcarried (.refl run)⟩
    · obtain ⟨same, hsame, hfixed⟩ := hcarried run hstored
      exact ⟨result, hreply, same, hsame, hanswers.carried hcarried hfixed⟩

end Ends

section Goes

variable (h : Keyed R.postgres key state) {left right : List Flight} {connection : ℕ}
  (hflights : state.flights = left ++ flight :: right)
  (hset : state.flights.set connection next = left ++ next :: right)
  (hruns : Runs R state.committed (left ++ right) flight next committed statement rest answer
    view reached)
  (hlock : LockStage.After known statement answer known')

omit h in
/-- After a statement the transactions are the one that ran it and the others. -/
theorem eq_or_mem_of_set {other : Flight} (hother : other ∈ left ++ next :: right) :
    other = next ∨ other ∈ left ++ right := by
  simpa [or_left_comm] using hother

omit h in
include hflights hset hruns hlock in
/-- A run that is stored or about to be was so before, or a statement appends it. -/
theorem stores_origin (hrun : Concurrent.Stores { state with
      committed := committed
      flights := state.flights.set connection next } run) :
    (∃ old, state.Stores old ∧ SameRun old run) ∨
      Appends view reached run ∧ statement.StoresKey R.postgres run := by
  have hmem := Orderly.mem_flights hflights
  rcases hrun with hstored | ⟨holder, hholder, hheld⟩
  · exact .inl ⟨run, .inl (hruns.runs_eq ▸ hstored), .refl run⟩
  · rcases eq_or_mem_of_set (hset ▸ hholder) with rfl | hold
    · refine (hruns.origin hlock hheld).imp_left fun hold => ?_
      obtain ⟨old, hold, hsame⟩ := hold
      exact ⟨old, hold.elim (fun hown => .inr ⟨flight, hmem, hown⟩) .inl, hsame⟩
    · exact .inl ⟨run, .inr ⟨holder, Orderly.mem_of_other hflights hold, hheld⟩, .refl run⟩

include h hflights hset hruns hlock

/-- A run that a permitted statement appends under the key is the only one under it: another
one would be for the same task, and its index entry would have refused the insert. -/
theorem id_eq_of_appends {other : TaskRunRow}
    (hflight : state.flights[connection]? = some flight)
    (herase : state.flights.eraseIdx connection = left ++ right)
    (hpermitted : Unmixed R.postgres key state (.advance connection))
    (hholds : known.Holds R.postgres state.committed flight)
    (hknows : flight.call.operatorKey? = some key →
      stage.Knows R.postgres key state.committed flight)
    (hafter : KeyStage.After flight.call stage statement answer stage')
    (happends : Appends view reached run) (hstores : statement.StoresKey R.postgres run)
    (hkey : UnderKey key run)
    (hother : Concurrent.Stores { state with
      committed := committed
      flights := state.flights.set connection next } other)
    (hkey' : UnderKey key other) : other.id = run.id := by
  obtain ⟨hcarries, hown, hasks, request, json, after, hinserts⟩ :=
    hruns.asks_of_appends hholds h.orderly.codes hlock hknows hafter
      (h.foreign flight (Orderly.mem_flights hflights)) happends hstores hkey
  rw [hruns.view_eq hown] at happends
  have hclash (howned : OwnedRun state.committed.tasks.rows other)
      (hmixed : other ∈ state.committed.taskRuns.rows ∨
        ∃ flight ∈ state.flights.eraseIdx connection, other ∈ flight.own.runs) :
      other.clash run = true := by
    have hasks' := hpermitted flight hflight hcarries request json after hinserts other hkey' hmixed
    exact clash_of_underKey (fun task htask task' htask' => SerialTable.eq_of_key_eq htask htask')
      howned happends.owned (hasks'.taskId_eq hasks) hkey' hkey
  rcases hother with hstored | ⟨holder, hholder, hheld⟩
  · rw [hruns.runs_eq] at hstored
    have hfree := happends.free other hstored
    rw [hclash (h.orderly.sound.runTasks other hstored) (.inl hstored)] at hfree
    cases hfree
  · rcases eq_or_mem_of_set (hset ▸ hholder) with rfl | hold
    · rw [(hruns.own_of_empty hown).1, mem_changedRows, happends.rows] at hheld
      rcases List.mem_append.mp hheld.1 with hold | hnew
      · exact absurd hold hheld.2
      · rw [List.mem_singleton.mp hnew]
    · have hholder' := Orderly.mem_of_other hflights hold
      have hfree := hruns.unclashing hlock hold (h.orderly.unclashing_of_mem hflights hold)
        (h.orderly.entered holder hholder') (h.orderly.tidy holder hholder') run
        (hruns.mem_own_of_appends hown happends) other hheld
      rw [clash_comm, hclash ((h.orderly.tidy holder hholder').owned other hheld)
        (.inr ⟨holder, herase ▸ hold, hheld⟩)] at hfree
      cases hfree

end Goes

/-- A transaction runs a statement. -/
theorem goes (h : Keyed R.postgres key state) {left right : List Flight} {connection : ℕ}
    (hflight : state.flights[connection]? = some flight)
    (hflights : state.flights = left ++ flight :: right)
    (herase : state.flights.eraseIdx connection = left ++ right)
    (hset : state.flights.set connection next = left ++ next :: right)
    (hpermitted : Unmixed R.postgres key state (.advance connection))
    (hruns : Runs R state.committed (left ++ right) flight next committed statement rest answer
      view reached) :
    Keyed R.postgres key { state with
      committed := committed
      flights := state.flights.set connection next } := by
  have hmem := Orderly.mem_flights hflights
  obtain ⟨known, hfollows, hholds⟩ := h.orderly.follows flight hmem
  rw [hruns.issues] at hfollows
  obtain ⟨known', hlock, -⟩ := hfollows answer
  obtain ⟨stage, hfollows, hknows⟩ := h.follows flight hmem
  rw [hruns.issues] at hfollows
  obtain ⟨stage', hafter, hrest⟩ := hfollows answer
  have hcarried := hruns.carried
  have hfirst {run other : TaskRunRow} (happends : Appends view reached run)
      (hstores : statement.StoresKey R.postgres run) (hkey : UnderKey key run)
      (hother : Concurrent.Stores { state with
        committed := committed
        flights := state.flights.set connection next } other) (hkey' : UnderKey key other) :
      other.id = run.id :=
    h.id_eq_of_appends hflights hset hruns hlock hflight herase hpermitted hholds hknows hafter
      happends hstores hkey hother hkey'
  refine ⟨h.orderly.goes hflights hset hruns, fun other hother => ?_,
    fun left right hleft hright hkey hkey' => ?_, fun run hrun hkey => ?_, fun other hother => ?_,
    fun other hother => ?_, fun answered hanswered => (h.accounted answered hanswered).carried hcarried⟩
  · rcases eq_or_mem_of_set (hset ▸ hother) with rfl | hold
    · rw [hruns.call_eq.2]
      exact (h.began flight hmem).trans hcarried
    · exact (h.began other (Orderly.mem_of_other hflights hold)).trans hcarried
  · rcases stores_origin hflights hset hruns hlock hleft with
      ⟨old, hold, hsame⟩ | ⟨happends, hstores⟩
    · rcases stores_origin hflights hset hruns hlock hright with
        ⟨old', hold', hsame'⟩ | ⟨happends, hstores⟩
      · rw [hsame.id, hsame'.id]
        exact h.single old old' hold hold' (hsame.executionKey.symm.trans hkey)
          (hsame'.executionKey.symm.trans hkey')
      · exact hfirst happends hstores hkey' hleft hkey
    · exact (hfirst happends hstores hkey hright hkey').symm
  · rcases stores_origin hflights hset hruns hlock hrun with
      ⟨old, hold, hsame⟩ | ⟨happends, hstores⟩
    · obtain ⟨call, hasks⟩ := h.made old hold (hsame.executionKey.symm.trans hkey)
      exact ⟨call, hasks.carried hcarried hsame⟩
    · obtain ⟨-, -, hasks, -⟩ := hruns.asks_of_appends hholds h.orderly.codes hlock hknows hafter
        (h.foreign flight hmem) happends hstores hkey
      exact ⟨flight.call, hasks.carried hcarried (.refl run)⟩
  · rcases eq_or_mem_of_set (hset ▸ hother) with rfl | hold
    · have hcall := hruns.call_eq.1
      refine ⟨stage', ?_, fun hcarries => ?_⟩
      · rw [hcall, hruns.next]
        exact hrest
      · rw [hcall] at hcarries
        exact hruns.knows hholds h.orderly.codes hlock hcarries
          (h.fair hflight hpermitted hcarries) (hknows hcarries) hafter
    · obtain ⟨stage, hfollows, hknows⟩ := h.follows other (Orderly.mem_of_other hflights hold)
      exact ⟨stage, hfollows, fun hcarries => (hknows hcarries).carried hcarried⟩
  · rcases eq_or_mem_of_set (hset ▸ hother) with rfl | hold
    · rw [hruns.call_eq.1]
      exact h.foreign flight hmem
    · exact h.foreign other (Orderly.mem_of_other hflights hold)

/-- A permitted move keeps this. -/
theorem act (h : Keyed R.postgres key state) {move : Move}
    (hpermitted : Unmixed R.postgres key state move) (hacts : state.act R move = some after) :
    Keyed R.postgres key after := by
  cases move with
  | begin call session =>
    simp only [Concurrent.act] at hacts
    split at hacts
    · rename_i hruns
      cases hacts
      exact h.begin hruns hpermitted
    · cases hacts
  | lose connection =>
    simp only [Concurrent.act] at hacts
    split at hacts
    · cases hacts
    · rename_i flight hflight
      obtain ⟨left, right, hflights, herase, -⟩ := split_of_getElem hflight
      cases hacts
      exact h.rollback hflights herase fun _ => trivial
  | advance connection =>
    simp only [Concurrent.act] at hacts
    split at hacts
    · cases hacts
    · rename_i flight hflight
      obtain ⟨left, right, hflights, herase, hset⟩ := split_of_getElem hflight
      rw [herase] at hacts
      split at hacts
      · cases hacts
      · rename_i next committed hgoes
        cases hacts
        obtain ⟨γ, statement, rest, answer, view, reached, hruns⟩ := advance_goes hgoes
        exact h.goes hflight hflights herase (hset next) hpermitted hruns
      · rename_i committed result hends
        cases hacts
        rcases advance_ends hends with ⟨reply, hrest, hover, rfl⟩ | ⟨rfl, stop, rfl, hstop⟩
        · exact h.commit hflights herase hrest hover
        · obtain ⟨stage, hfollows, hknows⟩ := h.follows flight (Orderly.mem_flights hflights)
          rcases hstop with hrest | ⟨fault, rfl⟩
          · rw [hrest] at hfollows
            exact h.rollback hflights herase (accounted_of_stops hfollows hknows)
          · exact h.rollback hflights herase fun _ => trivial

/-- A permitted step keeps this. -/
theorem step (h : Keyed R.postgres key state)
    (hstep : state.Step R (Unmixed R.postgres key) (Between R) after) :
    Keyed R.postgres key after := by
  have horderly := h.orderly.step hstep
  cases hstep with
  | move permitted acts => exact h.act permitted acts
  | @alone committed idle changes =>
    have hcarried := changes.carried
    have hstores {run : TaskRunRow}
        (hrun : Concurrent.Stores { state with committed := committed } run) :
        ∃ old, state.Stores old ∧ SameRun old run := by
      rcases hrun with hstored | ⟨flight, hflight, -⟩
      · obtain ⟨old, hold, move⟩ | hfresh := changes.moves.2.origin hstored
        · exact ⟨old, .inl hold, move.same⟩
        · exact hfresh.elim
      · simp [idle] at hflight
    refine ⟨horderly, by simp [idle], fun left right hleft hright hkey hkey' => ?_,
      fun run hrun hkey => ?_, by simp [idle], by simp [idle],
      fun answered hanswered => (h.accounted answered hanswered).carried hcarried⟩
    · obtain ⟨old, hold, hsame⟩ := hstores hleft
      obtain ⟨old', hold', hsame'⟩ := hstores hright
      rw [hsame.id, hsame'.id]
      exact h.single old old' hold hold' (hsame.executionKey.symm.trans hkey)
        (hsame'.executionKey.symm.trans hkey')
    · obtain ⟨old, hold, hsame⟩ := hstores hrun
      obtain ⟨call, hasks⟩ := h.made old hold (hsame.executionKey.symm.trans hkey)
      exact ⟨call, hasks.carried hcarried hsame⟩

end Keyed

end LabBridge.Server
