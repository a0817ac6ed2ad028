import LabBridge.Server.Between
import LabBridge.Server.IndexEntries

/-!
# What holds between interleaved transactions

The committed tables are sound, no run waits for a disabled task, transactions have locked
different rows, and each knows what its stage says. Every move and everything that comes
between the transactions keeps this.
-/

namespace LabBridge.Server

open ByteText LabBridge.Core Storage Interaction

variable {R : Runtime} {db db' committed : Database} {state reached : Concurrent}
  {flight : Flight}

/-- What holds between interleaved transactions. -/
structure Orderly (pg : Postgres) (state : Concurrent) : Prop where
  sound : Sound pg state.committed
  quiet : Quiet state.committed
  apart : state.flights.Pairwise Apart
  unclashing : state.flights.Pairwise Unclashing
  tidy : ∀ flight ∈ state.flights, Tidy state.committed flight
  entered : ∀ flight ∈ state.flights, Entered state.committed flight
  follows : ∀ flight ∈ state.flights, ∃ stage : LockStage,
    Program.Follows lockProtocol (TellsRunning flight.call) flight.rest stage ∧
      stage.Holds pg state.committed flight
  told : ∀ answered ∈ state.answered, Told pg state.committed answered

section Commit

variable (htidy : Tidy db flight) (hcommit : Overlaid flight.own db committed)

include htidy hcommit

/-- A commit keeps the tables sound. -/
theorem Sound.commit (hsound : Sound R.postgres db) : Sound R.postgres committed where
  codes := hcommit.nodes ▸ hsound.codes
  taskNodes task htask := by
    rw [hcommit.nodes]
    rcases hcommit.tasks.mp htask with hown | ⟨hstored, -⟩
    · obtain ⟨old, hold, same⟩ := htidy.tasks task hown
      obtain ⟨node, hnode, hcode⟩ := hsound.taskNodes old hold
      exact ⟨node, hnode, hcode.trans same.nodeCode.symm⟩
    · exact hsound.taskNodes task hstored
  runTasks run hrun := by
    rcases hcommit.runs.mp hrun with hown | ⟨hstored, -⟩
    · exact (htidy.owned run hown).commit htidy hcommit
    · exact OwnedRun.commit htidy hcommit (hsound.runTasks run hstored)
  receipts receipt hreceipt := by
    rw [hcommit.receipts] at hreceipt
    obtain ⟨hcomplete, run, hrun, hid, hnode⟩ := hsound.receipts receipt hreceipt
    obtain ⟨same, hsame, hfixed⟩ := exists_sameRun htidy hcommit hrun
    exact ⟨hcomplete, same, hsame, hfixed.id.trans hid, hfixed.nodeCode.trans hnode⟩

/-- A commit keeps the disabled tasks quiet. -/
theorem Quiet.commit (hquiet : Quiet db) : Quiet committed := by
  intro task htask hdisabled run hrun
  by_contra hwaits
  rw [Bool.not_eq_false] at hwaits
  have hparts := hwaits
  simp only [Database.isPendingManual, Bool.and_eq_true, beq_iff_eq] at hparts
  obtain ⟨⟨hid, hpending⟩, -⟩ := hparts
  rcases hcommit.tasks.mp htask with hswitched | ⟨hstored, huntouched⟩
  · obtain ⟨hgone, hgiven⟩ := htidy.disabled task hswitched hdisabled
    rcases hcommit.runs.mp hrun with hown | ⟨hold, hkept⟩
    · exact hgone run hown hpending
    · obtain ⟨given, hmem, hsame⟩ := hgiven run hold hwaits
      exact hkept given hmem hsame
  · rcases hcommit.runs.mp hrun with hown | ⟨hold, -⟩
    · have henabled := (htidy.waiting run hown hpending).2 task hstored hid.symm
      rw [hdisabled] at henabled
      cases henabled
    · rw [hquiet task hstored hdisabled run hold] at hwaits
      cases hwaits

/-- A commit leaves what was told. -/
theorem Told.commit {answered : Answered} (htold : Told R.postgres db answered) :
    Told R.postgres committed answered := by
  intro request result hcall hmanual hresult hrunning
  obtain ⟨run, hrun, hid, hmoved⟩ := htold request result hcall hmanual hresult hrunning
  exact ⟨run, mem_of_not_pending htidy hcommit hrun hmoved, hid, hmoved⟩

/-- A transaction that calls its run running commits while it is. -/
theorem running_of_passed {stage : LockStage} {request : StartTaskRunRequest}
    {result : TaskRunCreateResult} (hends : TellsRunning flight.call stage (.start result))
    (hholds : stage.Holds R.postgres db flight) (hcall : flight.call = .start request)
    (hmanual : TaskRunService.isManualStart request = true)
    (hrunning : result.runStatus = text "running") :
    ∃ run ∈ committed.taskRuns.rows,
      R.postgres.idParam result.id = .ok (some run.id) ∧ run.status = .running := by
  have hstage := hends request result hcall hmanual rfl hrunning
  subst hstage
  obtain ⟨run, hid, hstarted, hown | hstored⟩ := hholds
  · exact ⟨run, hcommit.runs.mpr (.inl hown), hid, hstarted⟩
  · exact ⟨run, mem_of_not_pending htidy hcommit hstored (by simp [hstarted]), hid, hstarted⟩

/-- What it tells is so. -/
theorem told_of_passed {reply : Reply} {stage : LockStage}
    (hends : TellsRunning flight.call stage reply) (hholds : stage.Holds R.postgres db flight) :
    Told R.postgres committed ⟨flight.call, flight.began, .ok reply⟩ := by
  intro request result hcall hmanual hresult hrunning
  obtain rfl : reply = .start result := by simpa using hresult
  obtain ⟨run, hrun, hid, hstarted⟩ :=
    running_of_passed htidy hcommit hends hholds hcall hmanual hrunning
  exact ⟨run, hrun, hid, by simp [hstarted]⟩

end Commit

/-- A rolled-back transaction has told nothing. -/
theorem told_of_error {pg : Postgres} {call : Call} {began : Database} {stop : Stop} :
    Told pg db ⟨call, began, .error stop⟩ := by
  intro request result _ _ hresult
  cases hresult

namespace Orderly

/-- The fresh schema without transactions is orderly. -/
theorem empty {pg : Postgres} : Orderly pg ⟨.empty, [], []⟩ where
  sound := sound_empty
  quiet := by simp [Quiet, Database.empty]
  apart := .nil
  unclashing := .nil
  tidy := by simp
  entered := by simp
  follows := by simp
  told := by simp

/-- A transaction begins. -/
theorem begin (h : Orderly R.postgres state) {call : Call} {session : Session}
    (hruns : call.concernsRuns = true) :
    Orderly R.postgres { state with
      flights := state.flights ++ [{
        call := call
        session := session
        began := state.committed
        rest := call.transaction R }] } where
  sound := h.sound
  quiet := h.quiet
  apart := by
    refine List.pairwise_append.mpr ⟨h.apart, List.pairwise_singleton _ _, fun other _ next hnext => ?_⟩
    rw [List.mem_singleton.mp hnext]
    constructor <;> simp
  unclashing := by
    refine List.pairwise_append.mpr
      ⟨h.unclashing, List.pairwise_singleton _ _, fun other _ next hnext => ?_⟩
    rw [List.mem_singleton.mp hnext]
    simp [Unclashing]
  tidy flight hflight := by
    rcases List.mem_append.mp hflight with hold | hnew
    · exact h.tidy flight hold
    · rw [List.mem_singleton.mp hnew]
      constructor <;> simp
  entered flight hflight := by
    rcases List.mem_append.mp hflight with hold | hnew
    · exact h.entered flight hold
    · rw [List.mem_singleton.mp hnew]
      constructor <;> simp
  follows flight hflight := by
    rcases List.mem_append.mp hflight with hold | hnew
    · exact h.follows flight hold
    · rw [List.mem_singleton.mp hnew]
      exact ⟨.reading, Call.transaction_follows hruns, rfl⟩
  told := h.told

/-- The node of a task arrives as it is stored. -/
theorem codes (h : Orderly R.postgres state) : ∀ task ∈ state.committed.tasks.rows,
    R.postgres.textParam task.nodeCode = .ok task.nodeCode := by
  intro task htask
  obtain ⟨node, hnode, hcode⟩ := h.sound.taskNodes task htask
  rw [Postgres.textParam, ← hcode, h.sound.codes node hnode]
  rfl

section Ends

variable (h : Orderly R.postgres state) {left right : List Flight} {connection : ℕ}
  (hflights : state.flights = left ++ flight :: right)
  (herase : state.flights.eraseIdx connection = left ++ right)

include h hflights

/-- The transaction of a connection has locked no row of another. -/
theorem apart_of_mem {other : Flight} (hother : other ∈ left ++ right) : Apart flight other := by
  have hpairs := h.apart
  rw [hflights, List.pairwise_middle Apart.symm] at hpairs
  exact (List.pairwise_cons.mp hpairs).1 other hother

/-- The other transactions have locked different rows. -/
theorem apart_others : (left ++ right).Pairwise Apart := by
  have hpairs := h.apart
  rw [hflights, List.pairwise_middle Apart.symm] at hpairs
  exact (List.pairwise_cons.mp hpairs).2

/-- The versions of the transaction of a connection exclude those of no other. -/
theorem unclashing_of_mem {other : Flight} (hother : other ∈ left ++ right) :
    Unclashing flight other := by
  have hpairs := h.unclashing
  rw [hflights, List.pairwise_middle Unclashing.symm] at hpairs
  exact (List.pairwise_cons.mp hpairs).1 other hother

/-- The versions of the other transactions do not exclude each other. -/
theorem unclashing_others : (left ++ right).Pairwise Unclashing := by
  have hpairs := h.unclashing
  rw [hflights, List.pairwise_middle Unclashing.symm] at hpairs
  exact (List.pairwise_cons.mp hpairs).2

omit h in
/-- The transaction of a connection is in flight. -/
theorem mem_flights : flight ∈ state.flights := by
  rw [hflights]
  exact List.mem_append_right _ List.mem_cons_self

omit h in
/-- The other transactions are in flight. -/
theorem mem_of_other {other : Flight} (hother : other ∈ left ++ right) :
    other ∈ state.flights := by
  rw [hflights]
  exact List.mem_append.mpr ((List.mem_append.mp hother).imp_right (List.mem_cons_of_mem _))

include herase

/-- A transaction is rolled back. -/
theorem rollback (stop : Stop) :
    Orderly R.postgres (state.finish connection flight state.committed (.error stop)) where
  sound := h.sound
  quiet := h.quiet
  apart := by
    simp only [Concurrent.finish, herase]
    exact h.apart_others hflights
  unclashing := by
    simp only [Concurrent.finish, herase]
    exact h.unclashing_others hflights
  tidy other hother := by
    simp only [Concurrent.finish, herase] at hother
    exact h.tidy other (mem_of_other hflights hother)
  entered other hother := by
    simp only [Concurrent.finish, herase] at hother
    exact h.entered other (mem_of_other hflights hother)
  follows other hother := by
    simp only [Concurrent.finish, herase] at hother
    exact h.follows other (mem_of_other hflights hother)
  told answered hanswered := by
    rcases List.mem_append.mp hanswered with hold | hnew
    · exact h.told answered hold
    · rw [List.mem_singleton.mp hnew]
      exact told_of_error

/-- A transaction commits. -/
theorem commit {reply : Reply} (hrest : flight.rest = .ret reply)
    (hover : flight.own.overlay state.committed = some committed) :
    Orderly R.postgres (state.finish connection flight committed (.ok reply)) where
  sound := h.sound.commit (h.tidy flight (mem_flights hflights)) (overlaid_of_overlay hover)
  quiet := h.quiet.commit (h.tidy flight (mem_flights hflights)) (overlaid_of_overlay hover)
  apart := by
    simp only [Concurrent.finish, herase]
    exact h.apart_others hflights
  unclashing := by
    simp only [Concurrent.finish, herase]
    exact h.unclashing_others hflights
  tidy other hother := by
    simp only [Concurrent.finish, herase] at hother
    exact (h.tidy other (mem_of_other hflights hother)).commit (h.apart_of_mem hflights hother)
      (h.tidy flight (mem_flights hflights)) (overlaid_of_overlay hover)
  entered other hother := by
    simp only [Concurrent.finish, herase] at hother
    exact (h.entered other (mem_of_other hflights hother)).commit
      (h.unclashing_of_mem hflights hother) (overlaid_of_overlay hover)
  follows other hother := by
    simp only [Concurrent.finish, herase] at hother
    obtain ⟨stage, hfollows, hholds⟩ := h.follows other (mem_of_other hflights hother)
    exact ⟨stage, hfollows, hholds.commit (h.apart_of_mem hflights hother)
      (h.tidy flight (mem_flights hflights)) (overlaid_of_overlay hover)⟩
  told answered hanswered := by
    have htidy := h.tidy flight (mem_flights hflights)
    rcases List.mem_append.mp hanswered with hold | hnew
    · exact (h.told answered hold).commit htidy (overlaid_of_overlay hover)
    · obtain ⟨stage, hfollows, hholds⟩ := h.follows flight (mem_flights hflights)
      rw [hrest] at hfollows
      rw [List.mem_singleton.mp hnew]
      exact told_of_passed htidy (overlaid_of_overlay hover) hfollows hholds

omit herase in
/-- A transaction runs a statement. -/
theorem goes {next : Flight} {γ : Type} {statement : Statement γ} {rest : γ → Tx Reply}
    {answer : γ} {view after : Database}
    (hset : state.flights.set connection next = left ++ next :: right)
    (hruns : Runs R state.committed (left ++ right) flight next committed statement rest answer
      view after) :
    Orderly R.postgres { state with
      committed := committed
      flights := state.flights.set connection next } := by
  have htidy := h.tidy flight (mem_flights hflights)
  obtain ⟨stage, hfollows, hholds⟩ := h.follows flight (mem_flights hflights)
  rw [hruns.issues] at hfollows
  obtain ⟨stage', hafter, hrest⟩ := hfollows answer
  obtain ⟨htidy', hholds'⟩ := hruns.keeps htidy hholds h.sound.runTasks h.codes hafter
  have hmem {other : Flight} (hother : other ∈ left ++ next :: right) :
      other = next ∨ other ∈ left ++ right := by
    simpa [or_left_comm] using hother
  have hsame : committed.receipts = state.committed.receipts := by rw [hruns.committed]
  refine ⟨⟨?_, ?_, ?_, ?_⟩, ?_, ?_, ?_, fun other hother => ?_, fun other hother => ?_,
    fun other hother => ?_, ?_⟩
  · rw [hruns.nodes_eq]
    exact h.sound.codes
  · rw [hruns.nodes_eq, hruns.tasks_eq]
    exact h.sound.taskNodes
  · rw [hruns.runs_eq, hruns.tasks_eq]
    exact h.sound.runTasks
  · rw [hruns.runs_eq, hsame]
    exact h.sound.receipts
  · rw [Quiet, hruns.runs_eq, hruns.tasks_eq]
    exact h.quiet
  · simp only [hset, List.pairwise_middle Apart.symm, List.pairwise_cons]
    refine ⟨fun other hother => ?_, h.apart_others hflights⟩
    exact hruns.apart htidy hafter hother (h.apart_of_mem hflights hother)
      (h.tidy other (mem_of_other hflights hother))
  · simp only [hset, List.pairwise_middle Unclashing.symm, List.pairwise_cons]
    refine ⟨fun other hother => ?_, h.unclashing_others hflights⟩
    exact hruns.unclashing hafter hother (h.unclashing_of_mem hflights hother)
      (h.entered other (mem_of_other hflights hother))
      (h.tidy other (mem_of_other hflights hother))
  · rcases hmem (hset ▸ hother) with rfl | hold
    · exact htidy'
    · exact hruns.tidy_other (h.tidy other (mem_of_other hflights hold))
  · rcases hmem (hset ▸ hother) with rfl | hold
    · exact hruns.entered hafter (h.entered flight (mem_flights hflights))
    · have hentered := h.entered other (mem_of_other hflights hold)
      exact ⟨hentered.runs, hentered.tasks, hruns.runs_eq ▸ hentered.free⟩
  · rcases hmem (hset ▸ hother) with rfl | hold
    · rw [hruns.next] at hholds' ⊢
      exact ⟨stage', hrest, hholds'⟩
    · obtain ⟨known, hfollows, hknown⟩ := h.follows other (mem_of_other hflights hold)
      exact ⟨known, hfollows, hruns.holds_committed hknown⟩
  · intro answered hanswered request result hcall hmanual hresult hrunning
    rw [hruns.runs_eq]
    exact h.told answered hanswered request result hcall hmanual hresult hrunning

end Ends

/-- A move keeps the state orderly. -/
theorem act (h : Orderly R.postgres state) {move : Move}
    (hacts : state.act R move = some reached) : Orderly R.postgres reached := by
  cases move with
  | begin call session =>
    simp only [Concurrent.act] at hacts
    split at hacts
    · rename_i hruns
      cases hacts
      exact h.begin hruns
    · cases hacts
  | lose connection =>
    simp only [Concurrent.act] at hacts
    split at hacts
    · cases hacts
    · rename_i flight hflight
      obtain ⟨left, right, hflights, herase, -⟩ := split_of_getElem hflight
      cases hacts
      exact h.rollback hflights herase _
  | advance connection =>
    simp only [Concurrent.act] at hacts
    split at hacts
    · cases hacts
    · rename_i flight hflight
      obtain ⟨left, right, hflights, herase, hset⟩ := split_of_getElem hflight
      rw [herase] at hacts
      split at hacts
      · cases hacts
      · rename_i next committed hgoes
        cases hacts
        obtain ⟨γ, statement, rest, answer, view, after, hruns⟩ := advance_goes hgoes
        exact h.goes hflights (hset next) hruns
      · rename_i committed result hends
        cases hacts
        rcases advance_ends hends with ⟨reply, hrest, hover, rfl⟩ | ⟨rfl, stop, rfl, -⟩
        · exact h.commit hflights herase hrest hover
        · exact h.rollback hflights herase stop

/-- A move that answers a manual start with a running run is made while it runs. -/
theorem running_of_act (h : Orderly R.postgres state) {move : Move} {answered : Answered}
    (hacts : state.act R move = some reached)
    (hnew : reached.answered = state.answered ++ [answered]) {request : StartTaskRunRequest}
    {result : TaskRunCreateResult} (hcall : answered.call = .start request)
    (hmanual : TaskRunService.isManualStart request = true)
    (hresult : answered.result = .ok (.start result))
    (hrunning : result.runStatus = text "running") :
    ∃ run ∈ reached.committed.taskRuns.rows,
      R.postgres.idParam result.id = .ok (some run.id) ∧ run.status = .running := by
  have hsilent : ¬reached.answered = state.answered := fun hsame => by simp [hsame] at hnew
  cases move with
  | begin call session =>
    simp only [Concurrent.act] at hacts
    split at hacts
    · cases hacts
      exact absurd rfl hsilent
    · cases hacts
  | lose connection =>
    simp only [Concurrent.act] at hacts
    split at hacts
    · cases hacts
    · cases hacts
      obtain rfl : _ = answered := by simpa using List.append_cancel_left hnew
      cases hresult
  | advance connection =>
    simp only [Concurrent.act] at hacts
    split at hacts
    · cases hacts
    · rename_i flight hflight
      split at hacts
      · cases hacts
      · cases hacts
        exact absurd rfl hsilent
      · rename_i committed ended hends
        cases hacts
        obtain rfl : _ = answered := by simpa using List.append_cancel_left hnew
        obtain ⟨left, right, hflights, -, -⟩ := split_of_getElem hflight
        have hmem := mem_flights hflights
        obtain ⟨stage, hfollows, hholds⟩ := h.follows flight hmem
        rcases advance_ends hends with ⟨reply, hrest, hover, rfl⟩ | ⟨-, stop, rfl, -⟩
        · cases hresult
          rw [hrest] at hfollows
          exact running_of_passed (h.tidy flight hmem) (overlaid_of_overlay hover) hfollows hholds
            hcall hmanual hrunning
        · cases hresult

/-- A run that waits no more is left as it is by every move. -/
theorem mem_of_act (h : Orderly R.postgres state) {run : TaskRunRow}
    (hrun : run ∈ state.committed.taskRuns.rows) (hmoved : run.status ≠ .pending) {move : Move}
    (hacts : state.act R move = some reached) : run ∈ reached.committed.taskRuns.rows := by
  cases move with
  | begin call session =>
    simp only [Concurrent.act] at hacts
    split at hacts
    · cases hacts
      exact hrun
    · cases hacts
  | lose connection =>
    simp only [Concurrent.act] at hacts
    split at hacts
    · cases hacts
    · cases hacts
      exact hrun
  | advance connection =>
    simp only [Concurrent.act] at hacts
    split at hacts
    · cases hacts
    · rename_i flight hflight
      split at hacts
      · cases hacts
      · rename_i next committed hgoes
        cases hacts
        obtain ⟨γ, statement, rest, answer, view, after, hruns⟩ := advance_goes hgoes
        exact hruns.runs_eq ▸ hrun
      · rename_i committed result hends
        cases hacts
        obtain ⟨left, right, hflights, -, -⟩ := split_of_getElem hflight
        rcases advance_ends hends with ⟨reply, -, hover, -⟩ | ⟨rfl, -⟩
        · exact mem_of_not_pending (h.tidy flight (mem_flights hflights)) (overlaid_of_overlay hover)
            hrun hmoved
        · exact hrun

/-- A step keeps the state orderly. -/
theorem step {permits : Concurrent → Move → Prop} (h : Orderly R.postgres state)
    (hstep : state.Step R permits (Between R) reached) : Orderly R.postgres reached := by
  cases hstep with
  | move _ acts => exact h.act acts
  | alone idle changes =>
    constructor
    · exact (changes.progress fun call _ => call.reports_any).sound h.sound
    · exact changes.quiet h.sound h.quiet
    · exact h.apart
    · exact h.unclashing
    · simp [idle]
    · simp [idle]
    · simp [idle]
    · exact fun answered hanswered => changes.told (h.told answered hanswered)

/-- A run of steps keeps the state orderly. -/
theorem steps {permits : Concurrent → Move → Prop} (h : Orderly R.postgres state)
    (hsteps : state.Steps R permits (Between R) reached) : Orderly R.postgres reached := by
  induction hsteps with
  | refl => exact h
  | tail _ hstep ih => exact ih.step hstep

/-- A transaction that does not go on waits for another one. -/
theorem waits (h : Orderly R.postgres state) {connection : ℕ}
    (hflight : state.flights[connection]? = some flight)
    (hstays : state.act R (.advance connection) = none) :
    ∃ (γ : Type) (statement : Statement γ) (rest : γ → Tx Reply) (view after : Database),
      flight.rest = .call statement rest ∧
        ∃ other ∈ state.flights.eraseIdx connection,
          other.blocks R.postgres state.committed view after statement = true := by
  obtain ⟨left, right, hflights, -, -⟩ := split_of_getElem hflight
  have hmem := mem_flights hflights
  obtain ⟨view, hview⟩ := (h.entered flight hmem).overlay_isSome (h.tidy flight hmem)
  have hnone : flight.advance R state.committed (state.flights.eraseIdx connection) = none := by
    simp only [Concurrent.act, hflight] at hstays
    split at hstays <;> first
      | assumption
      | cases hstays
  unfold Flight.advance at hnone
  rw [hview] at hnone
  split at hnone
  · cases hnone
  · cases hnone
  · rename_i _ statement rest seen hrest hseen
    split at hnone
    · cases hnone
    · rename_i answer after hexec
      split at hnone
      · rename_i hblocked
        exact ⟨_, statement, rest, seen, after, hrest, List.any_eq_true.mp hblocked⟩
      · cases hnone
  · rename_i himpossible _
    cases himpossible

end Orderly

end LabBridge.Server
