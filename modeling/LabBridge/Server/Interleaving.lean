import LabBridge.Library.RowVersions
import LabBridge.Server.System

/-!
# Interleaved transactions

Every request runs in a transaction of its own at the level READ COMMITTED: each statement
sees the rows committed so far under the transaction's own versions. A row selected
`FOR UPDATE` or rewritten is locked until the transaction ends, a statement that needs a
locked row waits, and an insert waits for the transactions that have written an entry its
indexes would refuse. A key lock of a foreign key, which only makes more statements wait, is
left out. Versions become visible to others when their transaction commits.
-/

namespace LabBridge.Server

open ByteText LabBridge.Core Storage Interaction

/-- The versions of runs and tasks that a transaction has stored. -/
structure Patch where
  runs : List TaskRunRow := []
  tasks : List TaskRow := []

namespace Patch

/-- The committed tables under a transaction's own versions. -/
def overlay (own : Patch) (db : Database) : Option Database :=
  match db.taskRuns.overlay own.runs, db.tasks.overlay own.tasks with
  | some taskRuns, some tasks => some { db with taskRuns := taskRuns, tasks := tasks }
  | _, _ => none

/-- The versions once a statement has taken the tables from `view` to `reached`. -/
def record (own : Patch) (view reached : Database) : Patch where
  runs := supersede TaskRunRow.id own.runs
    (changedRows view.taskRuns.rows reached.taskRuns.rows)
  tasks := supersede TaskRow.id own.tasks (changedRows view.tasks.rows reached.tasks.rows)

end Patch

namespace Statement

/-- The task row that a statement locks. -/
def lockedTask (pg : Postgres) (view : Database) : {α : Type} → Statement α → List RowId
  | _, selectTaskForUpdate id | _, updateTaskEnabled id _ =>
    match pg.idParam id with
    | .ok (some id) => (view.tasks.rows.map TaskRow.id).filter (· == id)
    | _ => []
  | _, _ => []

/-- The run row that a statement selects for update. -/
def lockedRun (pg : Postgres) (view : Database) : {α : Type} → Statement α → List RowId
  | _, selectRunForUpdate id =>
    match pg.idParam id with
    | .ok (some id) => (view.taskRuns.rows.map TaskRunRow.id).filter (· == id)
    | _ => []
  | _, _ => []

/-- The index entries of the run that an insert would store. -/
def entry (pg : Postgres) (view : Database) : {α : Type} → Statement α → Option TaskRunRow
  | _, insertScheduledRun record =>
    match pg.idParam record.taskId, pg.textParam record.nodeCode,
        pg.varcharParam 32 record.triggerType, pg.varcharParam 128 record.executionKey with
    | .ok taskId, .ok nodeCode, .ok triggerType, .ok executionKey =>
      (view.ownTask taskId nodeCode).map fun task => {
        id := 0
        taskId := task.id
        nodeCode := task.nodeCode
        status := record.status
        triggerType := triggerType
        executionKey := some executionKey }
    | _, _, _, _ => none
  | _, insertManualRun request _ =>
    match pg.idParam request.taskId, pg.textParam request.nodeCode,
        pg.varcharParam 32 request.triggerType, pg.varcharParam 128 request.executionKey with
    | .ok taskId, .ok nodeCode, .ok triggerType, .ok executionKey =>
      (view.ownTask taskId nodeCode).map fun task => {
        id := 0
        taskId := task.id
        nodeCode := task.nodeCode
        status := .pending
        triggerType := triggerType
        executionKey := some executionKey }
    | _, _, _, _ => none
  | _, _ => none

end Statement

/-- The requests that only read and write tasks and runs. -/
def Call.concernsRuns : Call → Bool
  | .start _ | .trigger _ _ | .retry _ _ | .setEnabled _ _ => true
  | _ => false

/-- A transaction that has begun and not ended. -/
structure Flight where
  call : Call
  session : Session
  /-- The tables when it began. -/
  began : Database
  rest : Tx Reply
  own : Patch := {}
  heldTasks : List RowId := []
  heldRuns : List RowId := []

/-- A request that was answered. -/
structure Answered where
  call : Call
  began : Database
  result : Except Stop Reply

/-- The committed tables, the transactions in flight and the answers given so far. -/
structure Concurrent where
  committed : Database
  flights : List Flight := []
  answered : List Answered := []

/-- The runs that a statement rewrites. -/
def rewrittenRuns (view reached : Database) : List RowId :=
  (view.taskRuns.rows.filter fun run => decide (run ∉ reached.taskRuns.rows)).map TaskRunRow.id

/-- The versions, committed or not, of the runs that a transaction has stored. -/
def Flight.entries (flight : Flight) (db : Database) : List TaskRunRow :=
  flight.own.runs ++ db.taskRuns.rows.filter fun run =>
    flight.own.runs.any fun version => version.id == run.id

/-- Whether a statement has to wait for a transaction. -/
def Flight.blocks (pg : Postgres) (db view reached : Database) {α : Type}
    (statement : Statement α) (other : Flight) : Bool :=
  (statement.lockedTask pg view).any (other.heldTasks.contains ·) ||
    (statement.lockedRun pg view ++ rewrittenRuns view reached).any (other.heldRuns.contains ·) ||
    (statement.entry pg view).any fun entry => (other.entries db).any (·.clash entry)

/-- What becomes of a transaction. -/
inductive Outcome
  /-- It has run a statement. -/
  | goes (flight : Flight) (committed : Database)
  /-- It has ended with an answer. -/
  | ends (committed : Database) (result : Except Stop Reply)

/-- The next statement, the commit or the rollback of a transaction; nothing while it waits. -/
def Flight.advance (R : Runtime) (db : Database) (others : List Flight) (flight : Flight) :
    Option Outcome :=
  match flight.rest, flight.own.overlay db with
  | .stop stop, _ => some (.ends db (.error stop))
  | .ret reply, some view => some (.ends view (.ok reply))
  | .call statement next, some view =>
    match statement.exec R.postgres flight.session view with
    | .error fault => some (.ends db (.error (.failed fault)))
    | .ok (answer, reached) =>
      if others.any (·.blocks R.postgres db view reached statement) then none
      else
        let own := flight.own.record view reached
        some (.goes
          { flight with
            rest := next answer
            own := own
            heldTasks := flight.heldTasks ++ statement.lockedTask R.postgres view
            heldRuns := flight.heldRuns ++ statement.lockedRun R.postgres view ++
              rewrittenRuns view reached ++ own.runs.map TaskRunRow.id }
          { db with taskRuns := db.taskRuns.advance reached.taskRuns.next })
  | _, none => none

universe u

/-- An entry of a list splits it. -/
theorem split_of_getElem {Entry : Type u} {entries : List Entry} {index : ℕ} {entry : Entry}
    (h : entries[index]? = some entry) :
    ∃ left right, entries = left ++ entry :: right ∧ entries.eraseIdx index = left ++ right ∧
      ∀ next, entries.set index next = left ++ next :: right := by
  induction index generalizing entries with
  | zero =>
    cases entries with
    | nil => cases h
    | cons first rest =>
      cases h
      exact ⟨[], rest, rfl, rfl, fun _ => rfl⟩
  | succ index ih =>
    cases entries with
    | nil => cases h
    | cons first rest =>
      obtain ⟨left, right, hrest, herase, hset⟩ := ih h
      refine ⟨first :: left, right, by rw [hrest]; rfl, by simp [herase], fun next => by simp [hset]⟩

/-- What can happen next. -/
inductive Move
  /-- A request on runs arrives and its transaction begins. -/
  | begin (call : Call) (session : Session)
  /-- A transaction proceeds. -/
  | advance (connection : ℕ)
  /-- A connection is lost, and its transaction rolled back. -/
  | lose (connection : ℕ)

namespace Concurrent

/-- End a transaction with an answer. -/
def finish (state : Concurrent) (connection : ℕ) (flight : Flight) (committed : Database)
    (result : Except Stop Reply) : Concurrent where
  committed := committed
  flights := state.flights.eraseIdx connection
  answered := state.answered ++ [⟨flight.call, flight.began, result⟩]

/-- The state after a move, if the move is possible. -/
def act (R : Runtime) (state : Concurrent) : Move → Option Concurrent
  | .begin call session =>
    if call.concernsRuns then
      some { state with
        flights := state.flights ++ [{
          call := call
          session := session
          began := state.committed
          rest := call.transaction R }] }
    else none
  | .advance connection =>
    match state.flights[connection]? with
    | none => none
    | some flight =>
      match flight.advance R state.committed (state.flights.eraseIdx connection) with
      | none => none
      | some (.goes flight committed) => some { state with
          committed := committed
          flights := state.flights.set connection flight }
      | some (.ends committed result) => some (state.finish connection flight committed result)
  | .lose connection =>
    match state.flights[connection]? with
    | none => none
    | some flight =>
      some (state.finish connection flight state.committed (.error (.failed .outage)))

/-- One step: a permitted move, or, while no transaction is in flight, something `alone`. -/
inductive Step (R : Runtime) (permits : Concurrent → Move → Prop)
    (alone : Database → Database → Prop) (state : Concurrent) : Concurrent → Prop
  | move {move : Move} {reached : Concurrent} (permitted : permits state move)
      (acts : state.act R move = some reached) : Step R permits alone state reached
  | alone {committed : Database} (idle : state.flights = [])
      (changes : alone state.committed committed) :
      Step R permits alone state { state with committed := committed }

/-- A run of steps. -/
def Steps (R : Runtime) (permits : Concurrent → Move → Prop)
    (alone : Database → Database → Prop) : Concurrent → Concurrent → Prop :=
  Relation.ReflTransGen (Step R permits alone)

/-- Play some moves, skipping those that are not possible. -/
def play (R : Runtime) (state : Concurrent) (moves : List Move) : Concurrent :=
  moves.foldl (fun state move => (state.act R move).getD state) state

/-- What is played is a run of steps when every move is permitted where it is made. -/
theorem steps_play {R : Runtime} {permits : Concurrent → Move → Prop}
    {alone : Database → Database → Prop} (moves : List Move) (state : Concurrent)
    (permitted : ∀ done move rest, moves = done ++ move :: rest →
      permits (play R state done) move) :
    Steps R permits alone state (play R state moves) := by
  induction moves generalizing state with
  | nil => exact .refl
  | cons move rest ih =>
    have hrest (reached : Concurrent) (hplay : ∀ done, play R state (move :: done) =
        play R reached done) : Steps R permits alone reached (play R reached rest) := by
      refine ih reached fun done move' rest' hmoves => ?_
      rw [← hplay]
      exact permitted (move :: done) move' rest' (by rw [hmoves]; rfl)
    cases hacts : state.act R move with
    | none =>
      have hplay (done : List Move) : play R state (move :: done) = play R state done := by
        simp [play, hacts]
      rw [hplay]
      exact hrest state hplay
    | some reached =>
      have hplay (done : List Move) : play R state (move :: done) = play R reached done := by
        simp [play, hacts]
      rw [hplay]
      exact (hrest reached hplay).head (.move (permitted [] move rest rfl) hacts)

end Concurrent

end LabBridge.Server
