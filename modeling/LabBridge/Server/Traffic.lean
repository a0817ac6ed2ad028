import LabBridge.Server.Interleaving

/-!
# All requests in flight

The transactions of every request of agents and operators, interleaved statement by statement
at the level READ COMMITTED, and configuration that comes at any time. Besides runs and tasks
a transaction stores versions of evidence, alerts and receipts. Disposing of an alert locks
its row, finishing a run locks the run, and a claim waits for the transactions whose receipts
its indexes would refuse.
-/

namespace LabBridge.Server

open ByteText LabBridge.Core Storage Interaction

/-- The versions of evidence, alerts and receipts that a transaction has stored. -/
structure EvidencePatch where
  rawFiles : List RawFileRow := []
  parsedRecords : List ParsedRecordRow := []
  qcResults : List QcResultRow := []
  alerts : List AlertRow := []
  receipts : List ReceiptRow := []
  deriving DecidableEq

namespace EvidencePatch

/-- The tables under a transaction's own versions of evidence. -/
def overlay (own : EvidencePatch) (db : Database) : Option Database :=
  match db.rawFiles.overlay own.rawFiles, db.parsedRecords.overlay own.parsedRecords,
      db.qcResults.overlay own.qcResults, db.alerts.overlay own.alerts,
      db.receipts.overlay own.receipts with
  | some rawFiles, some parsedRecords, some qcResults, some alerts, some receipts =>
    some { db with
      rawFiles := rawFiles
      parsedRecords := parsedRecords
      qcResults := qcResults
      alerts := alerts
      receipts := receipts }
  | _, _, _, _, _ => none

/-- The versions once a statement has taken the tables from `view` to `reached`. -/
def record (own : EvidencePatch) (view reached : Database) : EvidencePatch where
  rawFiles := supersede RawFileRow.id own.rawFiles
    (changedRows view.rawFiles.rows reached.rawFiles.rows)
  parsedRecords := supersede ParsedRecordRow.id own.parsedRecords
    (changedRows view.parsedRecords.rows reached.parsedRecords.rows)
  qcResults := supersede QcResultRow.id own.qcResults
    (changedRows view.qcResults.rows reached.qcResults.rows)
  alerts := supersede AlertRow.id own.alerts (changedRows view.alerts.rows reached.alerts.rows)
  receipts := supersede ReceiptRow.id own.receipts
    (changedRows view.receipts.rows reached.receipts.rows)

end EvidencePatch

namespace Statement

/-- The run row that the end of a run rewrites. -/
def finishedRun (pg : Postgres) (view : Database) : {α : Type} → Statement α → List RowId
  | _, updateRunFinish record =>
    match pg.idParam record.id with
    | .ok (some id) => (view.taskRuns.rows.map TaskRunRow.id).filter (· == id)
    | _ => []
  | _, _ => []

/-- The alert row that a disposition selects for update or rewrites. -/
def lockedAlert (pg : Postgres) (view : Database) : {α : Type} → Statement α → List RowId
  | _, selectAlert id | _, updateAlert id _ =>
    match pg.idParam id with
    | .ok (some id) => (view.alerts.rows.map AlertRow.id).filter (· == id)
    | _ => []
  | _, _ => []

end Statement

/-- A transaction of any request that has begun and not ended. -/
structure Serving extends Flight where
  evidence : EvidencePatch := {}
  /-- How many statements it has issued. -/
  asked : ℕ := 0
  heldAlerts : List RowId := []

namespace Serving

/-- The tables as the next statement of a transaction sees them. -/
def view (serving : Serving) (db : Database) : Option Database :=
  (serving.own.overlay db).bind serving.evidence.overlay

/-- Whether a statement has to wait for a transaction. -/
def blocks (pg : Postgres) (db view reached : Database) {α : Type} (statement : Statement α)
    (other : Serving) : Bool :=
  other.toFlight.blocks pg db view reached statement ||
    (statement.finishedRun pg view).any (other.heldRuns.contains ·) ||
    (statement.lockedAlert pg view).any (other.heldAlerts.contains ·) ||
    (changedRows view.receipts.rows reached.receipts.rows).any fun receipt =>
      other.evidence.receipts.any (·.clash receipt)

/-- A transaction after a statement that was answered and took the tables from `view` to
`reached`. -/
def proceed (pg : Postgres) (serving : Serving) (view reached : Database) {α : Type}
    (statement : Statement α) (rest : Tx Reply) : Serving :=
  let own := serving.own.record view reached
  let evidence := serving.evidence.record view reached
  { serving with
    rest := rest
    own := own
    evidence := evidence
    asked := serving.asked + 1
    heldTasks := serving.heldTasks ++ statement.lockedTask pg view
    heldRuns := serving.heldRuns ++ (statement.lockedRun pg view ++ statement.finishedRun pg view ++
      rewrittenRuns view reached) ++ own.runs.map TaskRunRow.id
    heldAlerts := serving.heldAlerts ++ statement.lockedAlert pg view ++
      evidence.alerts.map AlertRow.id }

/-- What becomes of a transaction. -/
inductive Turn
  /-- It has run a statement. -/
  | goes (serving : Serving) (committed : Database)
  /-- It has been committed or rolled back. -/
  | ends (committed : Database)

/-- The next statement, the commit or the rollback of a transaction; nothing while it waits. -/
def advance (R : Runtime) (db : Database) (others : List Serving) (serving : Serving) :
    Option Turn :=
  match serving.rest, serving.view db with
  | .stop _, _ => some (.ends db)
  | .ret _, some view => some (.ends view)
  | .call statement next, some view =>
    match statement.exec R.postgres serving.session view with
    | .error _ => some (.ends db)
    | .ok (answer, reached) =>
      if others.any (·.blocks R.postgres db view reached statement) then none
      else some (.goes (serving.proceed R.postgres view reached statement (next answer))
        (db.rollback reached))
  | _, none => none

end Serving

/-- The committed tables and the transactions in flight. -/
structure Traffic where
  committed : Database
  servings : List Serving := []

namespace Traffic

/-- The state after a move, if the move is possible. -/
def act (R : Runtime) (state : Traffic) : Move → Option Traffic
  | .begin call session =>
    some { state with
      servings := state.servings ++ [{
        call := call
        session := session
        began := state.committed
        rest := call.transaction R }] }
  | .advance connection =>
    match state.servings[connection]? with
    | none => none
    | some serving =>
      match serving.advance R state.committed (state.servings.eraseIdx connection) with
      | none => none
      | some (.goes serving committed) =>
        some ⟨committed, state.servings.set connection serving⟩
      | some (.ends committed) => some ⟨committed, state.servings.eraseIdx connection⟩
  | .lose connection =>
    match state.servings[connection]? with
    | none => none
    | some _ => some { state with servings := state.servings.eraseIdx connection }

/-- One step: a permitted move, or configuration. -/
inductive Step (R : Runtime) (permits : Traffic → Move → Prop) (state : Traffic) : Traffic → Prop
  | move {move : Move} {reached : Traffic} (permitted : permits state move)
      (acts : state.act R move = some reached) : Step R permits state reached
  | configure {committed : Database}
      (configures : Configures R.postgres state.committed committed) :
      Step R permits state { state with committed := committed }

/-- A run of steps. -/
def Steps (R : Runtime) (permits : Traffic → Move → Prop) : Traffic → Traffic → Prop :=
  Relation.ReflTransGen (Step R permits)

/-- Every move is permitted. -/
def anyMove : Traffic → Move → Prop := fun _ _ => True

/-- Play some moves, skipping those that are not possible. -/
def play (R : Runtime) (state : Traffic) (moves : List Move) : Traffic :=
  moves.foldl (fun state move => (state.act R move).getD state) state

/-- Whether each of some moves passes a check where it is played. -/
def checked (R : Runtime) (check : Traffic → Move → Bool) : Traffic → List Move → Bool
  | _, [] => true
  | state, move :: rest =>
    check state move && checked R check ((state.act R move).getD state) rest

/-- What is played is a run of steps when every move passes a check that makes it permitted. -/
theorem steps_play {R : Runtime} {permits : Traffic → Move → Prop}
    {check : Traffic → Move → Bool} (sound : ∀ state move, check state move = true →
      permits state move) (moves : List Move) (state : Traffic)
    (h : checked R check state moves = true) : Steps R permits state (play R state moves) := by
  induction moves generalizing state with
  | nil => exact .refl
  | cons move rest ih =>
    obtain ⟨hmove, hrest⟩ := Bool.and_eq_true_iff.mp h
    have hplay := ih _ hrest
    cases hacts : state.act R move with
    | none =>
      rw [hacts] at hplay
      simpa [play, hacts] using hplay
    | some reached =>
      rw [hacts] at hplay
      have hlater : Steps R permits reached (play R state (move :: rest)) := by
        simpa [play, hacts] using hplay
      exact .head (.move (sound state move hmove) hacts) hlater

/-- A move that is possible and permitted is a step. -/
theorem step_play {R : Runtime} {permits : Traffic → Move → Prop} {state : Traffic} {move : Move}
    (permitted : permits state move) (possible : (state.act R move).isSome = true) :
    Step R permits state (play R state [move]) := by
  obtain ⟨reached, hacts⟩ := Option.isSome_iff_exists.mp possible
  have hplay : play R state [move] = reached := by simp [play, hacts]
  exact hplay ▸ .move permitted hacts

end Traffic

end LabBridge.Server
