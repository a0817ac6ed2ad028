import Mathlib.Logic.Relation
import LabBridge.Server.Acceptance
import LabBridge.Server.Operations

/-!
# The server as a state machine

A call is one request of an agent or an operator, served as one transaction. Between calls
nodes register, send heartbeats and objects are configured. A state is reachable when calls
and configuration lead to it from the fresh schema.
-/

namespace LabBridge.Server

open ByteText LabBridge.Core Storage Interaction

variable (R : Runtime)

/-- The requests of agents and operators that create, move or describe runs. -/
inductive Call
  | start (request : StartTaskRunRequest)
  | manifest (request : RawFileManifestRequest)
  | report (request : TaskRunReportRequest)
  | trigger (taskId idempotencyKey : Bytes)
  | retry (taskRunId idempotencyKey : Bytes)
  | setEnabled (taskId : Bytes) (enabled : Bool)
  | disposeAlert (alertId : Bytes) (acknowledge : Bool)
  deriving DecidableEq

/-- The results of calls. -/
inductive Reply
  | start (result : TaskRunCreateResult)
  | manifest (result : RawFileManifestResult)
  | report (result : TaskRunReportResult)
  | manual (result : ManualTaskRunResult)
  | task (result : ManagementTaskResult)
  | alert (result : AlertRecord)
  deriving DecidableEq

/-- The transaction that serves a call. -/
def Call.transaction : Call → Tx Reply
  | start request => do pure (.start (← TaskRunService.start request))
  | manifest request => do
    pure (.manifest (← AgentReportService.acceptRawFileManifest R request))
  | report request => do pure (.report (← AgentReportService.acceptTaskRunReport R request))
  | trigger taskId key => do pure (.manual (← TaskRunService.requestManualRun R taskId key))
  | retry taskRunId key => do pure (.manual (← TaskRunService.requestRetryRun R taskRunId key))
  | setEnabled taskId enabled => do pure (.task (← setTaskEnabled R taskId enabled))
  | disposeAlert alertId acknowledge => do
    pure (.alert (← AlertService.disposeAlert alertId acknowledge))

/-- Serve a call: commit when it ends with a result, roll back otherwise. -/
def Call.serve (call : Call) (session : Session) (db : Database) : Except Stop Reply × Database :=
  (call.transaction R).execute R.postgres session db

/-- What registration, heartbeats and the creation of sources, rules and tasks may do: nodes
stay registered under their codes, objects are added, each task to a registered node, and
runs, evidence, alerts and receipts are left alone. A stored code arrived as a parameter. -/
structure Configures (pg : Postgres) (before after : Database) : Prop where
  codes : ∀ node ∈ after.nodes.rows, pg.receive node.nodeCode = some node.nodeCode
  nodes : ∀ node ∈ before.nodes.rows, ∃ same ∈ after.nodes.rows, same.nodeCode = node.nodeCode
  tasks : ∃ added, after.tasks.rows = before.tasks.rows ++ added ∧
    ∀ task ∈ added, ∃ node ∈ after.nodes.rows, node.nodeCode = task.nodeCode
  taskRuns : after.taskRuns = before.taskRuns
  rawFiles : after.rawFiles = before.rawFiles
  parsedRecords : after.parsedRecords = before.parsedRecords
  qcResults : after.qcResults = before.qcResults
  alerts : after.alerts = before.alerts
  receipts : after.receipts = before.receipts

/-- One step: a call that is permitted in its state, or configuration. -/
inductive Step (permitted : Call → Database → Prop) (before : Database) : Database → Prop
  | serve (call : Call) (session : Session) (allowed : permitted call before) :
      Step permitted before (call.serve R session before).2
  | configure {after : Database} (configures : Configures R.postgres before after) :
      Step permitted before after

/-- A run of permitted steps. -/
def Steps (permitted : Call → Database → Prop) : Database → Database → Prop :=
  Relation.ReflTransGen (Step R permitted)

/-- Every call is permitted. -/
def anyCall : Call → Database → Prop := fun _ _ => True

/-- A state the server can reach. -/
def Reachable (db : Database) : Prop := Steps R anyCall .empty db

end LabBridge.Server
