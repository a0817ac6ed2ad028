import LabBridge.Library.ByteText

/-!
# Values shared by the agent and the server

Statuses, task-run states and the parsed record as both programs declare them. Strings are
byte strings, as in the source.
-/

namespace LabBridge.Core

open ByteText

/-- The outcome class of an application call. -/
inductive StatusCode
  | ok
  | invalidArgument
  | notFound
  | conflict
  deriving DecidableEq, Repr

/-- A failing status. Its code is one of the three client errors. -/
structure Failure where
  code : StatusCode
  message : Bytes
  fails : code ≠ .ok
  deriving DecidableEq

/-- A failing status with the default code. -/
def Failure.invalid (message : Bytes) : Failure := ⟨.invalidArgument, message, by decide⟩

/-- A failing status for a missing object. -/
def Failure.notFound (message : Bytes) : Failure := ⟨.notFound, message, by decide⟩

/-- A failing status for a conflict with the stored state. -/
def Failure.conflict (message : Bytes) : Failure := ⟨.conflict, message, by decide⟩

/-- Where a data source reads from. -/
inductive SourceType
  | localDirectory
  | ftp
  | oracle
  deriving DecidableEq, Repr

/-- Whether a node reports. -/
inductive NodeStatus
  | online
  | offline
  deriving DecidableEq, Repr

/-- The life of a task run. -/
inductive TaskRunStatus
  | pending
  | running
  | succeeded
  | failed
  deriving DecidableEq, Repr

/-- The stored and transmitted text of a run status. -/
def TaskRunStatus.toStorage : TaskRunStatus → Bytes
  | .pending => text "pending"
  | .running => text "running"
  | .succeeded => text "succeeded"
  | .failed => text "failed"

/-- A run that has ended. -/
def TaskRunStatus.isTerminal (status : TaskRunStatus) : Bool :=
  status == .succeeded || status == .failed

/-- The texts of different statuses differ. -/
theorem TaskRunStatus.toStorage_injective : Function.Injective TaskRunStatus.toStorage := by
  intro left right h
  cases left <;> cases right <;> first | rfl | exact absurd h (by decide)

/-- What a node says about itself. -/
structure NodeInfo where
  nodeCode : Bytes
  name : Bytes
  agentVersion : Bytes
  deriving DecidableEq

/-- That a node is alive, and when it said so. -/
structure NodeHeartbeat where
  nodeCode : Bytes
  agentVersion : Bytes
  reportedAt : Bytes
  deriving DecidableEq

/-- A data source as the agent is told to read it. -/
structure DataSourceConfig where
  id : Bytes
  nodeCode : Bytes
  type : SourceType
  name : Bytes
  configJson : Bytes
  deriving DecidableEq

/-- A quality rule of a task. -/
structure QcRuleConfig where
  id : Bytes
  ruleType : Bytes
  name : Bytes
  configJson : Bytes
  deriving DecidableEq

/-- A task as the agent runs it. -/
structure TaskConfig where
  id : Bytes
  nodeCode : Bytes
  dataSourceId : Bytes
  name : Bytes
  taskType : Bytes
  scheduleExpr : Bytes
  parserType : Bytes
  qcProfile : Bytes
  enabled : Bool
  dataSource : DataSourceConfig
  qcRules : List QcRuleConfig
  deriving DecidableEq

/-- One observation of a collected file. -/
structure ParsedRecord where
  stationCode : Bytes
  deviceCode : Bytes
  recordTime : Bytes
  payloadJson : Bytes
  deriving DecidableEq

end LabBridge.Core
