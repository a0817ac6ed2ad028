import LabBridge.Agent.QueueOperations

/-!
# Histories of the queue

Any sequence of writing operations on a queue that starts empty, with any arguments. An
operation that raises changes nothing. The history keeps which identifiers each manifest was
last accepted with.
-/

namespace LabBridge.Agent

open ByteText JsonText LabBridge.Core

variable (J : Nlohmann) (store : AgentQueueStore)

/-- A writing operation with its arguments. -/
inductive QueueOperation
  | beginJob (task : TaskConfig) (request : StartTaskRunRequest)
      (retryFiles : List RetryFileInput) (now : Bytes)
  | saveFilePlan (key : Bytes) (files : List PendingFilePlan)
      (failures : List TaskRunReportFailedFile)
  | saveFileFailures (key : Bytes) (failures : List TaskRunReportFailedFile)
  | markFileFailed (key : Bytes) (ordinal : ℤ) (errorDetail : Bytes)
      (failures : List TaskRunReportFailedFile)
  | acceptStart (key taskRunId : Bytes)
  | markFileArchived (key : Bytes) (ordinal : ℤ)
  | saveManifest (key : Bytes) (request : RawFileManifestRequest)
  | acceptManifest (key : Bytes) (rawFileIds : List Bytes)
  | saveReport (key : Bytes) (request : TaskRunReportRequest) (parsedWithoutErrors : List Bool)
  | completeJob (key now : Bytes)
  | discardStartPendingJob (key : Bytes)
  | markRequiresAttention (key errorKind : Bytes)
  | recordDeliveryFailure (type : RequestType) (idempotencyKey : Bytes) (retryable : Bool)
      (errorKind : Bytes) (retryDelay now : ℤ)
  | resumeDelivery (type : RequestType) (idempotencyKey : Bytes)
  | retryAttentionJob (key : Bytes)

/-- The database after an operation. -/
def QueueOperation.run : QueueOperation → QueueDatabase → Except AgentError QueueDatabase
  | .beginJob task request retryFiles now, db =>
    Prod.snd <$> Agent.beginJob J store task request retryFiles now db
  | .saveFilePlan key files failures, db => Agent.saveFilePlan J key files failures db
  | .saveFileFailures key failures, db => Agent.saveFileFailures J key failures db
  | .markFileFailed key ordinal errorDetail failures, db =>
    Agent.markFileFailed J key ordinal errorDetail failures db
  | .acceptStart key taskRunId, db => Agent.acceptStart key taskRunId db
  | .markFileArchived key ordinal, db => Agent.markFileArchived key ordinal db
  | .saveManifest key request, db => Agent.saveManifest J key request db
  | .acceptManifest key rawFileIds, db => Agent.acceptManifest J key rawFileIds db
  | .saveReport key request outcomes, db => Agent.saveReport J key request outcomes db
  | .completeJob key now, db => Agent.completeJob store key now db
  | .discardStartPendingJob key, db => Agent.discardStartPendingJob key db
  | .markRequiresAttention key errorKind, db => Agent.markRequiresAttention key errorKind db
  | .recordDeliveryFailure type idempotencyKey retryable errorKind retryDelay now, db =>
    Agent.recordDeliveryFailure type idempotencyKey retryable errorKind retryDelay now db
  | .resumeDelivery type idempotencyKey, db => Agent.resumeDelivery type idempotencyKey db
  | .retryAttentionJob key, db => Prod.snd <$> Agent.retryAttentionJob key db

/-- A queue with the identifiers that the manifest of each job was last accepted with. -/
structure QueueHistory where
  database : QueueDatabase := {}
  returned : Bytes → List Bytes := fun _ => []

/-- The history after an operation that succeeds. -/
def QueueHistory.record (returned : Bytes → List Bytes) : QueueOperation → Bytes → List Bytes
  | .acceptManifest key rawFileIds => Function.update returned key rawFileIds
  | _ => returned

/-- The history after an operation; one that raises leaves it as it is. -/
def QueueHistory.after (history : QueueHistory) (operation : QueueOperation) : QueueHistory :=
  match operation.run J store history.database with
  | .ok database => ⟨database, QueueHistory.record history.returned operation⟩
  | .error _ => history

/-- A delivery failure is recorded only for the request of the stage its job is in. -/
def QueueOperation.InStage (db : QueueDatabase) : QueueOperation → Prop
  | .recordDeliveryFailure type idempotencyKey _ _ _ _ =>
    ∀ delivery ∈ db.deliveries, deliveryIs type idempotencyKey delivery = true →
      ∀ job ∈ db.jobs, job.executionKey = delivery.executionKey →
        job.stage ∈ deliveryStages → job.stage = type.stage
  | _ => True

/-- The histories of a queue that starts empty. -/
inductive QueueReachable : QueueHistory → Prop
  | fresh : QueueReachable {}
  | step {history : QueueHistory} (operation : QueueOperation) (reached : QueueReachable history)
      (inStage : operation.InStage history.database) :
      QueueReachable (history.after J store operation)

end LabBridge.Agent
