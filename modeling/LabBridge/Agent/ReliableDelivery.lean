import LabBridge.Agent.QueueRows

/-!
# Delivering a request until it is answered

`ReliableDeliveryClient` sends a persisted request again and again: a transient failure is
recorded in the queue and waited out, any other ends the delivery. What the client answers,
when its failures are recorded and where a stop is seen is the tape of the run; the tape of a
run ends where the loop sees the stop.
-/

namespace LabBridge.Agent

open ByteText JsonText LabBridge.Core

/-- What went wrong in a call of the client. -/
inductive TaskExecutionErrorKind
  | network
  | httpStatus
  | invalidResponse
  | serverError
  deriving DecidableEq, Repr

/-- `error_kind_name`. -/
def TaskExecutionErrorKind.name : TaskExecutionErrorKind → Bytes
  | .network => text "network"
  | .httpStatus => text "http_status"
  | .invalidResponse => text "invalid_response"
  | .serverError => text "server_error"

/-- An exception of the client. -/
structure TaskExecutionClientError where
  kind : TaskExecutionErrorKind
  message : Bytes
  httpStatus : ℕ := 0
  deriving DecidableEq

/-- `is_transient`: network failures, and the statuses 408, 429 and 500 to 599. -/
def TaskExecutionClientError.isTransient (error : TaskExecutionClientError) : Bool :=
  error.kind == .network || error.httpStatus == 408 || error.httpStatus == 429 ||
    (decide (500 ≤ error.httpStatus) && decide (error.httpStatus ≤ 599))

/-- `is_auth_rejection`. -/
def TaskExecutionClientError.isAuthRejection (error : TaskExecutionClientError) : Bool :=
  error.httpStatus == 401 || error.httpStatus == 403

/-- The name of a request. -/
def RequestType.toText : RequestType → Bytes
  | .start => text "start"
  | .manifest => text "manifest"
  | .report => text "report"

/-- The client with its retry interval in seconds and its body limit. -/
structure ReliableDeliveryClient where
  retryInitial : ℕ
  retryMax : ℕ
  maxRequestBodyBytes : ℕ
  retryInitial_pos : 0 < retryInitial
  retryInitial_le : retryInitial ≤ retryMax
  maxRequestBodyBytes_pos : 0 < maxRequestBodyBytes

/-- `stable_hash`. -/
def stableHash (value : Bytes) : UInt64 :=
  value.foldl (fun hash b => (hash ^^^ b.toUInt64) * 1099511628211) 1469598103934665603

namespace ReliableDeliveryClient

variable (client : ReliableDeliveryClient)

/-- Double an interval a number of times while it is below the largest one. -/
def backOff : ℕ → ℕ → ℕ
  | 0, base => base
  | times + 1, base =>
    if base < client.retryMax then backOff times (min client.retryMax (base * 2)) else base

/-- `retry_delay` in milliseconds: the interval of the attempt and up to a fifth of it. -/
def retryDelay (key : Bytes) (attempt : ℕ) : ℕ :=
  let base := 1000 * client.backOff (attempt - 1) client.retryInitial
  let jitter := (stableHash (key ++ text "\n" ++ decimal attempt) % 201).toNat
  base + base * jitter / 1000

theorem backOff_bounds {least base : ℕ} (times : ℕ) (hleast : least ≤ base)
    (hbase : base ≤ client.retryMax) :
    least ≤ client.backOff times base ∧ client.backOff times base ≤ client.retryMax := by
  induction times generalizing base with
  | zero => exact ⟨hleast, hbase⟩
  | succ times ih =>
    rw [backOff]
    split
    · apply ih
      · omega
      · exact Nat.min_le_left _ _
    · exact ⟨hleast, hbase⟩

/-- The jitter of an attempt is at most two hundred thousandths. -/
theorem jitter_le (key : Bytes) (attempt : ℕ) :
    (stableHash (key ++ text "\n" ++ decimal attempt) % 201).toNat ≤ 200 := by
  rw [UInt64.toNat_mod]
  exact Nat.le_of_lt_succ (Nat.mod_lt _ (by decide))

end ReliableDeliveryClient

/-! ## Runs -/

/-- One turn of the loop: the answer of the client, when its failure is recorded, and whether a
stop is seen in the wait that follows. -/
structure DeliveryTurn (α : Type) where
  answer : Except TaskExecutionClientError α
  now : ℤ
  stopped : Bool

/-- What surrounds a run: when the rest of an earlier delay is asked for, whether a stop is seen
while it is waited out, and the turns until the loop sees a stop. -/
structure DeliveryTape (α : Type) where
  now : ℤ
  stopped : Bool
  turns : List (DeliveryTurn α)

/-- How a run leaves without an answer. -/
inductive DeliveryException
  | abandoned (message : Bytes)
  | rejected (error : TaskExecutionClientError)
  | queue (error : AgentError)

/-- The queue after a run, the answers of its calls, and how it ended. -/
structure Delivered (α : Type) where
  database : QueueDatabase
  calls : List (Except TaskExecutionClientError α) := []
  outcome : Except DeliveryException α

namespace Delivered

variable {α : Type}

/-- The end of a run by an exception. -/
def raised (db : QueueDatabase) (exception : DeliveryException) : Delivered α :=
  ⟨db, [], .error exception⟩

/-- Go on with what an operation of the store gives. -/
def storing {β : Type} (db : QueueDatabase) (result : Except AgentError β)
    (next : β → Delivered α) : Delivered α :=
  match result with
  | .ok value => next value
  | .error error => raised db (.queue error)

/-- A run that began with one more call. -/
def called (answer : Except TaskExecutionClientError α) (rest : Delivered α) : Delivered α :=
  { rest with calls := answer :: rest.calls }

end Delivered

/-- The text of a delivery that a stop interrupted. -/
def stoppedText : Bytes := text "delivery stopped and remains pending"

namespace ReliableDeliveryClient

open Delivered

variable {α : Type} (client : ReliableDeliveryClient)

/-- The text of a delivery whose body is too large. -/
def oversizedText (type : RequestType) (bodyBytes : ℕ) : Bytes :=
  text "delivery payload too large; request_type=" ++ type.toText ++ text "; body_bytes=" ++
    decimal bodyBytes ++ text "; limit_bytes=" ++ decimal client.maxRequestBodyBytes

/-- `abandon_oversized_body`: park the job whose body can never be sent. -/
def abandonOversizedBody (type : RequestType) (idempotencyKey : Bytes) (bodyBytes : ℕ)
    (db : QueueDatabase) : Delivered α :=
  storing db (deliveryExecutionKey type idempotencyKey db) fun executionKey =>
    storing db (markRequiresAttention executionKey (text "payload_too_large") db) fun parked =>
      raised parked (.abandoned (client.oversizedText type bodyBytes))

/-- The loop of `deliver`, after a number of attempts. -/
def deliverLoop (type : RequestType) (idempotencyKey : Bytes) :
    ℕ → QueueDatabase → List (DeliveryTurn α) → Delivered α
  | _, db, [] => raised db (.abandoned stoppedText)
  | attempts, db, turn :: later =>
    match turn.answer with
    | .ok value => ⟨db, [.ok value], .ok value⟩
    | .error error =>
      let attempt := attempts + 1
      called (.error error) <|
        if error.isAuthRejection then
          storing db (recordDeliveryFailure type idempotencyKey true error.kind.name 0 turn.now db)
            fun recorded => raised recorded (.rejected error)
        else
          let delay := client.retryDelay (idempotencyKey ++ text "\n" ++ type.toText) attempt
          storing db (recordDeliveryFailure type idempotencyKey error.isTransient error.kind.name
            delay turn.now db) fun recorded =>
              if !error.isTransient then raised recorded (.abandoned error.message)
              -- a stop seen in the wait is seen again at the head of the loop
              else if turn.stopped then raised recorded (.abandoned stoppedText)
              else storing recorded (resumeDelivery type idempotencyKey recorded) fun resumed =>
                deliverLoop type idempotencyKey attempt resumed later

/-- `deliver`: send a request until it is answered, refused for good, or a stop is seen. -/
def deliver (type : RequestType) (idempotencyKey httpBody : Bytes) (tape : DeliveryTape α)
    (db : QueueDatabase) : Delivered α :=
  if client.maxRequestBodyBytes < httpBody.length then
    client.abandonOversizedBody type idempotencyKey httpBody.length db
  else
    storing db (deliveryAttemptCount type idempotencyKey db) fun attempts =>
      if 0 < attempts then
        storing db (deliveryRetryRemaining type idempotencyKey tape.now db) fun _ =>
          if tape.stopped then raised db (.abandoned stoppedText)
          else storing db (resumeDelivery type idempotencyKey db) fun resumed =>
            client.deliverLoop type idempotencyKey attempts resumed tape.turns
      else client.deliverLoop type idempotencyKey attempts db tape.turns

end ReliableDeliveryClient

end LabBridge.Agent
