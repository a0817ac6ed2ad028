import LabBridge.Library.Json

/-!
# Exceptions of the agent

The exception classes that the agent tells apart, each with its text, and what the agent
relies on in its JSON library beyond printing and parsing: the texts of its exceptions, and
that a printed document is not empty and holds no zero byte.
-/

namespace LabBridge.Agent

open ByteText JsonText

/-- An exception on its way to a handler. -/
inductive AgentError
  /-- `AgentQueueError`: the queue database refused an operation. -/
  | queue (message : Bytes)
  /-- `ExecutionCodecError`: a persisted request does not decode. -/
  | codec (message : Bytes)
  /-- An exception of the JSON library. -/
  | json (message : Bytes)
  /-- `ArchiveConflictError`: the archived evidence differs from the recorded one. -/
  | archiveConflict (message : Bytes)
  /-- `DeliveryAbandoned`: a delivery was given up and stays in the queue. -/
  | abandoned (message : Bytes)
  /-- Any other standard exception. -/
  | failure (message : Bytes)
  deriving DecidableEq

/-- The text of an exception. -/
def AgentError.what : AgentError → Bytes
  | .queue message | .codec message | .json message | .archiveConflict message
  | .abandoned message | .failure message => message

/-- The JSON library as the agent uses it. -/
structure Nlohmann extends JsonCodec where
  /-- The text of the exception that printing a document raises. -/
  dumpFailure : Json → Bytes
  /-- The text of the exception that parsing raises. -/
  parseFailure : Bytes → Bytes
  utf8_dumpFailure (document : Json) : Utf8 (dumpFailure document)
  dumpFailure_ne_nil (document : Json) : dumpFailure document ≠ []
  dump_ne_nil {document : Json} {printed : Bytes} (h : dump document = some printed) :
    printed ≠ []
  zero_notMem_dump {document : Json} {printed : Bytes} (h : dump document = some printed) :
    (0 : UInt8) ∉ printed

namespace Nlohmann

variable (J : Nlohmann)

/-- Print a document or raise the exception of the library. -/
def dumped (document : Json) : Except AgentError Bytes :=
  match J.dump document with
  | some printed => .ok printed
  | none => .error (.json (J.dumpFailure document))

/-- A document prints exactly when all its strings are UTF-8. -/
theorem dumped_eq_ok {document : Json} {printed : Bytes} :
    J.dumped document = .ok printed ↔ J.dump document = some printed := by
  unfold dumped
  cases J.dump document <;> simp

end Nlohmann

end LabBridge.Agent
