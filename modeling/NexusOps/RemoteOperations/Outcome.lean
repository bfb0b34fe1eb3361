import NexusOps.Model.Basic

/-!
# Outcomes of remote operations

What a transport reports of an operation says whether it may have reached the
host; what the operation as a whole reports is derived from it.
-/

namespace NexusOps.RemoteOperations

/-- What became of an operation. -/
inductive RemoteOperationOutcome
  | success
  | failed
  | cancelled
  | outcomeUnknown
  deriving DecidableEq, Repr

/-- Why an operation has not been dispatched. -/
inductive NotDispatchedReason
  | cancelled
  | timeout
  | connection
  | rejected
  deriving DecidableEq, Repr

/-- Why it is unknown whether an operation has completed. -/
inductive CompletionUnknownReason
  | cancelled
  | timeout
  | connectionLost
  | outputLimit
  deriving DecidableEq, Repr

/-- What the transport knows of an operation. -/
inductive MutationTransportOutcome
  | notDispatched (reason : NotDispatchedReason)
  | completionConfirmed (success : Bool)
  | completionUnknown (reason : CompletionUnknownReason)
  deriving DecidableEq, Repr

/-- The outcome of an operation, given what the transport knows of it. -/
def MutationTransportOutcome.operationOutcome : MutationTransportOutcome → RemoteOperationOutcome
  | notDispatched .cancelled => .cancelled
  | notDispatched _ => .failed
  | completionConfirmed true => .success
  | completionConfirmed false => .failed
  | completionUnknown _ => .outcomeUnknown

/-- How far an execution went. -/
inductive ExecutionTerminal
  | revalidationFailed
  | cancelledBeforeDispatch
  | transport (outcome : MutationTransportOutcome)
  deriving DecidableEq, Repr

/-- The result of an execution. -/
structure ExecutionResult where
  outcome : RemoteOperationOutcome
  terminal : ExecutionTerminal
  deriving DecidableEq, Repr

end NexusOps.RemoteOperations
