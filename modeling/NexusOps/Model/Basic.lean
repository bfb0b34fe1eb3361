import Mathlib.Algebra.Ring.Nat

/-!
# Domain data

The identifiers and errors the crates share (`nexus-model`). An identifier is a
UUID, only ever compared: it is a number here. Instants and durations are in
nanoseconds.
-/

namespace NexusOps

/-- A host. -/
structure HostId where
  uuid : Nat
  deriving DecidableEq, Repr

/-- An authenticated connection to a host. -/
structure HostSessionId where
  uuid : Nat
  deriving DecidableEq, Repr

/-- A plan of a remote operation. -/
structure RemoteOperationPlanId where
  uuid : Nat
  deriving DecidableEq, Repr

/-- An actionable entry of a published service inventory. -/
structure ServiceObservationId where
  uuid : Nat
  deriving DecidableEq, Repr

/-- A call being run. -/
structure TaskId where
  number : Nat
  deriving DecidableEq, Repr

/-- A cancellation token: shared between those who hold it. -/
structure CancellationToken where
  number : Nat
  deriving DecidableEq, Repr

/-- A point of the monotonic clock. -/
abbrev Instant := Nat

/-- A span of the monotonic clock. -/
abbrev Duration := Nat

/-- A duration in seconds. -/
def Duration.fromSecs (n : Nat) : Duration := n * 1000000000

/-- The sum of two 64-bit counters, which sticks at their greatest value. -/
def saturatingAdd (a b : Nat) : Nat := min (a + b) (2 ^ 64 - 1)

/-- The kinds of failures. -/
inductive ErrorCode
  | validation
  | notFound
  | persistence
  | dns
  | timeout
  | refused
  | authentication
  | unknownHostKey
  | changedHostKey
  | discovery
  | secureStorage
  | cancelled
  | connection
  | conflict
  | policy
  | terminalPty
  | terminalShell
  | terminalUnavailable
  | terminalResize
  | terminalStream
  | terminalStartup
  | terminalChannel
  | sftpUnavailable
  | sftpDenied
  | sftpProtocol
  | filePolicy
  | localAccess
  | transfer
  | outcomeUnknown
  | updateCheck
  | updateDownload
  | updateVerification
  | updateResourceLimit
  | updateTimeout
  | updateConflict
  | updateInstall
  deriving DecidableEq, Repr

/-- A server key observed during a rejected handshake. -/
structure HostKeyChallenge where
  hostname : String
  port : Nat
  algorithm : String
  fingerprint : String
  previousFingerprint : Option String
  deriving DecidableEq, Repr

/-- A user-visible failure. -/
structure AppError where
  code : ErrorCode
  message : String
  hostKey : Option HostKeyChallenge
  deriving DecidableEq, Repr

/-- A failure without a host key. -/
def AppError.new (code : ErrorCode) (message : String) : AppError := ⟨code, message, none⟩

/-- A computation has succeeded if its parts have. -/
theorem of_bind_eq_ok {ε α β : Type} {x : Except ε α} {f : α → Except ε β} {b : β}
    (h : x >>= f = .ok b) : ∃ a, x = .ok a ∧ f a = .ok b := by
  cases x with
  | error e => nomatch h
  | ok a => exact ⟨a, rfl, h⟩

theorem ok_bind {ε α β : Type} (a : α) (f : α → Except ε β) : (Except.ok a >>= f) = f a := rfl

/-- The policy levels of operations, from the least to the most risky. -/
inductive OperationRisk
  | readOnly
  | low
  | moderate
  | high
  | destructive
  deriving DecidableEq, Repr

end NexusOps
