import NexusOps.Concurrency.Fallible
import NexusOps.Core.ServiceObservations
import NexusOps.Model.Host
import NexusOps.Model.Session
import NexusOps.RemoteOperations.Foundation

/-!
# The application

The shared state of the application facade (`Application`) and the sections all
of its calls use. A call is a task on that state: what is done under one lock is
an atomic section, and the replies of the remote hosts and of the local stores
(the database of hosts, secrets, pinned keys and the audit log) are awaited, and
can be any.

Session slots, transports and gates are shared by reference: they are named by
their addresses, and a new one gets an unused address. Of the generation of a
slot, an `u64`, only the increments that do not overflow are modelled: the
section is blocked otherwise.
-/

namespace NexusOps.Core

open Concurrency RemoteOperations Function

/-- A session slot, shared between those who hold it. -/
structure SlotId where
  address : Nat
  deriving DecidableEq, Repr

/-- An open connection to a host. -/
structure TransportId where
  address : Nat
  deriving DecidableEq, Repr

/-- A gate for the service requests of a host. -/
structure ServiceGateId where
  address : Nat
  deriving DecidableEq, Repr

/-! ## Sessions -/

/-- What a session slot holds. -/
structure SessionData where
  view : HostSession
  generation : Nat
  cancel : CancellationToken
  transport : Option TransportId
  connectionId : Option HostSessionId
  refreshing : Bool
  deriving DecidableEq, Repr

namespace SessionData

/-- The data of a new slot. -/
def new (id : HostId) (cancel : CancellationToken) : SessionData where
  view := .disconnected id
  generation := 0
  cancel := cancel
  transport := none
  connectionId := none
  refreshing := false

/-- Increments the generation, if it does not overflow. -/
def bump (data : SessionData) : Option SessionData :=
  if data.generation < 2 ^ 64 - 1 then some { data with generation := data.generation + 1 }
  else none

theorem bump_eq_some {data data' : SessionData} (h : data.bump = some data') :
    data' = { data with generation := data.generation + 1 } := by
  rw [bump] at h
  split_ifs at h
  exact (Option.some.inj h).symm

end SessionData

/-- The approval of a key change, for the failed handshake it was planned in. -/
structure RotationAuthority where
  plan : HostKeyRotationPlan
  generation : Nat
  expiresAt : Instant

/-! ## The state -/

/-- What the calls log. -/
inductive AppEvent
  /-- An event of the remote operation foundation. -/
  | operation (e : FoundationEvent SystemdOperation)
  /-- The slot of the host has been seen connected, with this transport, session and
      generation. -/
  | bound (t : TaskId) (binding : AuthorityBinding) (transport : TransportId)
  /-- An inventory has been read over the transport. -/
  | read (t : TaskId) (transport : TransportId) (snapshot : ServiceSnapshot)
  /-- Observations have been published. -/
  | issued (t : TaskId) (binding : AuthorityBinding) (observations : Observations)
  /-- `connect_host` has set the slot of the host to connecting. -/
  | connecting (t : TaskId) (host : HostId)
  /-- `connect_host` has set the slot to connected. -/
  | connected (t : TaskId) (host : HostId) (session : HostSessionId) (transport : TransportId)
  /-- `connect_host` has set the slot to the state after a failed attempt. -/
  | failed (t : TaskId) (host : HostId) (state : ConnectionState)
  /-- `disconnect_host` or `delete_host` has started to disconnect the host. -/
  | disconnecting (t : TaskId) (host : HostId)
  /-- `save_host` has stored the host. -/
  | edited (t : TaskId) (host : HostId)
  /-- `delete_host` has removed the host from the repository. -/
  | deleted (t : TaskId) (host : HostId)
  /-- A transition of a connection state was not allowed. -/
  | transitionFailed (t : TaskId)

/-- The gates for service requests (`service_gates`), who has locked them, and the
    permits left of `service_limit`. -/
structure ServiceAdmission where
  gates : HostId → Option ServiceGateId
  created : Finset ServiceGateId
  holders : ServiceGateId → Option TaskId
  permits : Nat

/-- Sets who has locked a gate. -/
def ServiceAdmission.setHolder (a : ServiceAdmission) (gate : ServiceGateId)
    (holder : Option TaskId) : ServiceAdmission :=
  { a with holders := update a.holders gate holder }

/-- The shared state of the application. -/
structure Application where
  remoteOperations : Foundation SystemdOperation
  clock : Instant
  /-- The tokens in use, and those that are cancelled. -/
  tokens : Finset CancellationToken
  cancelled : CancellationToken → Bool
  /-- The transports whose connection has been closed. -/
  closed : TransportId → Bool
  repository : HostId → Option StoredHost
  sessions : HostId → Option SlotId
  slots : SlotId → Option SessionData
  serviceObservations : ObservationState
  serviceAdmission : ServiceAdmission
  rotationPlans : HostId → Option RotationAuthority
  /-- The call that holds the metadata lock. -/
  mutation : Option TaskId
  /-- The session ids used so far. -/
  sessionIds : Finset HostSessionId
  /-- The observation ids used so far. -/
  observationIds : Finset ServiceObservationId
  /-- The call that last set a slot to connecting. -/
  attempts : SlotId → Option TaskId
  log : List AppEvent

instance : HasFoundation Application SystemdOperation where
  foundation := Application.remoteOperations
  setFoundation s F := { s with remoteOperations := F }
  now := Application.clock
  isCancelled := Application.cancelled
  record s e := { s with log := s.log ++ [.operation e] }

/-- A call of the application. -/
abbrev App := Fallible Application AppError

namespace Application

variable (s : Application)

@[simp] theorem foundation_eq : foundation s = s.remoteOperations := rfl

@[simp] theorem setFoundation_eq (F : Foundation SystemdOperation) :
    setFoundation s F = { s with remoteOperations := F } := rfl

@[simp] theorem now_eq : now s = s.clock := rfl

@[simp] theorem isCancelled_eq (token : CancellationToken) :
    isCancelled s token = s.cancelled token := rfl

@[simp] theorem record_eq (e : FoundationEvent SystemdOperation) :
    record s e = { s with log := s.log ++ [.operation e] } := rfl

/-- Logs an event. -/
def note (e : AppEvent) : Application := { s with log := s.log ++ [e] }

/-- Sets the data of a slot. -/
def setSlot (slot : SlotId) (data : SessionData) : Application :=
  { s with slots := update s.slots slot (some data) }

/-- Cancels a token. -/
def cancelToken (token : CancellationToken) : Application :=
  { s with cancelled := update s.cancelled token true }

/-! ## Errors -/

/-- The connection attempt, or the request, was cancelled. -/
def cancelledError : AppError := .new .cancelled "Connection was cancelled."

/-- The database of hosts has failed. -/
def repositoryFailure : AppError := .new .persistence "Cannot read or save local host metadata."

/-- The host is not in the repository. -/
def hostNotFound : AppError := .new .notFound "Host no longer exists."

/-! ## Sections -/

variable {β : Type}

/-- A section under the lock of a slot. -/
def slotSection (slot : SlotId)
    (f : SessionData → Application → Option (Except AppError β × Application)) : App β :=
  .act fun s => (s.slots slot).bind fun data => f data s

/-- A locked section of the observation store. -/
def observationSection (f : ObservationState → Except AppError β × ObservationState) : App β :=
  .act fun s =>
    let (result, state) := f s.serviceObservations
    some (result, { s with serviceObservations := state })

/-- The slot of a host (`slot`), which is created when first used. -/
def slotOf (id : HostId) : App SlotId := do
  let slot ← .ask SlotId
  let cancel ← .ask CancellationToken
  .act fun s => match s.sessions id with
    | some slot => some (.ok slot, s)
    | none =>
      if s.slots slot = none ∧ cancel ∉ s.tokens then
        some (.ok slot, { s.setSlot slot (.new id cancel) with
          sessions := update s.sessions id (some slot)
          tokens := insert cancel s.tokens })
      else none

/-- The stored host (`repository.get`). -/
def repositoryGet (id : HostId) : App StoredHost := do
  let fails ← .ask Bool
  .act fun s =>
    if fails then some (.error repositoryFailure, s)
    else match s.repository id with
      | some stored => some (.ok stored, s)
      | none => some (.error hostNotFound, s)

/-- Forgets the approved key change of a host. -/
def removeRotationPlan (id : HostId) : App Unit :=
  .act fun s => some (.ok (), { s with rotationPlans := update s.rotationPlans id none })

/-- Revokes what may be executed or planned on a host. -/
def revokeHost (id : HostId) : App Unit := do
  let _ ← .lift (RemoteOperationFoundation.revokeHost id)
  observationSection fun state => (.ok (), state.revokeHost id)

/-- Runs the call while holding the metadata lock. -/
def withMutation (t : TaskId) (body : App β) : App β := do
  .act fun s => if s.mutation = none then some (.ok (), { s with mutation := some t }) else none
  .always body (.modify fun s => { s with mutation := none })

/-- The same, unless the lock is taken. -/
def withTryMutation (t : TaskId) (e : AppError) (body : App β) : App β := do
  .act fun s => if s.mutation = none then some (.ok (), { s with mutation := some t })
    else some (.error e, s)
  .always body (.modify fun s => { s with mutation := none })

/-- Runs the call while holding the lifecycle guard of a host. -/
def withLifecycleGuard (t : TaskId) (id : HostId) (body : App β) : App β := do
  .lift (RemoteOperationFoundation.lifecycleGuard t id)
  .always body (RemoteOperationFoundation.dropGuard id)

/-- The same, unless the guard is held by another call. -/
def withTryLifecycleGuard (t : TaskId) (id : HostId) (e : AppError) (body : App β) : App β := do
  match ← .lift (RemoteOperationFoundation.tryLifecycleGuard t id) with
  | .error _ => throw e
  | .ok () => .always body (RemoteOperationFoundation.dropGuard id)

end Application

end NexusOps.Core
