import NexusOps.Core.Application

/-!
# Service requests

The calls that list the services of a host and that plan, discard and execute an
operation on one of them. The four systemd operations have the same calls, up to
what they require of the service: each is here one definition with the operation
as a parameter.

An operation is only dispatched on a service that has been seen in the state it
requires three times: in the inventory that was published, in the one read to
plan it, and in the one read, after the plan has been consumed, by the
revalidator.
-/

namespace NexusOps.Core.Application

open Concurrency RemoteOperations RemoteOperationFoundation

/-! ## Errors -/

/-- The session of the request is not the active one. -/
def staleSession : AppError :=
  .new .conflict "The service request does not belong to the active host session."

/-- The service is not in the required state. -/
def staleObservation : AppError :=
  .new .conflict "The service observation is stale; refresh services and try again."

/-- Too many requests. -/
def servicesBusy : AppError :=
  .new .conflict "A service request is already in progress or the service limit is reached."

/-! ## Admission -/

/-- The service gate of a host, which is created when first used. -/
def serviceGate (host : HostId) : App ServiceGateId := do
  let gate ← .ask ServiceGateId
  .act fun s => match s.serviceAdmission.gates host with
    | some gate => some (.ok gate, s)
    | none =>
      if gate ∈ s.serviceAdmission.created then none
      else some (.ok gate, { s with
        serviceAdmission.gates := Function.update s.serviceAdmission.gates host (some gate)
        serviceAdmission.created := insert gate s.serviceAdmission.created })

/-- The service gate of a host, if it has been used. -/
def existingServiceGate (host : HostId) : App ServiceGateId :=
  .act fun s => match s.serviceAdmission.gates host with
    | some gate => some (.ok gate, s)
    | none => some (.error servicesBusy, s)

/-- Locks a service gate, if it is free. -/
def tryLockServiceGate (t : TaskId) (gate : ServiceGateId) : App Unit :=
  .act fun s =>
    if s.serviceAdmission.holders gate = none then
      some (.ok (), { s with serviceAdmission := s.serviceAdmission.setHolder gate (some t) })
    else some (.error servicesBusy, s)

/-- Unlocks a service gate. -/
def unlockServiceGate (gate : ServiceGateId) : Proc Application Unit :=
  .modify fun s => { s with serviceAdmission := s.serviceAdmission.setHolder gate none }

/-- Takes a permit of `service_limit`, if there is one left. -/
def tryAcquireServiceLimit : App Unit :=
  .act fun s =>
    if s.serviceAdmission.permits = 0 then some (.error servicesBusy, s)
    else some (.ok (), { s with serviceAdmission.permits := s.serviceAdmission.permits - 1 })

/-- Gives back a permit. -/
def releaseServiceLimit : Proc Application Unit :=
  .modify fun s => { s with serviceAdmission.permits := s.serviceAdmission.permits + 1 }

/-- Takes the gate and a permit, or none of them. -/
def acquireServicePermits (t : TaskId) (gate : ServiceGateId) : App Unit := do
  tryLockServiceGate t gate
  .onError tryAcquireServiceLimit (unlockServiceGate gate)

/-- Gives back the permit and the gate. -/
def releaseServicePermits (gate : ServiceGateId) : Proc Application Unit := do
  releaseServiceLimit
  unlockServiceGate gate

/-! ## Sessions -/

/-- What a request uses of the connected slot. -/
structure Connection where
  transport : TransportId
  cancel : CancellationToken
  generation : Nat

/-- The slot is connected, with the given session. -/
def Active (session : HostSessionId) (data : SessionData) : Prop :=
  data.view.state = .connected ∧ data.connectionId = some session ∧
    data.view.hostSessionId = some session

instance (session : HostSessionId) (data : SessionData) : Decidable (Active session data) :=
  inferInstanceAs (Decidable (_ ∧ _))

/-- The connection of the slot, if it is that of the session. -/
def claimConnection (t : TaskId) (host : HostId) (session : HostSessionId) (data : SessionData)
    (s : Application) : Option (Except AppError Connection × Application) :=
  if Active session data then
    match data.transport with
    | none => some (.error staleSession, s)
    | some transport => some (.ok ⟨transport, data.cancel, data.generation⟩,
        s.note (.bound t ⟨host, session, data.generation⟩ transport))
  else some (.error staleSession, s)

/-- The slot still has the connection. -/
def recheckConnection (t : TaskId) (binding : AuthorityBinding) (connection : Connection)
    (e : AppError) (data : SessionData) (s : Application) :
    Option (Except AppError Unit × Application) :=
  if s.cancelled connection.cancel = true ∨ s.closed connection.transport = true ∨
      data.generation ≠ binding.generation ∨ ¬Active binding.hostSessionId data ∨
      data.transport ≠ some connection.transport then
    some (.error e, s)
  else some (.ok (), s.note (.bound t binding connection.transport))

/-- Reads the services of the host (`observe_services`). -/
def observeServices (t : TaskId) (transport : TransportId) (binding : AuthorityBinding) :
    App ServiceSnapshot := do
  let reply ← .await (String × List ServiceEntry)
  let snapshot : ServiceSnapshot := ⟨binding.hostId, binding.hostSessionId, reply.1, reply.2⟩
  .act fun s => some (.ok snapshot, s.note (.read t transport snapshot))

/-- The unit is in the inventory, and in the state the operation requires:
    `exact_failed_service`, `exact_running_service`, `exact_reloadable_service` and
    `exact_startable_service`. -/
def exactService (o : SystemdOperation) (snapshot : ServiceSnapshot) (unit : SystemdServiceUnitName)
    (preconditions : o.Preconditions) : Option ServiceEntry :=
  (snapshot.entries.find? fun entry => entry.unit == unit.value).filter fun entry =>
    entry.matches o preconditions

/-! ## `list_host_services` -/

/-- A request for the services of a host, with what it holds. -/
structure Listing where
  slot : SlotId
  connection : Connection
  binding : AuthorityBinding
  sequence : Nat
  gate : ServiceGateId

/-- Starts a request. -/
def beginListing (t : TaskId) (host : HostId) (session : HostSessionId) : App Listing :=
  withTryMutation t servicesBusy do
    let _ ← repositoryGet host
    let slot ← slotOf host
    let connection ← slotSection slot (claimConnection t host session)
    let sequence ← observationSection fun state => state.beginRequest host
    let gate ← serviceGate host
    acquireServicePermits t gate
    return ⟨slot, connection, ⟨host, session, connection.generation⟩, sequence, gate⟩

/-- Publishes the inventory, under ids that have not been used before. `order` is the
    iteration order of the hosts with observations. -/
def publishSection (t : TaskId) (ids : Nat → ServiceObservationId) (order : List HostId)
    (instant : Instant) (binding : AuthorityBinding) (sequence : Nat) (snapshot : ServiceSnapshot)
    (s : Application) : Option (Except AppError ServiceSnapshot × Application) :=
  if s.serviceObservations.sets.keys ⊆ order.toFinset then
    match s.serviceObservations.publish ids order instant binding sequence snapshot with
    | (.error e, state) => some (.error e, { s with serviceObservations := state })
    | (.ok (published, observations), state) =>
      if Disjoint observations.keys s.observationIds then
        some (.ok published, { s with
          serviceObservations := state
          observationIds := observations.keys ∪ s.observationIds
          log := s.log ++ [.issued t binding observations] })
      else none
  else none

/-- Publishes the inventory. -/
def publishServices (t : TaskId) (binding : AuthorityBinding) (sequence : Nat)
    (snapshot : ServiceSnapshot) : App ServiceSnapshot := do
  let instant ← .read fun s => s.clock
  let ids ← .ask (Nat → ServiceObservationId)
  let order ← .ask (List HostId)
  .act (publishSection t ids order instant binding sequence snapshot)

/-- Lists the services of a host. -/
def listHostServices (t : TaskId) (host : HostId) (session : HostSessionId) :
    App ServiceSnapshot := do
  let listing ← beginListing t host session
  let snapshot ← .always (observeServices t listing.connection.transport listing.binding)
    (releaseServicePermits listing.gate)
  withTryLifecycleGuard t host servicesBusy do
    slotSection listing.slot
      (recheckConnection t listing.binding listing.connection cancelledError)
    publishServices t listing.binding listing.sequence snapshot

/-! ## Plans -/

/-- What a plan shows: the required state is that of its operation. -/
structure ServicePlan where
  planId : RemoteOperationPlanId
  hostId : HostId
  hostSessionId : HostSessionId
  unit : String
  risk : OperationRisk
  expiresInSeconds : Nat

/-- The unit that an observation allows the operation on. -/
def resolveObservation (o : SystemdOperation) (observation : ServiceObservationId)
    (binding : AuthorityBinding) : App SystemdServiceUnitName := do
  let instant ← .read fun s => s.clock
  observationSection fun state => state.resolveFor o observation binding instant

/-- Reads the services, and checks that the unit is in the state the operation
    requires. -/
def observeExact (o : SystemdOperation) (t : TaskId) (transport : TransportId)
    (binding : AuthorityBinding) (unit : SystemdServiceUnitName) (preconditions : o.Preconditions) :
    App Unit := do
  let snapshot ← observeServices t transport binding
  .ensure ((exactService o snapshot unit preconditions).isSome = true) staleObservation

/-- Plans an operation on the unit of an observation. -/
def planService (o : SystemdOperation) (t : TaskId) (host : HostId) (session : HostSessionId)
    (observation : ServiceObservationId) : App ServicePlan := do
  let _ ← repositoryGet host
  let slot ← slotOf host
  let connection ← slotSection slot (claimConnection t host session)
  let binding : AuthorityBinding := ⟨host, session, connection.generation⟩
  let unit ← resolveObservation o observation binding
  let gate ← serviceGate host
  acquireServicePermits t gate
  .always (observeExact o t connection.transport binding unit o.preconditions)
    (releaseServicePermits gate)
  withTryLifecycleGuard t host servicesBusy do
    slotSection slot (recheckConnection t binding connection staleSession)
    let unit ← resolveObservation o observation binding
    let draft : PlanDraft o := ⟨binding, unit, o.preconditions, ()⟩
    let receipt ← ExceptT.mk (plan t draft binding)
    return ⟨receipt.id, host, session, unit.value, receipt.risk, PLAN_TTL / Duration.fromSecs 1⟩

/-- The binding of the active session. -/
def activeBinding (host : HostId) (session : HostSessionId) (data : SessionData) (s : Application) :
    Option (Except AppError AuthorityBinding × Application) :=
  if Active session data then some (.ok ⟨host, session, data.generation⟩, s)
  else some (.error staleSession, s)

/-- Discards the plan of an operation. -/
def discardService (o : SystemdOperation) (t : TaskId) (host : HostId) (session : HostSessionId)
    (plan : RemoteOperationPlanId) : App Bool :=
  withTryLifecycleGuard t host servicesBusy do
    let slot ← slotOf host
    let binding ← slotSection slot (activeBinding host session)
    ExceptT.mk (discard o plan binding)

/-! ## Execution -/

/-- The revalidation of a consumed plan: `risk` is the risk the revalidator of the
    operation expects. It returns with the service gate locked. -/
def revalidate (o : SystemdOperation) (risk : OperationRisk) (t : TaskId) (slot : SlotId)
    (connection : Connection) (binding : AuthorityBinding) (authority : ConsumedAuthority o) :
    App ServiceGateId := do
  let isCancelled ← .read fun s => s.cancelled connection.cancel
  .ensure (authority.binding = binding ∧ authority.risk = risk ∧ isCancelled = false)
    staleObservation
  let gate ← existingServiceGate binding.hostId
  tryLockServiceGate t gate
  .onError (do
    tryAcquireServiceLimit
    .always (do
      observeExact o t connection.transport binding authority.target authority.preconditions
      slotSection slot (recheckConnection t binding connection staleSession)) releaseServiceLimit)
    (unlockServiceGate gate)
  return gate

/-- The revalidator of an operation and the transport of the session. -/
def serviceExecution (o : SystemdOperation) (risk : OperationRisk) (t : TaskId) (slot : SlotId)
    (connection : Connection) (binding : AuthorityBinding) :
    Execution Application o ServiceGateId where
  revalidate authority := (revalidate o risk t slot connection binding authority).run
  dispatch _ := .ask MutationTransportOutcome
  dropDispatchGuard := unlockServiceGate

/-- What an execution shows: whether it has been audited, and the services after it, if
    they could be listed. -/
structure ServiceResult where
  outcome : RemoteOperationOutcome
  audited : Bool
  snapshot : Option ServiceSnapshot

/-- Executes the plan of an operation. -/
def executeService (o : SystemdOperation) (risk : OperationRisk) (t : TaskId) (host : HostId)
    (session : HostSessionId) (plan : RemoteOperationPlanId) : App ServiceResult := do
  let slot ← slotOf host
  let connection ← slotSection slot (claimConnection t host session)
  let binding : AuthorityBinding := ⟨host, session, connection.generation⟩
  let execution ← ExceptT.mk (execute t o plan binding
    (serviceExecution o risk t slot connection binding) connection.cancel)
  let audited ← .ask Bool
  let snapshot ← .lift (listHostServices t host session).run
  return ⟨execution.outcome, audited, snapshot.toOption⟩

/-! ## The operations -/

def planServiceResetFailed := planService .resetFailed

def planServiceTryRestart := planService .tryRestart

def planServiceReload := planService .reload

def planServiceStart := planService .start

def discardServiceResetFailed := discardService .resetFailed

def discardServiceTryRestart := discardService .tryRestart

def discardServiceReload := discardService .reload

def discardServiceStart := discardService .start

def executeServiceResetFailed := executeService .resetFailed .moderate

def executeServiceTryRestart := executeService .tryRestart .high

def executeServiceReload := executeService .reload .high

def executeServiceStart := executeService .start .high

end NexusOps.Core.Application
