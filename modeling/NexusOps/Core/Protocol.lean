import NexusOps.Concurrency.History
import NexusOps.Core.Hosts
import NexusOps.Core.Services

/-!
# Interleavings of the application's calls

The calls of the application, any number of them at the same time, and what holds
in every interleaving (`Application.Inv`):

* the session slots have the shape their state promises (`SessionData.Ok`);
* the plans and observations of a host that no lifecycle guard protects belong to
  the connection of its slot (`GoodHost`);
* the log accounts for every plan, every observation, every dispatch and every
  published attempt to connect (`Provenance`, `Rule`).

`Application.Guarantee` is what a step of a call does. What protects the slot of a
host is its lifecycle guard and, as long as there is no connection, the metadata
lock; a call that holds neither can only publish the outcome of its own attempt to
connect, or mark a connected slot as being refreshed.
-/

namespace NexusOps.Core

open Concurrency RemoteOperations

/-- The calls. -/
inductive Call
  | connectHost (id : HostId)
  | disconnectHost (id : HostId)
  | reconnectHost (id : HostId)
  | getSession (id : HostId)
  | refreshHost (id : HostId)
  | saveHost (input : HostInput) (credential : Bool)
  | deleteHost (id : HostId)
  | trustHostKey (id : HostId) (challenge : HostKeyChallenge)
  | planHostKeyRotation (id : HostId)
  | executeHostKeyRotation (id : HostId) (plan : HostKeyRotationPlanId)
  | listHostServices (host : HostId) (session : HostSessionId)
  | planService (o : SystemdOperation) (host : HostId) (session : HostSessionId)
      (observation : ServiceObservationId)
  | discardService (o : SystemdOperation) (host : HostId) (session : HostSessionId)
      (plan : RemoteOperationPlanId)
  | executeService (o : SystemdOperation) (host : HostId) (session : HostSessionId)
      (plan : RemoteOperationPlanId)

/-! ## Histories -/

namespace AppEvent

/-- The event ends the attempts to connect the host that were started before it. -/
def Supersedes (host : HostId) : AppEvent → Prop
  | connecting _ host' => host' = host
  | disconnecting _ host' => host' = host
  | edited _ host' => host' = host
  | deleted _ host' => host' = host
  | _ => False

end AppEvent

/-- Since the call `t` has set the slot of the host to connecting, nothing has
    superseded its attempt. -/
def Unsuperseded (t : TaskId) (host : HostId) (log : List AppEvent) : Prop :=
  ∃ pre post, log = pre ++ AppEvent.connecting t host :: post ∧ ∀ e ∈ post, ¬e.Supersedes host

/-- A session has been established over the transport. -/
def Established (log : List AppEvent) (session : HostSessionId) (transport : TransportId) : Prop :=
  ∃ t host, .connected t host session transport ∈ log

/-- The id has been published for the observation. -/
def Issued (log : List AppEvent) (id : ServiceObservationId)
    (observation : ActionableServiceObservation) : Prop :=
  ∃ t binding observations, .issued t binding observations ∈ log ∧
    observations.get id = some observation

/-- The inventory that was read over the transport by the call `t`, while the slot of
    the host was connected, and that the observations are from. -/
def Observed (log : List AppEvent) (binding : AuthorityBinding) (observations : Observations) : Prop :=
  ∃ t transport snapshot,
    [.bound t binding transport, .read t transport snapshot, .bound t binding transport,
      .issued t binding observations].Sublist log ∧
    ∀ id observation, observations.get id = some observation →
      snapshot.Shows observation.operation observation.unit

/-- Where a plan comes from: the inventory and the observations that were published,
    the observation it was planned for, and the inventory read to plan it. -/
structure Provenance where
  publisher : TaskId
  planner : TaskId
  transport : TransportId
  published : ServiceSnapshot
  observations : Observations
  observation : ServiceObservationId
  inspected : ServiceSnapshot

/-- The events that lead to the plan, up to its last inspection. -/
def Provenance.events (p : Provenance) (binding : AuthorityBinding) : List AppEvent :=
  [.bound p.publisher binding p.transport, .read p.publisher p.transport p.published,
    .bound p.publisher binding p.transport, .issued p.publisher binding p.observations,
    .read p.planner p.transport p.inspected, .bound p.planner binding p.transport]

/-- The log has the events that lead to the publication of the plan `id`, and after
    them the events `es`. -/
def Provenance.LeadsTo (p : Provenance) (log : List AppEvent) (o : SystemdOperation)
    (binding : AuthorityBinding) (unit : SystemdServiceUnitName) (id : RemoteOperationPlanId)
    (es : List AppEvent) : Prop :=
  ∃ draft : PlanDraft o, draft.binding = binding ∧ draft.target = unit ∧
    (p.events binding ++ AppEvent.operation (.planned p.planner o draft id) :: es).Sublist log

/-- The plan `id` rests on the two inventories. -/
structure Provenance.Explains (calls : TaskId → Call) (log : List AppEvent) (p : Provenance)
    (o : SystemdOperation) (binding : AuthorityBinding) (unit : SystemdServiceUnitName) : Prop where
  call : calls p.planner = .planService o binding.hostId binding.hostSessionId p.observation
  observation : p.observations.get p.observation = some ⟨o, unit⟩
  published : p.published.Shows o unit
  inspected : p.inspected.Shows o unit
  claimed : [.bound p.planner binding p.transport,
    .read p.planner p.transport p.inspected].Sublist log

/-- A pending authority is accounted for. -/
def Planned (calls : TaskId → Call) (log : List AppEvent)
    (a : StoredAuthority SystemdOperation) : Prop :=
  ∃ (o : SystemdOperation) (c : ConsumedAuthority o) (p : Provenance), a.grant = ⟨o, c⟩ ∧
    p.Explains calls log o c.binding c.target ∧ p.LeadsTo log o c.binding c.target c.id []

/-- A dispatch is accounted for: where its plan comes from, and the inventory read
    after the plan was consumed. -/
structure Accounted (calls : TaskId → Call) (log : List AppEvent) (t : TaskId)
    {o : SystemdOperation} (a : ConsumedAuthority o) (p : Provenance) (last : ServiceSnapshot) :
    Prop where
  call : calls t = .executeService o a.binding.hostId a.binding.hostSessionId a.id
  explained : p.Explains calls log o a.binding a.target
  shows : last.Shows o a.target
  claimed : [.bound t a.binding p.transport, .operation (.consumed t o a)].Sublist log
  events : p.LeadsTo log o a.binding a.target a.id [.operation (.consumed t o a),
    .read t p.transport last, .bound t a.binding p.transport]

/-- What the log accounts for, event by event. -/
def Rule (calls : TaskId → Call) (pre : List AppEvent) : AppEvent → Prop
  | .operation (.dispatched t _ a) => ∃ p last, Accounted calls pre t a p last
  | .connected t host _ _ => Unsuperseded t host pre
  | .failed t host _ => Unsuperseded t host pre
  | .transitionFailed _ => False
  | _ => True

/-! ## Slots -/

/-- The fields of a slot agree with its state. -/
structure SessionData.Ok (data : SessionData) : Prop where
  connected : data.view.state = .connected → data.transport ≠ none ∧
    ∃ session, data.connectionId = some session ∧ data.view.hostSessionId = some session
  vacant : data.view.state ≠ .connected → data.view.state ≠ .disconnecting →
    data.transport = none ∧ data.connectionId = none ∧ data.view.hostSessionId = none
  refreshing : data.refreshing = true → data.view.state = .connected

/-- What happens to a slot that is not protected by a guard of the call. -/
structure Undisturbed (data data' : SessionData) : Prop where
  connected : data.view.state = .connected → data'.view.state = .connected ∧
    data'.connectionId = data.connectionId ∧ data'.transport = data.transport ∧
      data'.generation = data.generation
  disconnecting : data.view.state = .disconnecting → data'.view.state = .disconnecting
  quiescent : data.view.state.Quiescent → data'.view.state.Quiescent

namespace Application

/-- The binding is that of the connected slot of the host. -/
def BoundTo (s : Application) (host : HostId) (binding : AuthorityBinding) : Prop :=
  ∃ slot data, s.sessions host = some slot ∧ s.slots slot = some data ∧
    data.view.state = .connected ∧ binding.hostId = host ∧
    data.connectionId = some binding.hostSessionId ∧ data.generation = binding.generation

/-- The slot of the host is connected over the transport, in the session and the
    generation of the binding. -/
def ConnectedBy (s : Application) (binding : AuthorityBinding) (transport : TransportId) : Prop :=
  ∃ slot data, s.sessions binding.hostId = some slot ∧ s.slots slot = some data ∧
    data.view.state = .connected ∧ data.connectionId = some binding.hostSessionId ∧
    data.generation = binding.generation ∧ data.transport = some transport

/-- The plans and the observations of the host belong to its connection. -/
structure GoodHost (s : Application) (host : HostId) : Prop where
  pending : ∀ id a, s.remoteOperations.authorities.state.pending.get id = some a →
    a.binding.hostId = host → s.BoundTo host a.binding
  observations : ∀ set, s.serviceObservations.sets.get host = some set → s.BoundTo host set.binding

/-- What is seen in a state is the case in it. -/
def Sees (s : Application) : AppEvent → Prop
  | .bound _ binding transport => s.ConnectedBy binding transport
  | _ => True

/-- What happens to a slot, in a step of the call `t`. -/
structure SlotStep (t : TaskId) (s s' : Application) (slot : SlotId) (data data' : SessionData) :
    Prop where
  host : data'.view.hostId = data.view.hostId
  generation : data.generation ≤ data'.generation
  unguarded : s.remoteOperations.hostGates data.view.hostId ≠ some (.lifecycle t) →
    Undisturbed data data'
  /-- A connection is only started under the metadata lock. -/
  quiescent : s.mutation ≠ some t → data.view.state.Quiescent → data'.view.state.Quiescent
  /-- An attempt of another call goes on, unless it is superseded. -/
  attempt : ∀ t', t' ≠ t → s.attempts slot = some t' → data.view.state = .connecting →
    data'.generation = data.generation →
      s'.attempts slot = some t' ∧ data'.view.state = .connecting ∧
        (Unsuperseded t' data.view.hostId s.log → Unsuperseded t' data.view.hostId s'.log)

/-- What a step of the call `t` does. -/
structure Guarantee (t : TaskId) (s s' : Application) : Prop where
  log : ∃ es, s'.log = s.log ++ es ∧ es.length ≤ 1 ∧ ∀ e ∈ es, s.Sees e
  gates : ∀ host holder, holder.task ≠ t → (s'.remoteOperations.hostGates host = some holder ↔
    s.remoteOperations.hostGates host = some holder)
  mutation : ∀ t', t' ≠ t → (s'.mutation = some t' ↔ s.mutation = some t')
  sessions : ∀ host slot, s.sessions host = some slot → s'.sessions host = some slot ∨
    s.remoteOperations.hostGates host = some (.lifecycle t) ∧ s.mutation = some t
  slots : ∀ slot data, s.slots slot = some data →
    ∃ data', s'.slots slot = some data' ∧ SlotStep t s s' slot data data'
  pending : ∀ id a, s'.remoteOperations.authorities.state.pending.get id = some a →
    s.remoteOperations.hostGates a.binding.hostId ≠ some (.lifecycle t) →
      s.remoteOperations.authorities.state.pending.get id = some a
  observations : ∀ host set, s'.serviceObservations.sets.get host = some set →
    s.remoteOperations.hostGates host ≠ some (.lifecycle t) →
      s.serviceObservations.sets.get host = some set

/-! ## The invariant -/

/-- What holds of the slots. -/
structure SlotsOk (s : Application) : Prop where
  ok : ∀ slot data, s.slots slot = some data → data.Ok
  hosted : ∀ host slot, s.sessions host = some slot →
    ∃ data, s.slots slot = some data ∧ data.view.hostId = host
  /-- A slot with a connection is that of its host. -/
  attached : ∀ slot data, s.slots slot = some data → ¬data.view.state.Quiescent →
    s.sessions data.view.hostId = some slot
  established : ∀ slot data session transport, s.slots slot = some data →
    data.view.state = .connected → data.connectionId = some session →
      data.transport = some transport → Established s.log session transport

/-- What holds of the log. -/
structure LogOk (calls : TaskId → Call) (sessionIds : Finset HostSessionId)
    (observationIds : Finset ServiceObservationId) (log : List AppEvent) : Prop where
  used : ∀ session transport, Established log session transport → session ∈ sessionIds
  unique : ∀ session transport transport', Established log session transport →
    Established log session transport' → transport = transport'
  bound : ∀ t binding transport, .bound t binding transport ∈ log →
    Established log binding.hostSessionId transport
  issued : ∀ id observation, Issued log id observation → id ∈ observationIds
  /-- An id stands for the same in all publications. -/
  resolved : ∀ id observation observation', Issued log id observation →
    Issued log id observation' → observation = observation'
  rule : Justified (Rule calls) log

/-- The invariant. -/
structure Inv (calls : TaskId → Call) (s : Application) : Prop where
  valid : s.remoteOperations.authorities.Valid
  slots : s.SlotsOk
  log : LogOk calls s.sessionIds s.observationIds s.log
  planned : ∀ id a, s.remoteOperations.authorities.state.pending.get id = some a →
    Planned calls s.log a
  observed : ∀ host set, s.serviceObservations.sets.get host = some set →
    Observed s.log set.binding set.entries
  good : ∀ host, (∀ t, s.remoteOperations.hostGates host ≠ some (.lifecycle t)) → s.GoodHost host

/-! ## The system -/

/-- A call whose result is not used. -/
def exec {α : Type} (x : App α) : Proc Application Unit := do
  let _ ← x.run

/-- The program of a call. -/
def program (t : TaskId) : Call → Proc Application Unit
  | .connectHost id => exec (connectHost t id)
  | .disconnectHost id => exec (disconnectHost t id)
  | .reconnectHost id => exec (reconnectHost t id)
  | .getSession id => exec (getSession t id)
  | .refreshHost id => exec (refreshHost id)
  | .saveHost input credential => exec (saveHost t input credential)
  | .deleteHost id => exec (deleteHost t id)
  | .trustHostKey id challenge => exec (trustHostKey t id challenge)
  | .planHostKeyRotation id => exec (planHostKeyRotation t id)
  | .executeHostKeyRotation id plan => exec (executeHostKeyRotation t id plan)
  | .listHostServices host session => exec (listHostServices t host session)
  | .planService .resetFailed host session id => exec (planServiceResetFailed t host session id)
  | .planService .tryRestart host session id => exec (planServiceTryRestart t host session id)
  | .planService .reload host session id => exec (planServiceReload t host session id)
  | .planService .start host session id => exec (planServiceStart t host session id)
  | .discardService .resetFailed host session id =>
    exec (discardServiceResetFailed t host session id)
  | .discardService .tryRestart host session id => exec (discardServiceTryRestart t host session id)
  | .discardService .reload host session id => exec (discardServiceReload t host session id)
  | .discardService .start host session id => exec (discardServiceStart t host session id)
  | .executeService .resetFailed host session id =>
    exec (executeServiceResetFailed t host session id)
  | .executeService .tryRestart host session id => exec (executeServiceTryRestart t host session id)
  | .executeService .reload host session id => exec (executeServiceReload t host session id)
  | .executeService .start host session id => exec (executeServiceStart t host session id)

/-- What happens besides the calls: time passes, connections are closed, and plans
    expire. -/
inductive Env : Application → Application → Prop
  | tick (s : Application) (clock : Instant) (h : s.clock ≤ clock) : Env s { s with clock := clock }
  | close (s : Application) (transport : TransportId) :
      Env s { s with closed := Function.update s.closed transport true }
  | expire (s : Application) (id : RemoteOperationPlanId) (expires : Instant)
      (h : expires ≤ s.clock) : Env s (RemoteOperationFoundation.setStore s
        (s.remoteOperations.authorities.state.expire id expires))

/-- The state of an application that has just been opened: it has a repository of
    hosts. -/
structure Initial (s : Application) : Prop where
  remoteOperations : s.remoteOperations = ⟨⟨.default, ∅⟩, fun _ => none, none⟩
  tokens : s.tokens = ∅
  sessions : ∀ host, s.sessions host = none
  slots : ∀ slot, s.slots slot = none
  serviceObservations : s.serviceObservations = .default
  serviceAdmission : s.serviceAdmission = ⟨fun _ => none, ∅, fun _ => none, 4⟩
  rotationPlans : ∀ host, s.rotationPlans host = none
  mutation : s.mutation = none
  sessionIds : s.sessionIds = ∅
  observationIds : s.observationIds = ∅
  log : s.log = []

/-- The application and its concurrent calls: `calls t` is the one made by the task
    `t`, if it is started. -/
def system (calls : TaskId → Call) : System TaskId Application where
  init := Initial
  entry t p := p = program t (calls t)
  env := Env

/-- The protocol of the calls. -/
def protocol (calls : TaskId → Call) : Protocol (system calls) where
  inv := Inv calls
  guarantee := Guarantee
  idle _ _ := True

end Application

end NexusOps.Core
