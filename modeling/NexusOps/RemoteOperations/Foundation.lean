import NexusOps.Concurrency.Process
import NexusOps.RemoteOperations.Outcome
import NexusOps.RemoteOperations.StoreHistory

/-!
# The remote operation foundation

Admission, the authority store and the execution of plans
(`RemoteOperationFoundation`). The calls are tasks on a shared state: what is done
under one lock is an atomic section, and what is awaited of the revalidator and
the transport is given by tasks of their own.

The foundation is embedded in the state `σ` of whoever uses it (`HasFoundation`).
Besides what the code keeps, that state has a log, to which the calls add what
they have done.
-/

namespace NexusOps.RemoteOperations

open Concurrency Function

/-- Who has locked the gate of a host: a lifecycle guard or an execution. -/
inductive GateHolder
  | lifecycle (task : TaskId)
  | execution (task : TaskId)
  deriving DecidableEq, Repr

/-- The task that holds a gate. -/
def GateHolder.task : GateHolder → TaskId
  | lifecycle t => t
  | execution t => t

/-- A gate is locked or unlocked for the task `t`. -/
theorem gates_update {t : TaskId} {gates : HostId → Option GateHolder} {host : HostId}
    {holder : Option GateHolder} (hold : ∀ g ∈ gates host, g.task = t)
    (hnew : ∀ g ∈ holder, g.task = t) (host' : HostId) (g : GateHolder) (hg : g.task ≠ t) :
    update gates host holder host' = some g ↔ gates host' = some g := by
  by_cases hh : host' = host
  · subst hh
    rw [update_self]
    exact ⟨fun h => absurd (hnew g h) hg, fun h => absurd (hold g h) hg⟩
  · rw [update_of_ne hh]

variable {O : Type} [NativeOperation O]

variable (O) in
/-- The state of the foundation: the authority store, the gates of the hosts
    (created when first used, so an unused one is free) and the holder of the only
    permit of the global semaphore. -/
structure Foundation where
  authorities : AuthorityStore O
  hostGates : HostId → Option GateHolder
  globalPermit : Option TaskId

variable (O) in
/-- What a call logs. -/
inductive FoundationEvent
  /-- `execute` has been admitted for the host. -/
  | admitted (t : TaskId) (host : HostId)
  /-- A plan has been published. -/
  | planned (t : TaskId) (o : O) (draft : PlanDraft o) (id : RemoteOperationPlanId)
  /-- `execute` has consumed an authority. -/
  | consumed (t : TaskId) (o : O) (authority : ConsumedAuthority o)
  /-- The revalidator has returned `Ok`. -/
  | revalidated (t : TaskId)
  /-- The store has been seen unsealed, after revalidation. -/
  | unsealed (t : TaskId)
  /-- The token has been seen not cancelled, after revalidation. -/
  | uncancelled (t : TaskId) (token : CancellationToken)
  /-- `dispatch` is called. -/
  | dispatched (t : TaskId) (o : O) (authority : ConsumedAuthority o)
  /-- `execute` returns. -/
  | returned (t : TaskId) (result : Except AppError ExecutionResult)

/-- The task that has logged an event. -/
def FoundationEvent.task : FoundationEvent O → TaskId
  | admitted t _ => t
  | planned t _ _ _ => t
  | consumed t _ _ => t
  | revalidated t => t
  | unsealed t => t
  | uncancelled t _ => t
  | dispatched t _ _ => t
  | returned t _ => t

/-- A state that contains a foundation, with a clock, cancellation tokens and a
    log. -/
class HasFoundation (σ : Type) (O : outParam Type) [NativeOperation O] where
  foundation : σ → Foundation O
  setFoundation : σ → Foundation O → σ
  now : σ → Instant
  isCancelled : σ → CancellationToken → Bool
  record : σ → FoundationEvent O → σ

export HasFoundation (foundation setFoundation now isCancelled record)

/-- Another remote operation is in progress. -/
def busy : AppError := .new .conflict "Another remote operation is already in progress."

namespace RemoteOperationFoundation

variable {σ : Type} [HasFoundation σ O]

/-! ## Sections -/

/-- Locks the gate of a host, if it is free. -/
def lockGate (s : σ) (host : HostId) (holder : GateHolder) : Option σ :=
  if (foundation s).hostGates host = none then
    some (setFoundation s { foundation s with
      hostGates := update (foundation s).hostGates host (some holder) })
  else none

theorem lockGate_eq_some {s s' : σ} {host : HostId} {holder : GateHolder} :
    lockGate s host holder = some s' ↔ (foundation s).hostGates host = none ∧
      s' = setFoundation s { foundation s with
        hostGates := update (foundation s).hostGates host (some holder) } := by
  rw [lockGate]
  split_ifs with h
  · rw [Option.some.injEq, eq_comm]
    exact (and_iff_right h).symm
  · simp [h]

/-- Unlocks the gate of a host. -/
def unlockGate (s : σ) (host : HostId) : σ :=
  setFoundation s { foundation s with
    hostGates := update (foundation s).hostGates host none }

/-- Sets the holder of the global permit. -/
def setPermit (s : σ) (holder : Option TaskId) : σ :=
  setFoundation s { foundation s with globalPermit := holder }

/-- Sets the state of the authority store. -/
def setStore (s : σ) (store : StoreState O) : σ :=
  setFoundation s { foundation s with
    authorities := { (foundation s).authorities with state := store } }

/-! ## Calls -/

/-- Whether the store is sealed. -/
def isSealed : Proc σ Bool := .read fun s => (foundation s).authorities.state.sealed

/-- Waits for the gate of a host, and locks it. -/
def lifecycleGuard (t : TaskId) (host : HostId) : Proc σ Unit :=
  .act fun s => (lockGate s host (.lifecycle t)).map fun s' => ((), s')

/-- Locks the gate of a host, if it is free. -/
def tryLifecycleGuard (t : TaskId) (host : HostId) : Proc σ (Except AppError Unit) :=
  .act fun s => match lockGate s host (.lifecycle t) with
    | some s' => some (.ok (), s')
    | none => some (.error busy, s)

/-- Drops the guard of a host. -/
def dropGuard (host : HostId) : Proc σ Unit := .modify fun s => unlockGate s host

/-- Logs the publication of a plan. -/
def recordPlanned (t : TaskId) {o : O} (draft : PlanDraft o) (s : σ) :
    Except AppError PlanReceipt → σ
  | .ok receipt => record s (.planned t o draft receipt.id)
  | .error _ => s

/-- The section that publishes a plan, under an id that has not been used before. -/
def planSection (t : TaskId) {o : O} (draft : PlanDraft o) (current : AuthorityBinding)
    (issuedAt : Instant) (id : RemoteOperationPlanId) (s : σ) :
    Option (Except AppError PlanReceipt × σ) :=
  let store := (foundation s).authorities
  if id ∈ store.issued then none
  else
    let (result, state) := store.state.insert PLAN_TTL draft current issuedAt id
    let s' := setFoundation s { foundation s with authorities := ⟨state, insert id store.issued⟩ }
    some (result, recordPlanned t draft s' result)

theorem planSection_eq_some [DecidableEq O] {t : TaskId} {o : O} {draft : PlanDraft o}
    {current : AuthorityBinding} {issuedAt : Instant} {id : RemoteOperationPlanId} {s s' : σ}
    {r : Except AppError PlanReceipt}
    (h : planSection t draft current issuedAt id s = some (r, s')) :
    ∃ state, (AuthorityStore.machine O PLAN_TTL).step (foundation s).authorities
        (.insert draft current issuedAt id r) ⟨state, insert id (foundation s).authorities.issued⟩ ∧
      s' = recordPlanned t draft (setFoundation s { foundation s with
        authorities := ⟨state, insert id (foundation s).authorities.issued⟩ }) r := by
  rw [planSection] at h
  split_ifs at h with hid
  cases hins : (foundation s).authorities.state.insert PLAN_TTL draft current issuedAt id with
  | mk r' state =>
    simp only [hins] at h
    obtain ⟨⟩ := h
    refine ⟨state, ⟨hins, ?_, ?_⟩, rfl⟩
    · intro id' hid'
      exact Option.some.inj hid' ▸ hid
    · rw [StoreEvent.newId, Finset.insert_eq, Finset.union_comm]
      rfl

/-- Publishes a plan. The id is drawn at random. -/
def plan (t : TaskId) {o : O} (draft : PlanDraft o) (current : AuthorityBinding) :
    Proc σ (Except AppError PlanReceipt) := do
  let issuedAt ← .read now
  let id ← .ask RemoteOperationPlanId
  .act (planSection t draft current issuedAt id)

/-- A locked section of the authority store. -/
def storeSection {β : Type} (f : StoreState O → β × StoreState O) : Proc σ β :=
  .act fun s =>
    let (result, state) := f (foundation s).authorities.state
    some (result, setStore s state)

/-- Discards a plan. -/
def discard [DecidableEq O] (o : O) (id : RemoteOperationPlanId) (binding : AuthorityBinding) :
    Proc σ (Except AppError Bool) := do
  let instant ← .read now
  storeSection fun store => store.discard o id binding instant

/-- Revokes the plan of a host. -/
def revokeHost (host : HostId) : Proc σ Bool := storeSection fun store => store.revokeHost host

/-- Revokes the plan of a session. -/
def revokeSession (host : HostId) (session : HostSessionId) : Proc σ Bool :=
  storeSection fun store => store.revokeSession host session

/-- Seals the store. -/
def beginShutdown : Proc σ Unit := storeSection fun store => ((), store.sealAndRevokeAll)

/-! ## Execution -/

/-- Admits an execution for a host, unless the host or the global permit is
    taken. -/
def tryExecute (t : TaskId) (host : HostId) : Proc σ (Except AppError Unit) := do
  let locked ← .act fun s => match lockGate s host (.execution t) with
    | some s' => some (true, s')
    | none => some (false, s)
  if locked then
    let acquired ← .act fun s =>
      if (foundation s).globalPermit = none then
        some (true, record (setPermit s (some t)) (.admitted t host))
      else some (false, s)
    if acquired then
      return .ok ()
    else
      dropGuard host
      return .error busy
  else
    return .error busy

/-- Drops the permit of an execution, which returns. -/
def dropPermit (t : TaskId) (host : HostId) (result : Except AppError ExecutionResult) :
    Proc σ Unit := do
  .modify fun s => record (unlockGate s host) (.returned t result)
  .modify fun s => setPermit s none

/-- Logs the consumption of a plan. -/
def recordConsumed (t : TaskId) {o : O} (s : σ) : Except AppError (ConsumedAuthority o) → σ
  | .ok authority => record s (.consumed t o authority)
  | .error _ => s

/-- The section that consumes a plan. -/
def consumeSection [DecidableEq O] (t : TaskId) (o : O) (id : RemoteOperationPlanId)
    (binding : AuthorityBinding) (instant : Instant) (s : σ) :
    Option (Except AppError (ConsumedAuthority o) × σ) :=
  let (result, state) := (foundation s).authorities.state.consume o id binding instant
  some (result, recordConsumed t (setStore s state) result)

theorem consumeSection_eq_some [DecidableEq O] {t : TaskId} {o : O} {id : RemoteOperationPlanId}
    {binding : AuthorityBinding} {instant : Instant} {s s' : σ}
    {r : Except AppError (ConsumedAuthority o)}
    (h : consumeSection t o id binding instant s = some (r, s')) :
    ∃ state, (foundation s).authorities.state.consume o id binding instant = (r, state) ∧
      s' = recordConsumed t (setStore s state) r := by
  rw [consumeSection] at h
  cases hc : (foundation s).authorities.state.consume o id binding instant with
  | mk r' state =>
    simp only [hc] at h
    obtain ⟨⟩ := h
    exact ⟨state, rfl, rfl⟩

/-- Consumes a plan. -/
def consume [DecidableEq O] (t : TaskId) (o : O) (id : RemoteOperationPlanId)
    (binding : AuthorityBinding) : Proc σ (Except AppError (ConsumedAuthority o)) := do
  let instant ← .read now
  .act (consumeSection t o id binding instant)

/-- The result of an execution cancelled before it dispatched anything. -/
def cancelledBeforeDispatch : ExecutionResult := ⟨.cancelled, .cancelledBeforeDispatch⟩

/-- Whether the store is sealed or the token is cancelled. -/
def mustStop (t : TaskId) (token : CancellationToken) : Proc σ Bool := do
  let isSealed ← .act fun s =>
    if (foundation s).authorities.state.sealed then some (true, s)
    else some (false, record s (.unsealed t))
  if isSealed then
    return true
  else
    .act fun s =>
      if isCancelled s token then some (true, s)
      else some (false, record s (.uncancelled t token))

/-- What the revalidator and the transport of an execution do: `γ` is what the
    revalidator locks until the end of the dispatch. -/
structure Execution (σ : Type) (o : O) (γ : Type) where
  revalidate : ConsumedAuthority o → Proc σ (Except AppError γ)
  dispatch : ConsumedAuthority o → Proc σ MutationTransportOutcome
  dropDispatchGuard : γ → Proc σ Unit

variable {o : O} {γ : Type}

/-- The execution of a consumed authority. -/
def executeConsumed (t : TaskId) (x : Execution σ o γ) (token : CancellationToken)
    (authority : ConsumedAuthority o) : Proc σ ExecutionResult := do
  if ← .read fun s => isCancelled s token then
    return cancelledBeforeDispatch
  else
    match ← x.revalidate authority with
    | .error _ =>
      if ← .read fun s => isCancelled s token then
        return cancelledBeforeDispatch
      else
        return ⟨.failed, .revalidationFailed⟩
    | .ok guard =>
      .modify fun s => record s (.revalidated t)
      if ← mustStop t token then
        x.dropDispatchGuard guard
        return cancelledBeforeDispatch
      else
        .modify fun s => record s (.dispatched t o authority)
        let outcome ← x.dispatch authority
        x.dropDispatchGuard guard
        return ⟨outcome.operationOutcome, .transport outcome⟩

variable [DecidableEq O]

/-- The part of `execute` that holds the permit. -/
def executeAdmitted (t : TaskId) (o : O) (id : RemoteOperationPlanId) (binding : AuthorityBinding)
    (x : Execution σ o γ) (token : CancellationToken) :
    Proc σ (Except AppError ExecutionResult) := do
  if ← isSealed then
    return .error StoreState.shuttingDown
  else
    match ← consume t o id binding with
    | .error e => return .error e
    | .ok authority =>
      let result ← executeConsumed t x token authority
      return .ok result

/-- Executes a plan. -/
def execute (t : TaskId) (o : O) (id : RemoteOperationPlanId) (binding : AuthorityBinding)
    (x : Execution σ o γ) (token : CancellationToken) :
    Proc σ (Except AppError ExecutionResult) := do
  if ← isSealed then
    .modify fun s => record s (.returned t (.error StoreState.shuttingDown))
    return .error StoreState.shuttingDown
  else
    match ← tryExecute t binding.hostId with
    | .error e =>
      .modify fun s => record s (.returned t (.error e))
      return .error e
    | .ok () =>
      let result ← executeAdmitted t o id binding x token
      dropPermit t binding.hostId result
      return result

end RemoteOperationFoundation

end NexusOps.RemoteOperations
