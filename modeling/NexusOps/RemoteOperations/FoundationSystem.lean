import NexusOps.Concurrency.History
import NexusOps.Concurrency.RelyGuarantee
import NexusOps.RemoteOperations.Foundation

/-!
# Interleavings of the remote operation foundation

The foundation on its own, used by any number of concurrent calls: executions
with any revalidator and transport, holders of lifecycle guards, and the calls
that publish, discard and revoke plans or seal the store.

`FoundationState.Inv` is what holds in every interleaving, and
`FoundationState.Guarantee` what a step of a call does: it leaves the gates, the
permit and the trace of every other call alone, and its effect on the authority
store is that of a locked section of the store.
-/

namespace NexusOps.RemoteOperations

open Concurrency

variable {O : Type} [NativeOperation O]

variable (O) in
/-- The shared state: the foundation, the clock, the cancelled tokens, and the
    log. -/
structure FoundationState where
  foundation : Foundation O
  clock : Instant
  cancelled : CancellationToken → Bool
  log : List (FoundationEvent O)

instance : HasFoundation (FoundationState O) O where
  foundation := FoundationState.foundation
  setFoundation s F := { s with foundation := F }
  now := FoundationState.clock
  isCancelled := FoundationState.cancelled
  record s e := { s with log := s.log ++ [e] }

namespace FoundationState

variable (s : FoundationState O)

@[simp] theorem foundation_eq : RemoteOperations.foundation s = s.foundation := rfl

@[simp] theorem setFoundation_eq (F : Foundation O) :
    setFoundation s F = { s with foundation := F } := rfl

@[simp] theorem now_eq : now s = s.clock := rfl

@[simp] theorem isCancelled_eq (token : CancellationToken) :
    isCancelled s token = s.cancelled token := rfl

@[simp] theorem record_eq (e : FoundationEvent O) :
    record s e = { s with log := s.log ++ [e] } := rfl

end FoundationState

variable (O) in
/-- The calls. -/
inductive FoundationCall
  | execute (o : O) (id : RemoteOperationPlanId) (binding : AuthorityBinding)
      (token : CancellationToken)
  | lifecycleGuard (host : HostId)
  | tryLifecycleGuard (host : HostId)
  | plan {o : O} (draft : PlanDraft o) (current : AuthorityBinding)
  | discard (o : O) (id : RemoteOperationPlanId) (binding : AuthorityBinding)
  | revokeHost (host : HostId)
  | revokeSession (host : HostId) (session : HostSessionId)
  | beginShutdown

/-- The call is an execution. -/
def FoundationCall.IsExecution (call : FoundationCall O) : Prop :=
  ∃ o id binding token, call = execute o id binding token

namespace FoundationState

open RemoteOperationFoundation

/-- Any revalidator with any transport. -/
def anyExecution (o : O) : Execution (FoundationState O) o Unit where
  revalidate _ := .ask (Except AppError Unit)
  dispatch _ := .ask MutationTransportOutcome
  dropDispatchGuard _ := pure ()

/-- What happens besides the calls: time passes, tokens are cancelled, and plans
    expire. -/
inductive Env : FoundationState O → FoundationState O → Prop
  | tick (s : FoundationState O) (clock : Instant) (h : s.clock ≤ clock) :
      Env s { s with clock := clock }
  | cancel (s : FoundationState O) (token : CancellationToken) :
      Env s { s with cancelled := Function.update s.cancelled token true }
  | expire (s : FoundationState O) (id : RemoteOperationPlanId) (expires : Instant)
      (h : expires ≤ s.clock) : Env s (setStore s (s.foundation.authorities.state.expire id expires))

/-! ## The invariant -/

/-- The events of a call. -/
def ownTrace (s : FoundationState O) (t : TaskId) : List (FoundationEvent O) :=
  trace FoundationEvent.task t s.log

/-- A dispatch comes after everything it requires, and is the only one of its
    call. -/
def DispatchRule (t : TaskId) (pre : List (FoundationEvent O)) (e : FoundationEvent O) : Prop :=
  ∀ o (a : ConsumedAuthority o), e = .dispatched t o a →
    (∃ token, [.consumed t o a, .revalidated t, .unsealed t, .uncancelled t token].Sublist pre) ∧
      ∀ o' (a' : ConsumedAuthority o'), .dispatched t o' a' ∉ pre

/-- What holds of a call with the trace `L`. -/
structure CallOk (F : Foundation O) (t : TaskId) (L : List (FoundationEvent O)) : Prop where
  /-- From its admission to its return, it holds the gate of the host and the
      permit. -/
  holds : ∀ host, .admitted t host ∈ L → (∀ r, .returned t r ∉ L) →
    F.hostGates host = some (.execution t) ∧ F.globalPermit = some t
  dispatches : Justified (DispatchRule t) L
  /-- If it fails, it has not consumed anything. -/
  failed : ∀ e, .returned t (.error e) ∈ L → ∀ o (a : ConsumedAuthority o), .consumed t o a ∉ L

/-- The invariant. -/
structure Inv (s : FoundationState O) : Prop where
  valid : s.foundation.authorities.Valid
  /-- A consumed plan is gone for good. -/
  gone : ∀ t o (a : ConsumedAuthority o), .consumed t o a ∈ s.log →
    a.id ∈ s.foundation.authorities.issued ∧ s.foundation.authorities.state.pending.get a.id = none
  /-- A plan is consumed by one call at most. -/
  unique : ∀ t t' o o' (a : ConsumedAuthority o) (a' : ConsumedAuthority o'),
    .consumed t o a ∈ s.log → .consumed t' o' a' ∈ s.log → a.id = a'.id → t = t'
  call : ∀ t, CallOk s.foundation t (s.ownTrace t)

variable {s s' : FoundationState O} {t : TaskId} {L : List (FoundationEvent O)}

/-! ## The system -/

variable [DecidableEq O]

/-- The program of a call. A guard is held until its holder is told to drop it. -/
def program (t : TaskId) : FoundationCall O → Proc (FoundationState O) Unit
  | .execute o id binding token => do
    let _ ← RemoteOperationFoundation.execute t o id binding (anyExecution o) token
  | .lifecycleGuard host => do
    RemoteOperationFoundation.lifecycleGuard t host
    .ask Unit
    dropGuard host
  | .tryLifecycleGuard host => do
    match ← RemoteOperationFoundation.tryLifecycleGuard t host with
    | .error _ => return
    | .ok () =>
      .ask Unit
      dropGuard host
  | .plan draft current => do
    let _ ← RemoteOperationFoundation.plan t draft current
  | .discard o id binding => do
    let _ ← RemoteOperationFoundation.discard o id binding
  | .revokeHost host => do
    let _ ← RemoteOperationFoundation.revokeHost host
  | .revokeSession host session => do
    let _ ← RemoteOperationFoundation.revokeSession host session
  | .beginShutdown => RemoteOperationFoundation.beginShutdown

/-- The foundation and its concurrent calls: `calls t` is the one made by the task
    `t`, if it is started. -/
def system (calls : TaskId → FoundationCall O) : System TaskId (FoundationState O) where
  init s := s.foundation = ⟨⟨.default, ∅⟩, fun _ => none, none⟩ ∧ s.log = []
  entry t p := p = program t (calls t)
  env := Env

/-! ## The protocol -/

/-- What a step of the call `t` does. -/
structure Guarantee (calls : TaskId → FoundationCall O) (t : TaskId) (s s' : FoundationState O) : Prop where
  log : ∃ es, s'.log = s.log ++ es ∧ ∀ e ∈ es, e.task = t
  /-- The gates held by other calls remain so, and none is locked for them. -/
  gates : ∀ host holder, holder.task ≠ t →
    (s'.foundation.hostGates host = some holder ↔ s.foundation.hostGates host = some holder)
  permit : ∀ t', t' ≠ t →
    (s'.foundation.globalPermit = some t' ↔ s.foundation.globalPermit = some t')
  store : s'.foundation.authorities = s.foundation.authorities ∨
    ∃ e, (AuthorityStore.machine O PLAN_TTL).step s.foundation.authorities e
      s'.foundation.authorities
  clock : s'.clock = s.clock
  /-- An execution only removes what it consumes, or what has expired. -/
  pending : (calls t).IsExecution → ∀ id a,
    s.foundation.authorities.state.pending.get id = some a → s.clock < a.expiresAt → s'.foundation.authorities.state.pending.get id = some a ∨
      ∃ o c, .consumed t o c ∈ s'.log

/-- The protocol of the calls. A call that has not started has no events. -/
def protocol (calls : TaskId → FoundationCall O) : Protocol (system calls) where
  inv := Inv
  guarantee := Guarantee calls
  idle t s := s.ownTrace t = []

end FoundationState

end NexusOps.RemoteOperations
