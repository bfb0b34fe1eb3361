import NexusOps.Model.Basic

/-!
# Authorities

An *authority* is the right to run one planned native operation once, over one
authenticated connection. The operation types are a closed family: `O` is the
type of their names, standing for their `TypeId`s, and `NativeOperation O`
gives, for each, what it acts on and its risk.

A stored authority erases the operation type (`body`, a `Box<dyn Any>`): it is
recovered, by comparing the type names, when the authority is consumed
(`StoredAuthority.intoTyped`).
-/

namespace NexusOps.RemoteOperations

/-- The connection binding that identifies an authenticated backend session. -/
structure AuthorityBinding where
  hostId : HostId
  hostSessionId : HostSessionId
  generation : Nat
  deriving DecidableEq, Repr

/-- The native operation types, named by `O`. -/
class NativeOperation (O : Type) where
  /-- What an operation acts on. -/
  Target : O → Type
  /-- What must hold for it to be run. -/
  Preconditions : O → Type
  /-- What else it needs. -/
  Payload : O → Type
  /-- Its reviewed risk. -/
  RISK : O → OperationRisk

export NativeOperation (Target Preconditions Payload RISK)

variable {O : Type} [NativeOperation O]

/-- A plan before it is published. -/
structure PlanDraft (o : O) where
  binding : AuthorityBinding
  target : Target o
  preconditions : Preconditions o
  payload : Payload o

/-- The typed part of an authority. -/
structure AuthorityBody (o : O) where
  target : Target o
  preconditions : Preconditions o
  payload : Payload o

variable (O) in
/-- An authority, waiting to be used. -/
structure StoredAuthority where
  id : RemoteOperationPlanId
  binding : AuthorityBinding
  operationType : O
  risk : OperationRisk
  issuedAt : Instant
  expiresAt : Instant
  body : Σ o : O, AuthorityBody o

/-- An authority moved out of the store for good. -/
structure ConsumedAuthority (o : O) where
  id : RemoteOperationPlanId
  binding : AuthorityBinding
  risk : OperationRisk
  issuedAt : Instant
  expiresAt : Instant
  target : Target o
  preconditions : Preconditions o
  payload : Payload o

/-- What a published plan shows. -/
structure PlanReceipt where
  id : RemoteOperationPlanId
  binding : AuthorityBinding
  risk : OperationRisk
  issuedAt : Instant
  expiresAt : Instant
  superseded : Option RemoteOperationPlanId
  deriving DecidableEq, Repr

namespace StoredAuthority

/-- The authority of a draft. -/
def new {o : O} (id : RemoteOperationPlanId) (draft : PlanDraft o) (issuedAt expiresAt : Instant) :
    StoredAuthority O where
  id := id
  binding := draft.binding
  operationType := o
  risk := RISK o
  issuedAt := issuedAt
  expiresAt := expiresAt
  body := ⟨o, draft.target, draft.preconditions, draft.payload⟩

/-- The authority, given its body in its own type. -/
def typed {o : O} (a : StoredAuthority O) (body : AuthorityBody o) : ConsumedAuthority o where
  id := a.id
  binding := a.binding
  risk := a.risk
  issuedAt := a.issuedAt
  expiresAt := a.expiresAt
  target := body.target
  preconditions := body.preconditions
  payload := body.payload

/-- The authority with the type of its body: what there is to be consumed. -/
def grant (a : StoredAuthority O) : Σ o : O, ConsumedAuthority o := ⟨a.body.1, a.typed a.body.2⟩

/-- The authority as one of the operation type `o`, if that is the type of its body. -/
def intoTyped [DecidableEq O] (o : O) (a : StoredAuthority O) : Option (ConsumedAuthority o) :=
  if h : a.body.1 = o then some (a.typed (h ▸ a.body.2)) else none

theorem intoTyped_eq_some [DecidableEq O] {o : O} {a : StoredAuthority O} {c : ConsumedAuthority o} :
    a.intoTyped o = some c ↔ a.grant = ⟨o, c⟩ := by
  obtain ⟨_, _, _, _, _, _, o', b⟩ := a
  by_cases h : o' = o
  · subst h
    simp [intoTyped, grant]
  · simp [intoTyped, grant, h]

theorem of_grant_eq {o : O} {a : StoredAuthority O} {c : ConsumedAuthority o}
    (h : a.grant = ⟨o, c⟩) :
    c.id = a.id ∧ c.binding = a.binding ∧ c.expiresAt = a.expiresAt := by
  obtain ⟨_, _, _, _, _, _, o', b⟩ := a
  cases h
  exact ⟨rfl, rfl, rfl⟩

end StoredAuthority

end NexusOps.RemoteOperations
