import NexusOps.Model.Basic

/-!
# Sessions

The states of the connection to a host and the transitions between them
(`ConnectionState::transition`), and what a session shows of its host. The parts
of a session that are only displayed (the host's identity, capabilities and
discovery) are left out.
-/

namespace NexusOps

/-- The states of a connection. -/
inductive ConnectionState
  | disconnected
  | connecting
  | awaitingTrust
  | connected
  | disconnecting
  | failed
  deriving DecidableEq, Repr

namespace ConnectionState

/-- The transitions from one state to another one. -/
def allowed : ConnectionState → ConnectionState → Bool
  | disconnected, connecting | failed, connecting | awaitingTrust, connecting => true
  | connecting, connected | connecting, awaitingTrust | connecting, failed
  | connecting, disconnecting => true
  | connected, disconnecting | connected, failed => true
  | disconnecting, disconnected | disconnecting, failed => true
  | awaitingTrust, disconnected | failed, disconnected => true
  | _, _ => false

/-- Goes to the state `next`, if it may. -/
def transition (self next : ConnectionState) : Except AppError ConnectionState :=
  if self = next ∨ allowed self next = true then .ok next
  else .error (.new .conflict "Invalid connection state transition.")

/-- There is no connection, and none is being established or ended. -/
def Quiescent (state : ConnectionState) : Prop :=
  state = disconnected ∨ state = awaitingTrust ∨ state = failed

instance (state : ConnectionState) : Decidable state.Quiescent :=
  inferInstanceAs (Decidable (_ ∨ _))

theorem quiescent_iff {state : ConnectionState} : state.Quiescent ↔
    state ≠ connecting ∧ state ≠ connected ∧ state ≠ disconnecting := by
  cases state <;> decide

/-- A connection can be started when there is none. -/
theorem Quiescent.transition {state : ConnectionState} (h : state.Quiescent) :
    state.transition connecting = .ok connecting := by
  rcases h with rfl | rfl | rfl <;> rfl

end ConnectionState

/-- What a session shows. -/
structure HostSession where
  hostId : HostId
  hostSessionId : Option HostSessionId
  state : ConnectionState
  error : Option AppError
  deriving DecidableEq, Repr

/-- The session of a host without a connection. -/
def HostSession.disconnected (hostId : HostId) : HostSession := ⟨hostId, none, .disconnected, none⟩

end NexusOps
