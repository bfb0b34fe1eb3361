import NexusOps.RemoteOperations.Systemd

/-!
# Service inventories

The services of a host, as read over one of its connections. An entry has, for
each of the systemd operations, the id under which it may be planned for the
service (`reset_failed_observation_id` and so on), if any.
-/

namespace NexusOps

open RemoteOperations

/-- A service. -/
structure ServiceEntry where
  unit : String
  loadState : String
  activeState : String
  subState : String
  description : String
  canStart : Bool
  canReload : Bool
  observationIds : SystemdOperation → Option ServiceObservationId

/-- The services of a host, observed in a session. -/
structure ServiceSnapshot where
  hostId : HostId
  hostSessionId : HostSessionId
  observedAt : String
  entries : List ServiceEntry

/-- The service is in the state the operation requires. -/
def ServiceEntry.matches (entry : ServiceEntry) : (o : SystemdOperation) → o.Preconditions → Bool
  | .resetFailed, p => SystemdResetFailedPreconditions.matches p entry.loadState entry.activeState
      entry.subState
  | .tryRestart, p => SystemdTryRestartPreconditions.matches p entry.loadState entry.activeState
      entry.subState
  | .reload, p => SystemdReloadPreconditions.matches p entry.loadState entry.activeState
      entry.subState entry.canReload
  | .start, p => SystemdStartPreconditions.matches p entry.loadState entry.activeState
      entry.subState entry.canStart

/-- The inventory has the unit `unit` in the state the operation requires. -/
def ServiceSnapshot.Shows (snapshot : ServiceSnapshot) (o : SystemdOperation)
    (unit : SystemdServiceUnitName) : Prop :=
  ∃ entry ∈ snapshot.entries, entry.unit = unit.value ∧ entry.matches o o.preconditions = true

/-- The ids of an entry do not affect what it allows. -/
theorem ServiceEntry.matches_observationIds (entry : ServiceEntry) (o : SystemdOperation)
    (p : o.Preconditions) (ids : SystemdOperation → Option ServiceObservationId) :
    { entry with observationIds := ids }.matches o p = entry.matches o p := by
  cases o <;> rfl

end NexusOps
