import NexusOps.Core.Application

/-!
# Connecting and disconnecting

The calls that establish, observe and end the connection to a host
(`connect_host`, `get_session`, `disconnect_host`, `refresh_host`). The network is
used outside of every lock: what comes of it is recorded in a section of its own,
which first checks that the slot is still the one the work was started for.
-/

namespace NexusOps.Core.Application

open Concurrency RemoteOperations

/-! ## `connect_host` -/

/-- What is remembered of a slot while the network is used. -/
structure Attempt where
  slot : SlotId
  generation : Nat
  cancel : CancellationToken

/-- The host cannot be connected now. -/
def alreadyConnected : AppError :=
  .new .conflict "This host is already connecting or connected."

/-- Sets the slot to connecting. -/
def beginConnect (t : TaskId) (id : HostId) (slot : SlotId) (cancel : CancellationToken)
    (data : SessionData) (s : Application) : Option (Except AppError Attempt × Application) :=
  if data.view.state = .connecting ∨ data.view.state = .connected ∨
      data.view.state = .disconnecting then
    some (.error alreadyConnected, s)
  else match data.view.state.transition .connecting with
    | .error e => some (.error e, s.note (.transitionFailed t))
    | .ok state =>
      if cancel ∈ s.tokens then none
      else data.bump.map fun data =>
        let next : SessionData := { data with
          cancel := cancel
          view := { HostSession.disconnected id with state := state }
          transport := none
          connectionId := none
          refreshing := false }
        (.ok ⟨slot, next.generation, cancel⟩, { (s.cancelToken data.cancel).setSlot slot next with
          tokens := insert cancel s.tokens
          attempts := Function.update s.attempts slot (some t)
          log := s.log ++ [.connecting t id] })

/-- The part of `connect_host` before the network is used. -/
def prepareConnect (t : TaskId) (id : HostId) : App Attempt := do
  revokeHost id
  withMutation t do
    let _ ← repositoryGet id
    removeRotationPlan id
    let slot ← slotOf id
    let cancel ← .ask CancellationToken
    slotSection slot (beginConnect t id slot cancel)

/-- The connection was closed early. -/
def closedDuringDiscovery : AppError :=
  .new .connection "The SSH connection closed during discovery."

/-- Connects to the host: the credential, the handshake, the discovery and the pinned
    key of the host are awaited in turn. -/
def establish : App TransportId := do
  .await Unit
  let transport ← .await TransportId
  .await Unit
  let closed ← .read fun s => s.closed transport
  .ensure (closed = false) closedDuringDiscovery
  .await Unit
  return transport

/-- Records how an attempt has ended. `audit` is the reply of the audit log. -/
def finishConnect (t : TaskId) (id : HostId) (attempt : Attempt)
    (outcome : Except AppError TransportId) (session : HostSessionId)
    (audit : Except AppError Unit) (data : SessionData) (s : Application) :
    Option (Except AppError Unit × Application) :=
  if data.generation ≠ attempt.generation ∨ s.cancelled attempt.cancel = true then
    some (audit.bind fun _ => .error cancelledError, s)
  else match outcome with
    | .ok transport => match data.view.state.transition .connected with
      | .error e => some (.error e, s.note (.transitionFailed t))
      | .ok state =>
        if session ∈ s.sessionIds then none
        else
          let data : SessionData := { data with
            view := { data.view with state := state, hostSessionId := some session }
            transport := some transport
            connectionId := some session }
          some (audit, { s.setSlot attempt.slot data with
            sessionIds := insert session s.sessionIds
            log := s.log ++ [.connected t id session transport] })
    | .error error =>
      let next := if error.code = .unknownHostKey then ConnectionState.awaitingTrust else .failed
      match data.view.state.transition next with
      | .error e => some (.error e, s.note (.transitionFailed t))
      | .ok state =>
        let data : SessionData := { data with
          view := { data.view with state := state, error := some error }
          transport := none }
        some (audit.bind fun _ => .error error,
          (s.setSlot attempt.slot data).note (.failed t id state))

/-- Connects a host. -/
def connectHost (t : TaskId) (id : HostId) : App Unit := do
  let attempt ← withLifecycleGuard t id (prepareConnect t id)
  let outcome ← .lift establish.run
  let session ← .ask HostSessionId
  let audit ← .ask (Except AppError Unit)
  slotSection attempt.slot (finishConnect t id attempt outcome session audit)

/-! ## `get_session` -/

/-- The host has closed the connection. -/
def remotelyClosed : AppError := .new .connection
  "The remote host closed the SSH connection. Reconnect to continue."

/-- The transport of a connected slot has been closed. -/
def NeedsRemoteClose (data : SessionData) (s : Application) : Prop :=
  data.transport.any s.closed = true ∧ data.view.state = .connected

instance (data : SessionData) (s : Application) : Decidable (NeedsRemoteClose data s) :=
  inferInstanceAs (Decidable (_ ∧ _))

/-- Sets a connected slot whose transport has been closed to failed, and returns its
    connection. -/
def closeRemotely (t : TaskId) (slot : SlotId) (data : SessionData) (s : Application) :
    Option (Except AppError (HostSession × Option HostSessionId) × Application) :=
  if NeedsRemoteClose data s then
    data.bump.map fun data =>
      let closed : SessionData := { data with
        refreshing := false
        transport := none
        connectionId := none
        view := { data.view with hostSessionId := none } }
      let s := s.cancelToken data.cancel
      match data.view.state.transition .failed with
      | .error e => (.error e, (s.setSlot slot closed).note (.transitionFailed t))
      | .ok state =>
        let view : HostSession := { closed.view with state := state, error := some remotelyClosed }
        (.ok (view, data.connectionId), s.setSlot slot { closed with view := view })
  else some (.ok (data.view, none), s)

/-- Revokes what depends on a connection that has been closed. The reply of the
    file transfers is awaited. -/
def revokeConnection (id : HostId) : Option HostSessionId → App Unit
  | none => pure ()
  | some session => do
    let _ ← .lift (RemoteOperationFoundation.revokeSession id session)
    observationSection fun state => (.ok (), state.revokeSession id session)
    .await Unit

/-- The session of a host. -/
def getSession (t : TaskId) (id : HostId) : App HostSession := do
  let _ ← repositoryGet id
  let slot ← slotOf id
  let needsRemoteClose ← slotSection slot fun data s =>
    some (.ok (decide (NeedsRemoteClose data s)), s)
  if needsRemoteClose then
    withLifecycleGuard t id do
      let closed ← slotSection slot (closeRemotely t slot)
      revokeConnection id closed.2
      return closed.1
  else
    slotSection slot fun data s => some (.ok data.view, s)

/-! ## `disconnect_host` -/

/-- What is left to do to disconnect a host. -/
structure DisconnectWork where
  slot : SlotId
  connectionId : Option HostSessionId

/-- Sets the slot to disconnecting, if it is connecting or connected. -/
def beginDisconnect (t : TaskId) (id : HostId) (slot : SlotId) (data : SessionData)
    (s : Application) : Option (Except AppError DisconnectWork × Application) :=
  data.bump.map fun data =>
    let data : SessionData := { data with refreshing := false }
    let s := if data.view.state = .connecting then s.cancelToken data.cancel else s
    if data.view.state = .connecting ∨ data.view.state = .connected then
      match data.view.state.transition .disconnecting with
      | .error e => (.error e, (s.setSlot slot data).note (.transitionFailed t))
      | .ok state =>
        let data : SessionData := { data with view := { data.view with state := state } }
        (.ok ⟨slot, data.connectionId⟩, (s.setSlot slot data).note (.disconnecting t id))
    else (.ok ⟨slot, data.connectionId⟩, (s.setSlot slot data).note (.disconnecting t id))

/-- The part of a disconnection that is done under the metadata lock. -/
def prepareDisconnect (t : TaskId) (id : HostId) : App DisconnectWork := do
  revokeHost id
  removeRotationPlan id
  let slot ← slotOf id
  slotSection slot (beginDisconnect t id slot)

/-- Shows an error in a slot. -/
def showError (slot : SlotId) (e : AppError) (data : SessionData) (s : Application) :
    Option (Except AppError Unit × Application) :=
  some (.error e, s.setSlot slot { data with view := { data.view with error := some e } })

/-- Ends the file transfers over a connection. -/
def closeTransfers (slot : SlotId) : Option HostSessionId → App Unit
  | none => pure ()
  | some _ => do
    match ← .ask (Except AppError Unit) with
    | .ok () => return
    | .error e => slotSection slot (showError slot e)

/-- Sets the slot to disconnected, and returns its transport. -/
def endDisconnect (id : HostId) (slot : SlotId) (data : SessionData) (s : Application) :
    Option (Except AppError (Option TransportId) × Application) :=
  let disconnected : SessionData := { data with
    transport := none
    connectionId := none
    view := .disconnected id }
  some (.ok data.transport, (s.cancelToken data.cancel).setSlot slot disconnected)

/-- Disconnects a transport. -/
def disconnectTransport : Option TransportId → App Unit
  | none => pure ()
  | some _ => .await Unit

/-- The part of a disconnection that uses the network. -/
def finishDisconnect (id : HostId) (work : DisconnectWork) : App Unit := do
  closeTransfers work.slot work.connectionId
  let transport ← slotSection work.slot (endDisconnect id work.slot)
  disconnectTransport transport
  .await Unit

/-- Disconnects a host. -/
def disconnectHost (t : TaskId) (id : HostId) : App Unit :=
  withLifecycleGuard t id do
    let work ← withMutation t do
      let _ ← repositoryGet id
      prepareDisconnect t id
    finishDisconnect id work

/-- Disconnects a host, and connects it again. -/
def reconnectHost (t : TaskId) (id : HostId) : App Unit := do
  disconnectHost t id
  connectHost t id

/-! ## `refresh_host` -/

/-- The host cannot be refreshed now. -/
def notRefreshable : AppError :=
  .new .conflict "Connect this host and wait for the current discovery to finish."

/-- There is no transport. -/
def sessionUnavailable : AppError := .new .connection "SSH session is unavailable."

/-- Marks a connected slot as being refreshed. -/
def beginRefresh (slot : SlotId) (data : SessionData) (s : Application) :
    Option (Except AppError Attempt × Application) :=
  if data.view.state ≠ .connected ∨ data.refreshing = true then some (.error notRefreshable, s)
  else match data.transport with
    | none => some (.error sessionUnavailable, s)
    | some _ => some (.ok ⟨slot, data.generation, data.cancel⟩,
        s.setSlot slot { data with refreshing := true })

/-- Records the discovery. `audit` is the reply of the audit log. -/
def finishRefresh (attempt : Attempt) (outcome audit : Except AppError Unit) (data : SessionData)
    (s : Application) : Option (Except AppError Unit × Application) :=
  if data.generation ≠ attempt.generation ∨ s.cancelled attempt.cancel = true then
    some (audit.bind fun _ => .error cancelledError, s)
  else
    some (audit.bind fun _ => outcome, s.setSlot attempt.slot { data with refreshing := false })

/-- Discovers a connected host again. -/
def refreshHost (id : HostId) : App Unit := do
  let _ ← repositoryGet id
  let slot ← slotOf id
  let attempt ← slotSection slot (beginRefresh slot)
  let outcome ← .ask (Except AppError Unit)
  let audit ← .ask (Except AppError Unit)
  slotSection attempt.slot (finishRefresh attempt outcome audit)

end NexusOps.Core.Application
