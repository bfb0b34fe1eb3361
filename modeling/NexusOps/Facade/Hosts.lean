import NexusOps.Facade.Files

/-!
# Hosts and their connections

The calls that connect, observe and disconnect a host, and those that edit and delete it
(`connection.rs`, `lifecycle.rs`, `hosts.rs`), with the stores that they use. The sections on the
slot of a host are those of the application.

The key that a host presents is verified against the pinned keys as they are at that time. What
the network and the audit log reply is awaited, and so is whether a call of the repository
succeeds: it has no effect otherwise.
-/

namespace NexusOps.Facade

open Concurrency NexusOps.Core RemoteOperations Application

variable (droppable : Bool) (t : TaskId)

/-! ## `connect_host` -/

section

variable [IpAddrs]

/-- The handshake with a host and the authentication there (`SshProvider::connect`). The endpoint
    is brought into its canonical form once here, and once more when its key is verified. -/
def handshake (connection : HostConnectionConfig) : Task TransportId := do
  let endpoint ← .ofExcept (Ssh.canonicalEndpoint connection.hostname connection.port)
  let key ← reply droppable HostFingerprint
  let storage ← .ask Ssh.Storage
  locked droppable fun s =>
    let verdict := Ssh.verify storage s.pins endpoint connection.port key
    some (verdict, s.note (.presented t key verdict))
  reply droppable TransportId

/-- Connects to a host: its credential, the handshake and the discovery are awaited in turn. -/
def establish (host : Host) : Task TransportId := do
  reply droppable Unit
  let transport ← handshake droppable t host.connection
  reply droppable Unit
  let closed ← locked droppable fun s => some (.ok (s.app.closed transport), s)
  .ensure (closed = false) closedDuringDiscovery
  let storage ← .ask Ssh.Storage
  let _ ← locked droppable fun s => some
    (Ssh.fingerprint storage s.pins host.connection.hostname host.connection.port, s)
  return transport

/-- The part of `connect_host` before the network is used. -/
def prepareConnect (id : HostId) : Task (StoredHost × Attempt) :=
  withLifecycleGuard droppable t id do
    onApp droppable (revokeHost id)
    withMutation droppable t do
      let stored ← onApp droppable (repositoryGet id)
      onApp droppable (removeRotationPlan id)
      let slot ← onApp droppable (slotOf id)
      let cancel ← .ask CancellationToken
      let attempt ← onSlot droppable slot (beginConnect t id slot cancel)
        fun attempt => [.offered t id attempt stored.host.connection]
      return (stored, attempt)

/-- Connects a host. -/
def connectHost (id : HostId) : Task Unit := do
  let (stored, attempt) ← prepareConnect droppable t id
  clearMonitor droppable id
  let outcome ← .attempt (establish droppable t stored.host)
  let session ← .ask HostSessionId
  let audit ← .ask (Except AppError Unit)
  onSlot droppable attempt.slot
    (finishConnect t id attempt outcome session audit) fun _ => []

end

/-! ## `get_session` -/

/-- Disconnects the terminals of a connection (`disconnect_connection`). -/
def disconnectTerminals (id : HostId) (session : HostSessionId) : Task Unit :=
  update droppable (·.note (.terminalsDisconnected t id session))

/-- Revokes what depends on a connection that has been closed. -/
def revokeConnection (id : HostId) (session : HostSessionId) : Task Unit := do
  clearMonitor droppable id
  let _ ← onApp droppable (.lift (RemoteOperationFoundation.revokeSession id session))
  onApp droppable
    (observationSection fun state => (.ok (), state.revokeSession id session))
  closeSftp droppable t id session
  disconnectTerminals droppable t id session

/-- The session of a host. -/
def getSession (id : HostId) : Task HostSession := do
  let _ ← onApp droppable (repositoryGet id)
  let slot ← onApp droppable (slotOf id)
  let needsRemoteClose ← onSlot droppable slot
    (fun data s => some (.ok (decide (NeedsRemoteClose data s)), s)) fun _ => []
  if needsRemoteClose then
    withLifecycleGuard droppable t id do
      let (view, closed) ← onSlot droppable slot (closeRemotely t slot)
        fun (_, closed) => closed.toList.map (.remotelyClosed t id)
      match closed with
      | none => return view
      | some session =>
        revokeConnection droppable t id session
        return view
  else
    onSlot droppable slot (fun data s => some (.ok data.view, s)) fun _ => []

/-! ## `disconnect_host` -/

/-- The part of a disconnection that is done under the metadata lock. -/
def prepareDisconnect (id : HostId) : Task DisconnectWork := do
  onApp droppable (revokeHost id)
  onApp droppable (removeRotationPlan id)
  let slot ← onApp droppable (slotOf id)
  let work ← onSlot droppable slot (beginDisconnect t id slot) fun _ => []
  clearMonitor droppable id
  return work

/-- Ends what runs over a connection. If that fails, then the slot shows why, and keeps the
    connection. -/
def closeConnection (id : HostId) (work : DisconnectWork) : Task Unit :=
  match work.connectionId with
  | none => return ()
  | some session => do
    match ← .attempt (closeSftp droppable t id session) with
    | .error e => onSlot droppable work.slot (showError work.slot e) fun _ => []
    | .ok () => disconnectTerminals droppable t id session

/-- The part of a disconnection that uses the network. -/
def finishDisconnect (id : HostId) (work : DisconnectWork) : Task Unit := do
  closeConnection droppable t id work
  let transport ← onSlot droppable work.slot (endDisconnect id work.slot) fun _ => []
  if transport.isSome then reply droppable Unit
  reply droppable Unit

/-- Disconnects a host. -/
def disconnectHost (id : HostId) : Task Unit :=
  withLifecycleGuard droppable t id do
    let work ← withMutation droppable t do
      let _ ← onApp droppable (repositoryGet id)
      prepareDisconnect droppable t id
    finishDisconnect droppable t id work

/-! ## `save_host` -/

/-- An id that has not been used before. -/
def freshId : Task HostId := do
  let id ← .ask HostId
  locked droppable fun s =>
    if s.ids id = .unused then
      some (.ok id, { s with ids := Function.update s.ids id (.drawn t) })
    else none

/-- The validated host, with a new id if it has none (`into_host`). What comes of its name and of
    its connection is awaited. -/
def intoHost (input : HostInput) : Task Host := do
  let fields ← reply droppable (String × HostConnectionConfig)
  match input.id with
  | some id => return ⟨id, fields.1, fields.2⟩
  | none =>
    let id ← freshId droppable t
    return ⟨id, fields.1, fields.2⟩

/-- Stores the credential, if one is given, and returns its id. -/
def storeCredential (credential : Bool) (previous : Option StoredHost) : Task HostId :=
  if credential then do
    reply droppable Unit
    let id ← freshId droppable t
    spawnBlocking droppable (.put id)
    return id
  else match previous with
    | none => .fail credentialsMissing
    | some previous => return previous.credentialId

/-- Removes a stored credential (`remove_secret`). -/
def removeSecret (id : HostId) : Task Unit := spawnBlocking droppable (.delete id)

/-- The ids after a host has been stored. -/
def storeIds (ids : HostId → IdUse) (stored : StoredHost) : HostId → IdUse :=
  Function.update (Function.update ids stored.host.id .stored) stored.credentialId .stored

/-- A host is stored. -/
def commitHost (stored : StoredHost) (s : Facade) : Facade :=
  core.set { s with ids := storeIds s.ids stored } { s.app with
    repository := Function.update s.app.repository stored.host.id (some stored)
    log := s.app.log ++ [.edited t stored.host.id] }

/-- Stores the host (`repository.save`). If that fails, then it has no effect, and a new credential
    is removed. -/
def repositorySave (previous : Option StoredHost) (stored : StoredHost) : Task Unit := do
  match ← .ask (Option OtherError) with
  | none => update droppable (commitHost t stored)
  | some e =>
    if previous.all fun p => p.credentialId ≠ stored.credentialId then
      removeSecret droppable stored.credentialId
      .fail e.1
    else .fail e.1

/-- Removes the credential that has been replaced. -/
def removeReplaced (previous : Option StoredHost) (credentialId : HostId) : Task Unit :=
  match previous with
  | none => return ()
  | some old =>
    if old.credentialId ≠ credentialId then removeSecret droppable old.credentialId
    else return ()

/-- The host as it was stored before, if it is edited. -/
def getPrevious : Option HostId → Task (Option StoredHost)
  | none => return none
  | some id => do
    let stored ← onApp droppable (repositoryGet id)
    return some stored

/-- The part of `save_host` that is done under the metadata lock. -/
def saveHostLocked (input : HostInput) (credential : Bool) : Task Host := do
  let previous ← getPrevious droppable input.id
  let host ← intoHost droppable t input
  let slot ← onApp droppable (slotOf host.id)
  onSlot droppable slot checkEditable fun _ => []
  .ensure (credential = true ∨ previous.any (fun p =>
    decide (p.host.connection.authentication = host.connection.authentication)) = true)
    credentialsRequired
  let credentialId ← storeCredential droppable t credential previous
  repositorySave droppable t previous ⟨host, credentialId⟩
  onApp droppable (revokeHost host.id)
  onApp droppable (removeRotationPlan host.id)
  onSlot droppable slot (resetSlot host.id slot) fun _ => []
  clearMonitor droppable host.id
  -- The terminals of an edited host are removed.
  .pause droppable
  removeReplaced droppable previous credentialId
  reply droppable Unit
  return host

/-- Stores a new or an edited host. -/
def saveHost (input : HostInput) (credential : Bool) : Task Host :=
  match input.id with
  | none => withMutation droppable t (saveHostLocked droppable t input credential)
  | some id => withLifecycleGuard droppable t id
      (withMutation droppable t (saveHostLocked droppable t input credential))

/-! ## `delete_host` -/

/-- Removes the gate of a host. -/
def removeGate (admission : ServiceAdmission) (id : HostId) : ServiceAdmission :=
  { admission with gates := Function.update admission.gates id none }

/-- Removes the gate of a host for the requests that only read. -/
def removeReadGate (kind : ReadKind) (id : HostId) : Task Unit :=
  update droppable fun s =>
    { s with reads := Function.update s.reads kind (removeGate (s.reads kind) id) }

/-- A host is removed from the repository. -/
def dropHost (id : HostId) (s : Facade) : Facade :=
  core.set s { s.app with
    repository := Function.update s.app.repository id none
    log := s.app.log ++ [.deleted t id] }

/-- Removes a host without a connection, and what is kept for it. -/
def removeHost (id : HostId) : Task Unit := do
  reply droppable Unit
  update droppable (dropHost t id)
  onApp droppable (removeRotationPlan id)
  update droppable fun s =>
    { s with app.serviceAdmission := removeGate s.app.serviceAdmission id }
  removeReadGate droppable .network id
  removeReadGate droppable .log id
  removeReadGate droppable .container id
  update droppable fun s => { s with app.sessions := Function.update s.app.sessions id none }

/-- Disconnects and deletes a host. -/
def deleteHost (id : HostId) : Task Unit :=
  withLifecycleGuard droppable t id do
    let (stored, work) ← withMutation droppable t do
      let stored ← onApp droppable (repositoryGet id)
      let work ← prepareDisconnect droppable t id
      return (stored, work)
    finishDisconnect droppable t id work
    withMutation droppable t (removeHost droppable t id)
    removeSecret droppable stored.credentialId
    removeMonitor droppable id
    -- The terminals of the host are removed.
    .pause droppable
    reply droppable Unit

end NexusOps.Facade
