import NexusOps.Core.Lifecycle

/-!
# Hosts and their keys

The calls that edit and delete a host (`save_host`, `delete_host`) and those that
approve its key (`trust_host_key`, `plan_host_key_rotation`,
`execute_host_key_rotation`).
-/

namespace NexusOps.Core.Application

open Concurrency RemoteOperations Function

/-! ## `save_host` -/

/-- The host is connected. -/
def editConflict : AppError :=
  .new .conflict "Disconnect this host before editing its configuration."

/-- A credential is missing. -/
def credentialsRequired : AppError :=
  .new .validation "Credentials are required for a new host or authentication method."

/-- A host without a credential has none stored before. -/
def credentialsMissing : AppError := .new .validation "Credentials are required."

/-- The host as it was stored before, if it is edited. -/
def getPrevious : Option HostId → App (Option StoredHost)
  | none => pure none
  | some id => do
    let stored ← repositoryGet id
    return some stored

/-- The validated host, with a new id if it has none (`into_host`). What comes of its
    name and of its connection is awaited. -/
def intoHost (input : HostInput) : App Host := do
  let fields ← .await (String × HostConnectionConfig)
  let fresh ← .ask HostId
  return ⟨input.id.getD fresh, fields.1, fields.2⟩

/-- The slot has no connection. -/
def checkEditable (data : SessionData) (s : Application) :
    Option (Except AppError Unit × Application) :=
  if data.view.state = .connecting ∨ data.view.state = .connected ∨
      data.view.state = .disconnecting then
    some (.error editConflict, s)
  else some (.ok (), s)

/-- Stores the credential, if one is given, and returns its id. -/
def storeCredential (credential : Bool) (previous : Option StoredHost) : App HostId :=
  if credential then do
    .await Unit
    let id ← .ask HostId
    .await Unit
    return id
  else match previous with
    | none => throw credentialsMissing
    | some previous => return previous.credentialId

/-- Removes a stored credential (`remove_secret`). -/
def removeSecret (_id : HostId) : App Unit := .await Unit

/-- Stores the host (`repository.save`). If that fails, a new credential is removed. -/
def repositorySave (t : TaskId) (previous : Option StoredHost) (stored : StoredHost) : App Unit := do
  match ← .ask (Except AppError Unit) with
  | .ok () => .act fun s => some (.ok (), { s with
      repository := update s.repository stored.host.id (some stored)
      log := s.log ++ [.edited t stored.host.id] })
  | .error e =>
    if previous.all fun p => p.credentialId ≠ stored.credentialId then
      removeSecret stored.credentialId
      throw e
    else throw e

/-- Sets a slot without a connection to disconnected. -/
def resetSlot (id : HostId) (slot : SlotId) (data : SessionData) (s : Application) :
    Option (Except AppError Unit × Application) :=
  data.bump.map fun data =>
    (.ok (), (s.cancelToken data.cancel).setSlot slot
      { data with view := .disconnected id, connectionId := none })

/-- Removes the credential that has been replaced. -/
def removeReplaced (previous : Option StoredHost) (credentialId : HostId) : App Unit :=
  match previous with
  | none => pure ()
  | some old => if old.credentialId ≠ credentialId then removeSecret old.credentialId else pure ()

/-- The part of `save_host` that is done under the metadata lock. -/
def saveHostLocked (t : TaskId) (input : HostInput) (credential : Bool) : App Host := do
  let previous ← getPrevious input.id
  let host ← intoHost input
  let slot ← slotOf host.id
  slotSection slot checkEditable
  .ensure (credential = true ∨ previous.any (fun p =>
    decide (p.host.connection.authentication = host.connection.authentication)) = true)
    credentialsRequired
  let credentialId ← storeCredential credential previous
  repositorySave t previous ⟨host, credentialId⟩
  revokeHost host.id
  removeRotationPlan host.id
  slotSection slot (resetSlot host.id slot)
  removeReplaced previous credentialId
  .await Unit
  return host

/-- Stores a new or an edited host. -/
def saveHost (t : TaskId) (input : HostInput) (credential : Bool) : App Host :=
  match input.id with
  | none => withMutation t (saveHostLocked t input credential)
  | some id => withLifecycleGuard t id (withMutation t (saveHostLocked t input credential))

/-! ## `delete_host` -/

/-- Removes a host without a connection, and what is kept for it. -/
def removeHost (t : TaskId) (id : HostId) : App Unit := do
  .await Unit
  .act fun s => some (.ok (), { s with
    repository := update s.repository id none
    log := s.log ++ [.deleted t id] })
  removeRotationPlan id
  .act fun s => some (.ok (), { s with
    serviceAdmission.gates := update s.serviceAdmission.gates id none })
  .act fun s => some (.ok (), { s with sessions := update s.sessions id none })

/-- Disconnects and deletes a host. -/
def deleteHost (t : TaskId) (id : HostId) : App Unit :=
  withLifecycleGuard t id do
    let work ← withMutation t do
      let stored ← repositoryGet id
      let work ← prepareDisconnect t id
      return (stored, work)
    finishDisconnect id work.2
    withMutation t (removeHost t id)
    removeSecret work.1.credentialId
    .await Unit

/-! ## `trust_host_key` -/

/-- The key is not the one that was presented. -/
def staleTrust : AppError := .new .conflict
  "This trust request is stale. Connect again to inspect the current server key."

/-- Pins the key that was presented in the last attempt. `trusted` is the reply of the
    store of keys. -/
def trustKey (t : TaskId) (id : HostId) (slot : SlotId) (challenge : HostKeyChallenge)
    (trusted audit : Except AppError Unit) (data : SessionData) (s : Application) :
    Option (Except AppError Unit × Application) :=
  if data.view.state ≠ .awaitingTrust ∨ challenge.previousFingerprint ≠ none ∨
      data.view.error.bind AppError.hostKey ≠ some challenge then
    some (.error staleTrust, s)
  else match trusted with
    | .error e => some (.error e, s)
    | .ok () =>
      let s := { s with rotationPlans := update s.rotationPlans id none }
      match data.view.state.transition .disconnected with
      | .error e => some (.error e, s.note (.transitionFailed t))
      | .ok state =>
        let view : HostSession := { data.view with state := state, error := none }
        some (audit, s.setSlot slot { data with view := view })

/-- Trusts the key of a host. -/
def trustHostKey (t : TaskId) (id : HostId) (challenge : HostKeyChallenge) : App Unit :=
  withLifecycleGuard t id <| withMutation t do
    let _ ← repositoryGet id
    let slot ← slotOf id
    let trusted ← .ask (Except AppError Unit)
    let audit ← .ask (Except AppError Unit)
    slotSection slot (trustKey t id slot challenge trusted audit)

/-! ## Key rotation -/

/-- How long an approved key change can be executed. -/
def ROTATION_TTL : Duration := .fromSecs (5 * 60)

/-- The key change cannot be made any more. -/
def rotationConflict : AppError := .new .conflict
  "This SSH key change is stale. Connect again and review a new rotation plan."

/-- The stored host, for a key change. Whether its connection is valid is awaited. -/
def storedHost (id : HostId) : App Host := do
  let fails ← .ask Bool
  let stored ← .act fun s =>
    if fails then some (.error repositoryFailure, s)
    else match s.repository id with
      | some stored => some (.ok stored, s)
      | none => some (.error rotationConflict, s)
  let valid ← .ask Bool
  .ensure (valid = true) (.new .persistence "The stored SSH endpoint configuration is invalid.")
  return stored.host

/-- The replies of the store of keys about the endpoint of a host: its canonical name,
    the pinned key, and the verdict on the presented one. -/
structure KnownKey where
  canonicalHostname : Except AppError String
  fingerprint : Except AppError (Option HostFingerprint)
  verify : Except AppError Unit
  rotate : Except AppError Unit

/-- The changed key presented in the last attempt. -/
def changedChallenge (host : Host) (canonicalHostname : Except AppError String)
    (data : SessionData) : Except AppError HostKeyChallenge :=
  if data.view.hostId ≠ host.id ∨ data.view.state ≠ .failed ∨ data.view.hostSessionId ≠ none ∨
      data.connectionId ≠ none ∨ data.transport ≠ none then
    .error rotationConflict
  else match data.view.error with
    | none => .error rotationConflict
    | some error =>
      if error.code ≠ .changedHostKey then .error rotationConflict
      else match error.hostKey, canonicalHostname with
        | some challenge, .ok canonical =>
          if challenge.hostname ≠ canonical ∨ challenge.port ≠ host.connection.port ∨
              challenge.previousFingerprint = none then
            .error rotationConflict
          else .ok challenge
        | _, _ => .error rotationConflict

/-- The plan of a key change, if the presented key differs from the pinned one.
    `unixMs` is the wall clock, if it can be read. -/
def rotationPlan (host : Host) (id : HostKeyRotationPlanId) (known : KnownKey)
    (unixMs : Option Nat) (data : SessionData) : Except AppError HostKeyRotationPlan := do
  let challenge ← changedChallenge host known.canonicalHostname data
  match ← known.fingerprint with
  | none => throw rotationConflict
  | some current =>
    if challenge.previousFingerprint ≠ some current.sha256 then throw rotationConflict
    else match known.verify with
      | .ok () => throw rotationConflict
      | .error e =>
        if e.code = .persistence then throw e
        else if e.code ≠ .changedHostKey then throw rotationConflict
        else match unixMs with
          | none => throw (.new .persistence "The local clock is unavailable.")
          | some now =>
            let hostname ← known.canonicalHostname
            return {
              id := id
              hostId := host.id
              hostname := hostname
              port := host.connection.port
              currentFingerprint := current
              presentedFingerprint := ⟨challenge.algorithm, challenge.fingerprint⟩
              expiresAtUnixMs := now + ROTATION_TTL / 1000000 }

/-- Approves the key change that the last attempt has failed with. -/
def planRotation (id : HostId) (host : Host) (planId : HostKeyRotationPlanId) (known : KnownKey)
    (unixMs : Option Nat) (data : SessionData) (s : Application) :
    Option (Except AppError HostKeyRotationPlan × Application) :=
  match rotationPlan host planId known unixMs data with
  | .error e => some (.error e, s)
  | .ok plan =>
    let authority : RotationAuthority := ⟨plan, data.generation, s.clock + ROTATION_TTL⟩
    some (.ok plan,
      { s with rotationPlans := update s.rotationPlans id (some authority) })

/-- Plans the change of the pinned key of a host. -/
def planHostKeyRotation (t : TaskId) (id : HostId) : App HostKeyRotationPlan :=
  withLifecycleGuard t id <| withMutation t do
    removeRotationPlan id
    let host ← storedHost id
    let slot ← slotOf id
    let planId ← .ask HostKeyRotationPlanId
    let known ← .ask KnownKey
    let unixMs ← .ask (Option Nat)
    slotSection slot (planRotation id host planId known unixMs)

/-- Takes the approved key change. -/
def takeRotation (id : HostId) (planId : HostKeyRotationPlanId) : App RotationAuthority :=
  .act fun s => match s.rotationPlans id with
    | none => some (.error rotationConflict, s)
    | some authority =>
      if authority.plan.id ≠ planId then some (.error rotationConflict, s)
      else some (.ok authority,
        { s with rotationPlans := update s.rotationPlans id none })

/-- The approved key change is the one that the last attempt has failed with. -/
def checkRotation (host : Host) (authority : RotationAuthority) (known : KnownKey)
    (data : SessionData) : Except AppError Unit := do
  let plan := authority.plan
  if data.generation ≠ authority.generation then throw rotationConflict
  else
    let challenge ← changedChallenge host known.canonicalHostname data
    if challenge.hostname ≠ plan.hostname ∨ challenge.port ≠ plan.port ∨
        challenge.algorithm ≠ plan.presentedFingerprint.algorithm ∨
        challenge.fingerprint ≠ plan.presentedFingerprint.sha256 ∨
        challenge.previousFingerprint ≠ some plan.currentFingerprint.sha256 then
      throw rotationConflict
    else
      let stored ← known.fingerprint
      if stored ≠ some plan.currentFingerprint then throw rotationConflict
      else known.rotate

/-- Changes the pinned key, and sets the slot to disconnected. -/
def rotateKey (id : HostId) (slot : SlotId) (host : Host) (authority : RotationAuthority)
    (known : KnownKey) (data : SessionData) (s : Application) :
    Option (Except AppError Unit × Application) :=
  match checkRotation host authority known data with
  | .error e => some (.error e, s)
  | .ok () => data.bump.map fun data =>
    (.ok (), (s.cancelToken data.cancel).setSlot slot { data with
      refreshing := false
      transport := none
      connectionId := none
      view := .disconnected id })

/-- The part of `execute_host_key_rotation` after the approval has been taken. -/
def rotateWith (id : HostId) (authority : RotationAuthority) : App Unit := do
  let now ← .read fun s => s.clock
  .ensure (now < authority.expiresAt) rotationConflict
  let host ← storedHost id
  let known ← .ask KnownKey
  .ensure (authority.plan.hostId = id ∧
    known.canonicalHostname.toOption = some authority.plan.hostname ∧
    authority.plan.port = host.connection.port) rotationConflict
  let slot ← slotOf id
  slotSection slot (rotateKey id slot host authority known)

/-- Executes the approved change of the pinned key of a host. -/
def executeHostKeyRotation (t : TaskId) (id : HostId) (planId : HostKeyRotationPlanId) : App Unit :=
  withLifecycleGuard t id <| withMutation t do
    let authority ← takeRotation id planId
    let result ← .lift (rotateWith id authority).run
    .await Unit
    ExceptT.mk (pure result)

end NexusOps.Core.Application
