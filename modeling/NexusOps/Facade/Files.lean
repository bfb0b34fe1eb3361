import NexusOps.Facade.State

/-!
# File operations

The calls that open and close the SFTP session of a connection, that plan file operations in it,
and that execute the plans (`files.rs`). All of them hold the SFTP gate of the host, from the time
they look whether the session is still that of the connection until they have stored, revoked or
executed something. What the server answers is awaited.
-/

namespace NexusOps.Facade

open Concurrency NexusOps.Core Sftp FilePlanStore

variable (droppable : Bool) (t : TaskId)

/-! ## Sessions -/

/-- The connection of the request is not the active one. -/
def oldConnection : AppError :=
  .new .connection "This file operation belongs to an old SSH connection."

/-- The SFTP session of the request is not the active one. -/
def oldSftpSession : AppError :=
  .new .policy "This file operation belongs to an old SFTP session."

def sftpNotOpen : AppError :=
  .new .sftpUnavailable "Open the Files workspace again to start SFTP."

/-- The connection is that of the slot. -/
def checkOwner (session : HostSessionId) (data : SessionData) (s : Facade) :
    Option (Except AppError Unit × Facade) :=
  if data.view.state ≠ .connected ∨ data.connectionId ≠ some session then
    some (.error oldConnection, s)
  else some (.ok (), s)

/-- The SFTP session of a request, if it is that of the connection. -/
def ownedSftp (owner : FileOwner) : Task SftpClient := do
  let slot ← onApp droppable (Application.slotOf owner.1)
  atSlot droppable slot (checkOwner owner.2.1)
  let client ← locked droppable fun s => match s.sftpSessions owner.1 with
    | some client => some (.ok client, s)
    | none => some (.error sftpNotOpen, s)
  .ensure (client.info.id = owner.2.2 ∧ client.info.hostSessionId = owner.2.1) oldSftpSession
  return client

/-- Revokes what has been planned over a connection, and ends its SFTP session. What has been
    enqueued must have come to an end before. -/
def closeSftp (host : HostId) (session : HostSessionId) : Task Unit :=
  withSftpGate droppable t host do
    onFiles droppable (revokeSession t host session)
    -- The transfers of the connection come to an end (`quiesce_session`), or may not in time.
    reply droppable Unit
    update droppable fun s =>
      let removed := if (s.sftpSessions host).any (fun client =>
          client.info.hostSessionId = session) then none else s.sftpSessions host
      { s with sftpSessions := Function.update s.sftpSessions host removed }.note
        (.sftpRemoved t host session)
    .pause droppable

/-- The host is not connected. -/
def sftpNotConnected : AppError :=
  .new .sftpUnavailable "Connect this host before opening Files."

def sftpNoTransport : AppError := .new .connection "The SSH session is unavailable."

def sftpNoIdentity : AppError := .new .connection "The SSH session identity is unavailable."

/-- The connection of a slot. -/
def sftpConnection (data : SessionData) (s : Facade) :
    Option (Except AppError (HostSessionId × Nat) × Facade) :=
  if data.view.state ≠ .connected then some (.error sftpNotConnected, s)
  else match data.transport, data.connectionId with
    | none, _ => some (.error sftpNoTransport, s)
    | some _, none => some (.error sftpNoIdentity, s)
    | some _, some session => some (.ok (session, data.generation), s)

/-- The slot still has the connection. -/
def sftpRecheck (session : HostSessionId) (generation : Nat) (data : SessionData) (s : Facade) :
    Option (Except AppError Bool × Facade) :=
  some (.ok (decide (data.generation = generation ∧ data.connectionId = some session ∧
    data.view.state = .connected)), s)

/-- Opens the SFTP session of the connection, unless it is open. -/
def openSftp (host : HostId) : Task SftpSessionInfo := do
  let _ ← onApp droppable (Application.repositoryGet host)
  withSftpGate droppable t host do
    let slot ← onApp droppable (Application.slotOf host)
    let (session, generation) ← atSlot droppable slot sftpConnection
    let existing ← locked droppable fun s => some (.ok (s.sftpSessions host), s)
    match existing.filter (fun client => client.info.hostSessionId = session) with
    | some client => return client.info
    | none =>
      let opened ← reply droppable SftpClient
      let client : SftpClient := { opened with info := ⟨opened.info.id, host, session⟩ }
      let current ← atSlot droppable slot (sftpRecheck session generation)
      if current then
        update droppable fun s =>
          { s with sftpSessions := Function.update s.sftpSessions host (some client) }
        .pause droppable
        return client.info
      else
        .pause droppable
        .fail Application.cancelledError

/-! ## Plans -/

/-- A plan of file operations is asked for. -/
inductive FileRequest
  | upload (sources : List (LocalItem × String)) (remoteDirectory : String)
      (policy : ConflictPolicy)
  | download (remotePaths : List String) (localDirectory : LocalDirectory)
      (policy : ConflictPolicy)
  | createDirectory (parent name : String)
  | rename (source newName : String)
  | delete (path : String)

def destinationExists : AppError := .new .conflict "The remote destination already exists."

def noSafeRename : AppError := .new .sftpUnavailable
  ("Safe no-clobber rename is available only for regular files when hardlink@openssh.com v1 " ++
    "is negotiated.")

def specialEntry : AppError :=
  .new .filePolicy "Special or unknown entries cannot be deleted."

def entryMissing : AppError := .new .notFound "The remote entry no longer exists."

/-- What the server has at a path, which must be there. -/
def identityOf (missing : AppError) : Task EntryIdentity := do
  match ← reply droppable (Option EntryIdentity) with
  | none => .fail missing
  | some identity => return identity

/-- `plan_upload`, `plan_download`, `plan_create_directory`, `plan_rename` and `plan_delete`. -/
def planFile (owner : FileOwner) : FileRequest → Task FileOperationPlan
  | .upload sources remoteDirectory policy => withSftpGate droppable t owner.1 do
    let client ← ownedSftp droppable owner
    onFiles droppable (planUpload t client sources remoteDirectory policy)
  | .download remotePaths localDirectory policy => withSftpGate droppable t owner.1 do
    let client ← ownedSftp droppable owner
    -- The directory is still what was selected.
    reply droppable Unit
    onFiles droppable (planDownload t client remotePaths localDirectory policy)
  | .createDirectory parent name => do
    .ofExcept (validateChildName name)
    let path ← .ofExcept (joinRemote parent name)
    withSftpGate droppable t owner.1 do
      let client ← ownedSftp droppable owner
      let existing ← reply droppable (Option EntryIdentity)
      .ensure (existing = none) destinationExists
      onFiles droppable (planMutation t client (.createDirectory path))
  | .rename source newName => do
    .ofExcept (validateChildName newName)
    let parent ← .ofExcept (parentRemote source)
    let destination ← .ofExcept (joinRemote parent newName)
    withSftpGate droppable t owner.1 do
      let client ← ownedSftp droppable owner
      let identity ← identityOf droppable sourceMissing
      .ensure (identity.kind = .file ∧ supports client "hardlink@openssh.com" "1" = true)
        noSafeRename
      let existing ← reply droppable (Option EntryIdentity)
      .ensure (existing = none) destinationExists
      onFiles droppable (planMutation t client (.rename source destination identity))
  | .delete path => withSftpGate droppable t owner.1 do
    let client ← ownedSftp droppable owner
    let kind ← reply droppable RemoteEntryKind
    .ensure (kind ≠ .other ∧ kind ≠ .unknown) specialEntry
    let identity ← identityOf droppable entryMissing
    onFiles droppable (planMutation t client (.delete path kind identity))

/-! ## The editor -/

variable [Platform]

def changedWhileOpening : AppError :=
  .new .conflict "The remote text file changed while opening."

/-- Opens a file in the editor. -/
def openRemoteTextFile (owner : FileOwner) (path : String) : Task RemoteTextDocument :=
  withSftpGate droppable t owner.1 do
    let client ← ownedSftp droppable owner
    let before ← reply droppable EditorRevision
    let bytes ← reply droppable (List UInt8)
    let after ← reply droppable EditorRevision
    .ensure (before = after ∧ before.identity.size = some bytes.length) changedWhileOpening
    let (text, newline, bom) ← .ofExcept (decodeText bytes)
    let id ← onFiles droppable
      (registerEditorDocument t client path before bytes newline bom)
    return ⟨id, owner.1, owner.2.1, owner.2.2, path, text, .ofNat bytes.length, newline, bom,
      .ofNat MAX_REMOTE_EDITOR_BYTES⟩

/-- Plans to save a document. -/
def planRemoteTextSave (owner : FileOwner) (document : EditorDocumentId) (text : String) :
    Task FileOperationPlan :=
  withSftpGate droppable t owner.1 do
    let client ← ownedSftp droppable owner
    onFiles droppable (planEditorSave t client document text)

/-- Retires a document. -/
def discardRemoteTextDocument (owner : FileOwner) (document : EditorDocumentId) : Task Unit :=
  onFiles droppable (discardEditorDocument t document owner)

/-! ## Execution -/

/-- What is done with a plan (`TransferManager::execute`). Whether the transfers accept its jobs
    is awaited; they are enqueued at once, for the session of the payload. -/
def executePayload (payload : PlanPayload) : Task Unit :=
  match payload with
  | .mutation _ _ => reply droppable Unit
  | _ => do
    reply droppable Unit
    update droppable (·.note (.enqueued t payload.client.owner))

/-- Executes a plan, and records how that has ended. -/
def executeFilePlan (owner : FileOwner) (plan : FilePlanId) : Task Unit :=
  withSftpGate droppable t owner.1 do
    let _ ← ownedSftp droppable owner
    let consumed ← onFiles droppable (consume t plan owner)
    let result ← .attempt (executePayload droppable t consumed.payload)
    reply droppable Unit
    .ofExcept result

/-- Discards a plan. -/
def discardFilePlan (owner : FileOwner) (plan : FilePlanId) : Task Bool :=
  onFiles droppable (discard plan owner)

end NexusOps.Facade
