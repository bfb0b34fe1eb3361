import NexusOps.Sftp.Path
import NexusOps.Sftp.Raw

/-!
# The SFTP client

The client's part of a transfer (`RawSftpClient`): reading the identity and the contents
of a remote file, writing a staging file, and committing it to its destination by a hard
link or by a rename. Of the calls of the planning side there are the listings and the renames
on request; directories and deletions are left out.

What reads or writes a local file awaits the result of that.
-/

namespace NexusOps.Sftp

open Concurrency

/-- What a remote entry is recognised by. -/
structure EntryIdentity where
  kind : RemoteEntryKind
  size : Option Nat
  modified : Option Nat
  deriving DecidableEq, Repr

/-- What a file opened in the editor is recognised by. -/
structure EditorRevision where
  identity : EntryIdentity
  rawMode : Nat
  uid : Nat
  gid : Nat
  deriving DecidableEq, Repr

/-- A failed upload: whether there is a staging file, and whose it is. -/
inductive StagedUploadFailure
  | notCreated (e : AppError)
  | ownedFailure (e : AppError)
  | creationOutcomeUnknown (e : AppError)

/-- A client of an open session. -/
structure SftpClient where
  info : SftpSessionInfo
  extensionMap : List (String × String)
  readChunk : Nat
  writeChunk : Nat
  deriving DecidableEq, Repr

/-- The server supports a version of an extension. -/
def SftpClient.supports (client : SftpClient) (name version : String) : Bool :=
  client.extensionMap.lookup name = some version

/-! ## Errors -/

/-- There is no such entry. -/
def notFound : AppError := .new .notFound "The remote entry no longer exists."

/-- There is such an entry already. -/
def conflict : AppError := .new .conflict "The destination already exists."

/-- The local file cannot be used. -/
def localIo : AppError :=
  .new .localAccess "The selected local file could not be read or written."

/-- The request has been cancelled. -/
def transferCancelled : AppError := .new .cancelled "The transfer was cancelled."

/-- The counter of bytes is exhausted. -/
def offsetOverflowed : AppError := .new .transfer "The transfer offset overflowed."

/-- What a refusal means. -/
def mapStatus : StatusCode → AppError
  | .noSuchFile => notFound
  | .permissionDenied => .new .sftpDenied "The remote account denied this file operation."
  | .opUnsupported =>
    .new .sftpUnavailable "The SFTP server does not support this operation."
  | .noConnection | .connectionLost => .new .connection "The SFTP connection was lost."
  | _ => .new .sftpProtocol "The SFTP server rejected the operation."

/-- What an error of the library means. -/
def mapError : SftpError → AppError
  | .status code => mapStatus code
  | .timeout => .new .timeout "The SFTP server did not respond in time."
  | .limited => .new .sftpProtocol "The SFTP request exceeded a negotiated limit."
  | _ => .new .sftpProtocol "The SFTP request failed."

/-- What the reply to a request that changes nothing at a destination means. -/
def statusOk (result : Except SftpError StatusCode) : Except AppError Unit :=
  match result with
  | .ok .ok => .ok ()
  | .ok code => .error (mapStatus code)
  | .error e => .error (mapError e)

/-- What the reply to a mutation means: without a status, its outcome is not known. -/
def mutationStatus (result : Except SftpError StatusCode) (unknown : String) :
    Except AppError Unit :=
  match result with
  | .ok .ok => .ok ()
  | .ok code => .error (mapStatus code)
  | .error (.status code) => .error (mapStatus code)
  | .error _ => .error (.new .outcomeUnknown unknown)

/-! ## Identities -/

/-- The identity of an entry with these attributes. -/
def identityOf (attrs : FileAttributes) : EntryIdentity where
  kind := match attrs.permissions with
    | none => .unknown
    | some _ => match attrs.fileType with
      | .file => .file
      | .dir => .directory
      | .symlink => .symlink
      | .other => .other
  size := attrs.size
  modified := attrs.mtime

/-- The attributes are those of the revision. -/
def EditorRevision.Matches (revision : EditorRevision) (attrs : FileAttributes) : Prop :=
  identityOf attrs = revision.identity ∧ attrs.permissions = some revision.rawMode ∧
    attrs.uid = some revision.uid ∧ attrs.gid = some revision.gid

instance (revision : EditorRevision) (attrs : FileAttributes) :
    Decidable (revision.Matches attrs) :=
  inferInstanceAs (Decidable (_ ∧ _))

/-- The revision of a file with these attributes. -/
def revisionOf (attrs : FileAttributes) : Except AppError EditorRevision :=
  if attrs.fileType ≠ .file then
    .error (.new .filePolicy "Only regular non-symlink files can be edited.")
  else match attrs.permissions, attrs.uid, attrs.gid, attrs.size, attrs.mtime with
    | some rawMode, some uid, some gid, some _, some _ => .ok ⟨identityOf attrs, rawMode, uid, gid⟩
    | _, _, _, _, _ =>
      .error (.new .filePolicy "Required remote revision or ownership metadata is unavailable.")

/-- A remote entry. What is only displayed of it is left out. -/
structure RemoteEntry where
  name : String
  path : String
  kind : RemoteEntryKind
  deriving DecidableEq, Repr

/-- The entry of a directory with these attributes. -/
def remoteEntry (parent name : String) (attrs : FileAttributes) : Except AppError RemoteEntry := do
  validateChildName name
  let path ← if parent.isEmpty then pure name else joinRemote parent name
  return ⟨name, path, (identityOf attrs).kind⟩

namespace SftpClient

variable {σ ι : Type} [HasSftp σ ι] (i : ι)

/-- Closes a handle. -/
def closeHandle (handle : String) : Async σ AppError Unit := do
  let reply ← request i (.close handle)
  .ofExcept (statusOk reply.intoStatus)

/-- The attributes of a remote entry, not following a link. -/
def lstat (path : String) : Async σ AppError FileAttributes := do
  let reply ← request i (.lstat path)
  .ofExcept (reply.intoAttrs.mapError mapError)

/-- A remote entry. -/
def stat (path : String) : Async σ AppError RemoteEntry := do
  .ofExcept (validateRemotePath path)
  let attrs ← lstat i path
  let trimmed := trimEndSlashes path.toList
  let name := match rsplitOnceSlash trimmed with
    | some (_, name) => name
    | none => trimmed
  let parent := match rsplitOnceSlash path.toList with
    | some (parent, _) => parent
    | none => []
  .ofExcept (remoteEntry (String.ofList parent) (String.ofList name) attrs)

/-- The entries of a directory. -/
structure DirectoryListing where
  info : SftpSessionInfo
  path : String
  entries : List RemoteEntry
  /-- There are more entries. -/
  isPartial : Bool
  deriving DecidableEq, Repr

/-- The greatest number of entries in a listing. -/
def LISTING_ENTRY_CAP : Nat := 5000

/-- Adds what the server has sent of a directory to its entries, until there is no room. -/
def listBatch (path : String) (entries : List RemoteEntry) :
    List (String × FileAttributes) → Except AppError (List RemoteEntry × Bool)
  | [] => return (entries, false)
  | (filename, attrs) :: files =>
    if filename.toList = ['.'] ∨ filename.toList = ['.', '.'] then listBatch path entries files
    else do
      validateChildName filename
      if entries.length = LISTING_ENTRY_CAP then
        return (entries, true)
      else
        let entry ← remoteEntry path filename attrs
        listBatch path (entries ++ [entry]) files

/-- Loading a directory has been cancelled. -/
def listCancelled : AppError := .new .cancelled "Directory loading was cancelled."

/-- Reads the next entries of a directory, unless there are none, or no room for them. -/
def readDirectory (path handle : String) (cancelled : σ → Bool) (entries : List RemoteEntry) :
    Async σ AppError (List RemoteEntry ⊕ List RemoteEntry × Bool) := do
  let reply ← requestUnless i cancelled listCancelled (.readdir handle)
  match reply.intoName with
  | .ok files =>
    let (entries, isPartial) ← .ofExcept (listBatch path entries files)
    return if isPartial then .inr (entries, true) else .inl entries
  | .error (.status .eof) => return .inr (entries, false)
  | .error e => .fail (mapError e)

/-- Lists a directory. -/
def list (client : SftpClient) (path : String) (cancelled : σ → Bool) :
    Async σ AppError DirectoryListing := do
  .ofExcept (validateRemotePath path)
  let opened ← request i (.opendir path)
  let handle ← .ofExcept (opened.intoHandle.mapError mapError)
  let result ← .attempt (Fallible.loop (readDirectory i path handle cancelled) [])
  let close ← .attempt (closeHandle i handle)
  let (entries, isPartial) ← .ofExcept result
  .ofExcept close
  return ⟨client.info, path, entries, isPartial⟩

/-- The attributes of an open file. -/
def fstat (handle : String) : Async σ AppError FileAttributes := do
  let reply ← request i (.fstat handle)
  .ofExcept (reply.intoAttrs.mapError mapError)

/-- Opens a file for reading. -/
def openRead (path : String) : Async σ AppError String := do
  let reply ← request i (.openRead path)
  .ofExcept (reply.intoHandle.mapError mapError)

/-- The identity of a remote entry, if there is one. -/
def identity (path : String) : Async σ AppError (Option EntryIdentity) := do
  .ofExcept (validateRemotePath path)
  let reply ← request i (.lstat path)
  match reply.intoAttrs with
  | .ok attrs => return some (identityOf attrs)
  | .error (.status .noSuchFile) => return none
  | .error e => .fail (mapError e)

/-- The revision of a remote file. -/
def editorRevision (path : String) : Async σ AppError EditorRevision := do
  .ofExcept (validateRemotePath path)
  let attrs ← lstat i path
  .ofExcept (revisionOf attrs)

/-! ## Reading into the editor -/

/-- The file is too large for the editor. -/
def editorLimit : AppError :=
  .new .filePolicy "The remote text file exceeds the 1 MiB editor limit."

variable (client : SftpClient)

/-- Reads the next bytes of a file into the editor, unless there are none, or there are
    more than the editor takes. -/
def readEditorChunk (handle : String) (bytes : List UInt8) :
    Async σ AppError (List UInt8 ⊕ List UInt8) := do
  if MAX_REMOTE_EDITOR_BYTES < bytes.length then
    return .inr bytes
  else
    let remaining := MAX_REMOTE_EDITOR_BYTES + 1 - bytes.length
    let reply ← request i (.read handle bytes.length (min client.readChunk remaining))
    match reply.intoData with
    | .ok [] => return .inr bytes
    | .ok data =>
      .ensure (data.length ≤ remaining)
        (.new .filePolicy "The SFTP server exceeded the bounded editor read.")
      return .inl (bytes ++ data)
    | .error (.status .eof) => return .inr bytes
    | .error e => .fail (mapError e)

/-- Reads an open file into the editor: it must be at the revision `before`, and
    still be there at the end. -/
def readEditorFile (before : EditorRevision) (handle : String) : Async σ AppError (List UInt8) := do
  let opened ← fstat i handle
  .ensure (before.Matches opened)
    (.new .conflict "The remote text file changed while opening.")
  let bytes ← Fallible.loop (readEditorChunk i client handle) []
  .ensure (bytes.length ≤ MAX_REMOTE_EDITOR_BYTES) editorLimit
  let finished ← fstat i handle
  .ensure (before.Matches finished)
    (.new .conflict "The remote text file changed while reading.")
  return bytes

/-- The contents of a remote file, for the editor. -/
def readEditorBytes (path : String) : Async σ AppError (List UInt8) := do
  .ofExcept (validateRemotePath path)
  let before ← editorRevision i path
  .ensure (∀ size, before.identity.size = some size → size ≤ MAX_REMOTE_EDITOR_BYTES) editorLimit
  let handle ← openRead i path
  let result ← .attempt (readEditorFile i client before handle)
  let close ← .attempt (closeHandle i handle)
  let bytes ← .ofExcept result
  .ofExcept close
  return bytes

/-- The permission bits of a mode. -/
def permissionBits (mode : Nat) : Nat := mode % 0o10000

/-- Gives the staging file the owner and the permissions of the file it replaces. -/
def preserveEditorMetadata (staging : String) (expected : EditorRevision) :
    Async σ AppError Unit := do
  .ofExcept (validateRemotePath staging)
  let current ← lstat i staging
  .ensure (current.fileType = .file)
    (.new .filePolicy "The owned editor staging file is no longer regular.")
  if current.uid ≠ some expected.uid ∨ current.gid ≠ some expected.gid then
    let reply ← request i (.setOwner staging expected.uid expected.gid)
    .ofExcept (statusOk reply.intoStatus)
  let reply ← request i (.setPermissions staging (permissionBits expected.rawMode))
  .ofExcept (statusOk reply.intoStatus)
  let final ← lstat i staging
  .ensure (final.fileType = .file ∧ final.uid = some expected.uid ∧ final.gid = some expected.gid ∧
      final.permissions.map permissionBits = some (permissionBits expected.rawMode))
    (.new .filePolicy "Remote mode or ownership preservation could not be confirmed.")

/-! ## Writing a staging file -/

/-- Where the bytes of an upload come from. -/
inductive Reader
  /-- A local file: what is read next is awaited. -/
  | file
  /-- The text of the editor. -/
  | memory (bytes : List UInt8)

/-- Reads the bytes at an offset: at most as many as a buffer of the given length holds,
    and none at the end. -/
def Reader.read (reader : Reader) (offset length : Nat) : Async σ AppError (List UInt8) :=
  match reader with
  | .file => do
    match ← awaitOrDrop i (Option { bytes : List UInt8 // bytes.length ≤ length }) with
    | some bytes => return bytes.1
    | none => .fail localIo
  | .memory bytes => return (bytes.drop offset).take length

/-- The sum of two 64-bit counters, if it does not overflow. -/
def checkedAdd (a b : Nat) : Except AppError Nat :=
  if a + b < 2 ^ 64 then .ok (a + b) else .error offsetOverflowed

/-- Writes the next bytes of the reader, unless cancelled. -/
def uploadChunk (reader : Reader) (cancelled : σ → Bool) (progress : Nat → Proc σ Unit)
    (handle : String) (confirmed : Nat) : Async σ AppError (Nat ⊕ Nat) := do
  .act fun s => if cancelled s then some (.error (.error transferCancelled), s)
    else some (.ok (), s)
  let bytes ← reader.read i confirmed client.writeChunk
  if bytes.isEmpty then
    return .inr confirmed
  else
    let reply ← request i (.write handle confirmed bytes)
    .ofExcept (statusOk reply.intoStatus)
    let confirmed ← .ofExcept (checkedAdd confirmed bytes.length)
    .lift (progress confirmed)
    return .inl confirmed

/-- Writes all bytes of the reader, and has the server store them. -/
def uploadFile (reader : Reader) (cancelled : σ → Bool) (progress : Nat → Proc σ Unit)
    (handle : String) : Async σ AppError Nat := do
  let confirmed ← Fallible.loop (uploadChunk i client reader cancelled progress handle) 0
  if client.supports "fsync@openssh.com" "1" then
    let reply ← request i (.fsync handle)
    .ofExcept (statusOk reply.intoStatus)
  return confirmed

/-- Creates a staging file, and writes the bytes of the reader to it. `markOwned` is done
    as soon as the server has confirmed that it created the file. -/
def uploadStaged (reader : Reader) (staging : String) (markOwned : Proc σ Unit)
    (cancelled : σ → Bool) (progress : Nat → Proc σ Unit) :
    Async σ AppError (Except StagedUploadFailure Nat) := do
  match validateRemotePath staging with
  | .error e => return .error (.notCreated e)
  | .ok () =>
    let reply ← request i (.openExclusive staging 0o100600)
    match reply.intoHandle with
    | .error (.status code) => return .error (.notCreated (mapStatus code))
    | .error _ => return .error (.creationOutcomeUnknown (.new .outcomeUnknown
        "The staging-file create reply was lost; ownership cannot be established."))
    | .ok handle =>
      .lift markOwned
      let result ← .attempt (uploadFile i client reader cancelled progress handle)
      let close ← .attempt (closeHandle i handle)
      match result, close with
      | .ok confirmed, .ok () => return .ok confirmed
      | .error e, _ => return .error (.ownedFailure e)
      | .ok _, .error e => return .error (.ownedFailure e)

/-! ## Reading a file -/

/-- Writes bytes to the local file. -/
def writeLocal (data : List UInt8) : Async σ AppError Unit := do
  if ← awaitOrDrop i Bool then
    .lift (note (.wrote i data))
  else
    .fail localIo

/-- Reads the next bytes of a remote file, unless cancelled, and writes them to the local
    file. -/
def downloadChunk (cancelled : σ → Bool) (progress : Nat → Proc σ Unit) (handle : String)
    (confirmed : Nat) : Async σ AppError (Nat ⊕ Nat) := do
  let reply ← requestUnless i cancelled transferCancelled (.read handle confirmed client.readChunk)
  match reply.intoData with
  | .ok [] => return .inr confirmed
  | .ok data =>
    writeLocal i data
    let confirmed ← .ofExcept (checkedAdd confirmed data.length)
    .lift (progress confirmed)
    return .inl confirmed
  | .error (.status .eof) => return .inr confirmed
  | .error e => .fail (mapError e)

/-- Copies a remote file to the local file. -/
def download (remote : String) (cancelled : σ → Bool) (progress : Nat → Proc σ Unit) :
    Async σ AppError Nat := do
  .ofExcept (validateRemotePath remote)
  let entry ← stat i remote
  .ensure (entry.kind = .file)
    (.new .filePolicy "Only regular files can be downloaded.")
  let handle ← openRead i remote
  let result ← .attempt (Fallible.loop (downloadChunk i client cancelled progress handle) 0)
  let close ← .attempt (closeHandle i handle)
  let bytes ← .ofExcept result
  .ofExcept close
  if ← awaitOrDrop i Bool then
    return bytes
  else
    .fail localIo

/-! ## Committing a staging file -/

/-- Links the staging file to its destination, where there must be none, and removes
    it. -/
def commitNew (staging destination : String) : Async σ AppError Unit := do
  .ensure (client.supports "hardlink@openssh.com" "1" = true)
    (.new .sftpUnavailable "Safe no-clobber finalization requires hardlink@openssh.com v1.")
  let existing ← identity i destination
  .ensure (existing = none) conflict
  let linked ← request i (.hardlink staging destination)
  .ofExcept (mutationStatus linked.intoStatus
    "The new-file commit reply was lost; refresh before taking another action.")
  let removed ← request i (.remove staging)
  match mutationStatus removed.intoStatus
      "The final file exists, but staging cleanup could not be confirmed." with
  | .ok () => return ()
  | .error _ => .fail (.new .outcomeUnknown
      "The final file exists, but staging cleanup could not be confirmed.")

/-- The entry would leave its directory. -/
def leavesDirectory : AppError :=
  .new .filePolicy "Rename is limited to the same remote directory."

/-- Renames a file within its directory: it is linked to its new name, where there must be none,
    and its old name is removed. -/
def renameNoclobber (source destination : String) : Async σ AppError Unit := do
  .ofExcept (validateRemotePath source)
  .ofExcept (validateRemotePath destination)
  let sourceParent ← .ofExcept (parentRemote source)
  let destinationParent ← .ofExcept (parentRemote destination)
  .ensure (sourceParent = destinationParent) leavesDirectory
  let sourceIdentity ← identity i source
  let sourceIdentity ← .ofExcept (sourceIdentity.elim (.error notFound) .ok)
  .ensure (sourceIdentity.kind = .file ∧ client.supports "hardlink@openssh.com" "1" = true)
    (.new .sftpUnavailable ("Safe no-clobber rename is available only for regular files when " ++
      "hardlink@openssh.com v1 is negotiated."))
  let existing ← identity i destination
  .ensure (existing = none) conflict
  let linked ← request i (.hardlink source destination)
  .ofExcept (mutationStatus linked.intoStatus
    "The rename reply was lost; refresh before taking another action.")
  let removed ← request i (.remove source)
  match mutationStatus removed.intoStatus
      "The new name exists, but removal of the old name could not be confirmed." with
  | .ok () => return ()
  | .error _ => .fail (.new .outcomeUnknown
      "The new name was created, but removal of the old name could not be confirmed.")

/-- A text, as it is sent: with its length. -/
def encodeString (value : String) : Except AppError (List UInt8) :=
  let len := value.utf8ByteSize
  if len < 2 ^ 32 then
    .ok ([24, 16, 8, 0].map (fun shift => UInt8.ofNat (len >>> shift)) ++ value.toUTF8.toList)
  else .error (.new .filePolicy "The remote path is too long.")

/-- Renames the staging file to its destination, replacing what is there. -/
def commitReplace (staging destination : String) : Async σ AppError Unit := do
  .ensure (client.supports "posix-rename@openssh.com" "1" = true)
    (.new .sftpUnavailable "Safe Replace requires posix-rename@openssh.com v1.")
  let _ ← .ofExcept (encodeString staging)
  let _ ← .ofExcept (encodeString destination)
  let reply ← request i (.posixRename staging destination)
  match reply.intoPacket with
  | .ok (.status .ok) => return ()
  | .ok (.status code) => .fail (mapStatus code)
  | _ => .fail (.new .outcomeUnknown ("The Replace reply could not confirm the final " ++
      "destination; refresh before taking another action."))

/-- Removes a staging file that the client has created. -/
def removeOwnedStaging (staging : String) : Async σ AppError StagingCleanup := do
  let reply ← request i (.remove staging)
  match reply.intoStatus with
  | .ok .ok =>
    .lift (note (.removed i staging .removed))
    return .removed
  | .ok .noSuchFile | .error (.status .noSuchFile) =>
    .lift (note (.removed i staging .alreadyAbsent))
    return .alreadyAbsent
  | .ok code | .error (.status code) => .fail (mapStatus code)
  | .error _ => .fail (.new .sftpProtocol
      "Owned staging cleanup could not be confirmed; inspect the remote directory.")

end SftpClient

end NexusOps.Sftp
