import NexusOps.Model.Basic

/-!
# Files and transfers

What the crates share about remote files, their transfers, and the plans of changes to
them (`nexus-model`). The parts of a transfer that are only displayed (its direction, the
names of its source and destination, its size) are left out, and so are those of a plan
(the names of its items, and when it expires).
-/

namespace NexusOps

/-- An SFTP subsystem, opened over a connection. -/
structure SftpSessionId where
  uuid : Nat
  deriving DecidableEq, Repr

/-- A transfer. -/
structure TransferJobId where
  uuid : Nat
  deriving DecidableEq, Repr

/-- A plan of a file operation. -/
structure FilePlanId where
  uuid : Nat
  deriving DecidableEq, Repr

/-- A file opened in the editor. -/
structure EditorDocumentId where
  uuid : Nat
  deriving DecidableEq, Repr

/-- The greatest size of a file opened in the editor. -/
def MAX_REMOTE_EDITOR_BYTES : Nat := 1024 * 1024

/-- What an SFTP session is bound to. -/
structure SftpSessionInfo where
  id : SftpSessionId
  hostId : HostId
  hostSessionId : HostSessionId
  deriving DecidableEq, Repr

/-- The connection an SFTP session has been opened over. -/
def SftpSessionInfo.session (info : SftpSessionInfo) : HostId × HostSessionId :=
  (info.hostId, info.hostSessionId)

/-- The kinds of remote entries. -/
inductive RemoteEntryKind
  | file
  | directory
  | symlink
  | other
  | unknown
  deriving DecidableEq, Repr

/-- How the lines of a text end. -/
inductive TextNewline
  | lf
  | crLf
  deriving DecidableEq, Repr

/-- A file that has been opened in the editor, as it is returned. -/
structure RemoteTextDocument where
  id : EditorDocumentId
  hostId : HostId
  hostSessionId : HostSessionId
  sftpSessionId : SftpSessionId
  path : String
  text : String
  originalBytes : UInt32
  newline : TextNewline
  bom : Bool
  maxBytes : UInt32
  deriving DecidableEq, Repr

/-- What is done about a destination that exists. -/
inductive ConflictPolicy
  | skip
  | keepBoth
  | replace
  deriving DecidableEq, Repr

/-- The kinds of file operations. -/
inductive FileOperationKind
  | upload
  | download
  | createDirectory
  | rename
  | delete
  | editText
  deriving DecidableEq, Repr

/-- What is shown of a plan. -/
structure FileOperationPlan where
  id : FilePlanId
  hostId : HostId
  hostSessionId : HostSessionId
  sftpSessionId : SftpSessionId
  kind : FileOperationKind
  risk : OperationRisk
  conflictPolicy : Option ConflictPolicy
  deriving DecidableEq, Repr

/-- The states of a transfer. -/
inductive TransferState
  | queued
  | preparing
  | awaitingDecision
  | transferring
  | cancelRequested
  | finalizing
  | completed
  | failed
  | cancelled
  | outcomeUnknown
  deriving DecidableEq, Repr

/-- What is shown of a transfer. -/
structure TransferJob where
  id : TransferJobId
  hostId : HostId
  hostSessionId : HostSessionId
  sftpSessionId : SftpSessionId
  state : TransferState
  confirmedBytes : Nat
  error : Option AppError
  retryable : Bool
  deriving DecidableEq, Repr

/-- The connection a transfer belongs to. -/
def TransferJob.session (job : TransferJob) : HostId × HostSessionId :=
  (job.hostId, job.hostSessionId)

end NexusOps
