import NexusOps.Concurrency.Async
import NexusOps.Model.Files

/-!
# SFTP requests and replies

What the client asks of an SFTP server, and what it gets: a packet, or no reply at all.
How a reply is read is up to the library (`russh-sftp`): each request has the kind of
packet it wants, a status is an error unless it is what is wanted, and so is any other
packet.

Whether a request has been applied is known from a status only: a confirmed request has
been applied, and a refused one has not (`Answer`). Of a request without a status, it is
not known.
-/

namespace NexusOps.Sftp

open Concurrency

/-- The status codes of SFTP version 3. -/
inductive StatusCode
  | ok
  | eof
  | noSuchFile
  | permissionDenied
  | failure
  | badMessage
  | noConnection
  | connectionLost
  | opUnsupported
  deriving DecidableEq, Repr

/-- The types of files. -/
inductive FileType
  | dir
  | file
  | symlink
  | other
  deriving DecidableEq, Repr

/-- The attributes of a file. The library reads its type off the permissions. -/
structure FileAttributes where
  size : Option Nat
  uid : Option Nat
  gid : Option Nat
  permissions : Option Nat
  mtime : Option Nat
  fileType : FileType
  deriving DecidableEq, Repr

/-- The packets of a server. -/
inductive Packet
  | status (code : StatusCode)
  | handle (handle : String)
  | attrs (attrs : FileAttributes)
  | data (data : List UInt8)
  /-- Entries of a directory. -/
  | name (files : List (String × FileAttributes))
  | other
  deriving DecidableEq, Repr

/-- What is received for a request. -/
inductive Reply
  | packet (p : Packet)
  /-- There was no reply in time. -/
  | timeout
  /-- The request exceeds a negotiated limit. -/
  | limited
  /-- The connection is gone. -/
  | lost
  deriving DecidableEq, Repr

/-- The errors of the library. -/
inductive SftpError
  | status (code : StatusCode)
  | timeout
  | limited
  | unexpectedPacket
  | io
  deriving DecidableEq, Repr

/-- A wanted packet. -/
def Packet.into {α : Type} (want : Packet → Option α) (p : Packet) : Except SftpError α :=
  match want p with
  | some a => .ok a
  | none => match p with
    | .status code => .error (.status code)
    | _ => .error .unexpectedPacket

namespace Reply

/-- Any packet. -/
def intoPacket : Reply → Except SftpError Packet
  | packet p => .ok p
  | timeout => .error .timeout
  | limited => .error .limited
  | lost => .error .io

/-- A confirmation. -/
def intoStatus (reply : Reply) : Except SftpError StatusCode :=
  reply.intoPacket.bind (Packet.into fun
    | .status .ok => some .ok
    | _ => none)

/-- A handle. -/
def intoHandle (reply : Reply) : Except SftpError String :=
  reply.intoPacket.bind (Packet.into fun
    | .handle handle => some handle
    | _ => none)

/-- The attributes of a file. -/
def intoAttrs (reply : Reply) : Except SftpError FileAttributes :=
  reply.intoPacket.bind (Packet.into fun
    | .attrs attrs => some attrs
    | _ => none)

/-- The contents of a file. -/
def intoData (reply : Reply) : Except SftpError (List UInt8) :=
  reply.intoPacket.bind (Packet.into fun
    | .data data => some data
    | _ => none)

/-- Entries of a directory. -/
def intoName (reply : Reply) : Except SftpError (List (String × FileAttributes)) :=
  reply.intoPacket.bind (Packet.into fun
    | .name files => some files
    | _ => none)

variable {reply : Reply}

theorem of_intoPacket_ok {p : Packet} (h : reply.intoPacket = .ok p) : reply = .packet p := by
  cases reply with
  | packet => exact congrArg Reply.packet (Except.ok.inj h)
  | timeout => nomatch h
  | limited => nomatch h
  | lost => nomatch h

/-- Only an `Ok` is a confirmation. -/
theorem of_intoStatus_ok {code : StatusCode} (h : reply.intoStatus = .ok code) :
    code = .ok ∧ reply = .packet (.status .ok) := by
  rcases reply with (code | _ | _ | _ | _ | _) | _ | _ | _
  · cases code <;> simp_all [intoStatus, intoPacket, Packet.into, Except.bind]
  all_goals nomatch h

/-- A status that is an error is the one that was received. -/
theorem of_intoStatus_status {code : StatusCode} (h : reply.intoStatus = .error (.status code)) :
    reply = .packet (.status code) ∧ code ≠ .ok := by
  rcases reply with (code | _ | _ | _ | _ | _) | _ | _ | _
  · cases code <;> simp_all [intoStatus, intoPacket, Packet.into, Except.bind]
    all_goals (subst h; exact nofun)
  all_goals nomatch h

theorem of_intoHandle_ok {handle : String} (h : reply.intoHandle = .ok handle) :
    reply = .packet (.handle handle) := by
  rcases reply with (_ | _ | _ | _ | _ | _) | _ | _ | _
  all_goals simp_all [intoHandle, intoPacket, Packet.into, Except.bind]

end Reply

/-- The requests. -/
inductive SftpRequest
  | lstat (path : String)
  | fstat (handle : String)
  | openRead (path : String)
  | opendir (path : String)
  | readdir (handle : String)
  /-- Creates a file that must not exist, and opens it for writing. -/
  | openExclusive (path : String) (permissions : Nat)
  | read (handle : String) (offset length : Nat)
  | write (handle : String) (offset : Nat) (data : List UInt8)
  | fsync (handle : String)
  | close (handle : String)
  | setOwner (path : String) (uid gid : Nat)
  | setPermissions (path : String) (permissions : Nat)
  | remove (path : String)
  | hardlink (source destination : String)
  | posixRename (source destination : String)
  deriving DecidableEq, Repr

/-- The reply to a request, and whether the request has been applied. -/
structure Answer where
  reply : Reply
  applied : Bool
  of_confirmed : reply = .packet (.status .ok) → applied = true
  of_refused : ∀ code, reply = .packet (.status code) → code ≠ .ok → applied = false
  deriving DecidableEq

/-- How a removal of a staging file was confirmed. -/
inductive StagingCleanup
  | removed
  | alreadyAbsent
  deriving DecidableEq, Repr

/-- The status that confirms a removal. -/
def StagingCleanup.status : StagingCleanup → StatusCode
  | removed => .ok
  | alreadyAbsent => .noSuchFile

/-- What is logged of the requests of the task `i`. -/
inductive SftpEvent (ι : Type)
  | request (i : ι) (r : SftpRequest)
  | answered (i : ι) (r : SftpRequest) (a : Answer)
  /-- Bytes have been written to the local file. -/
  | wrote (i : ι) (data : List UInt8)
  /-- `remove_owned_staging` has confirmed that the file is gone. -/
  | removed (i : ι) (path : String) (cleanup : StagingCleanup)
  /-- The task has been dropped. -/
  | dropped (i : ι)
  deriving DecidableEq

/-- The task that has logged an event. -/
def SftpEvent.task {ι : Type} : SftpEvent ι → ι
  | request i _ => i
  | answered i _ _ => i
  | wrote i _ => i
  | removed i _ _ => i
  | dropped i => i

/-- A state with a log of requests. -/
class HasSftp (σ : Type) (ι : outParam Type) where
  record : σ → SftpEvent ι → σ

export HasSftp (record)

/-- A log alone. -/
instance {ι : Type} : HasSftp (List (SftpEvent ι)) ι := ⟨fun log e => log ++ [e]⟩

variable {σ ι : Type} [HasSftp σ ι]

/-- Logs an event. -/
def note (e : SftpEvent ι) : Proc σ Unit := .modify fun s => record s e

/-- Awaits an answer, unless the task `i` is dropped. -/
def awaitOrDrop (i : ι) (β : Type) : Async σ AppError β := .await (note (.dropped i)) β

/-- Sends a request, and awaits the reply. -/
def request (i : ι) (r : SftpRequest) : Async σ AppError Reply := do
  .lift (note (.request i r))
  let a ← awaitOrDrop i Answer
  .lift (note (.answered i r a))
  return a.reply

/-- The same, unless cancelled before the request is sent or before there is a reply. -/
def requestUnless (i : ι) (cancelled : σ → Bool) (e : AppError) (r : SftpRequest) :
    Async σ AppError Reply := do
  .act fun s => if cancelled s then some (.error (.error e), s)
    else some (.ok (), record s (.request i r))
  let a ← awaitOrDrop i Answer
  .act fun s => if cancelled s then some (.error (.error e), s)
    else some (.ok a.reply, record s (.answered i r a))

end NexusOps.Sftp
