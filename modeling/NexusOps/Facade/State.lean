import NexusOps.Concurrency.Zoom
import NexusOps.Core.Hosts
import NexusOps.Core.Services
import NexusOps.Sftp.PlanStore
import NexusOps.Ssh.KnownHosts

/-!
# The application with its stores

The application facade as a whole: what the calls share (`Application`), and the stores that
they use, whose replies are not just any here:

* the credentials, which are stored and removed by jobs on the thread pool. A job that has been
  spawned runs to its end, even if the call that waits for it is dropped;
* the pinned keys of the hosts;
* the plans of file operations, and the SFTP sessions;
* the gates and permits of the requests that only read, and the last readings of the monitor.

A call is written on top of the sections of the application that it consists of. It may be
*droppable*: then it can be dropped before any of its sections, so wherever it waits, and gives
up the locks that it holds. What the stores do in one go is not interrupted.
-/

namespace NexusOps

open Concurrency NexusOps.Core RemoteOperations

/-! ## Stores -/

/-- What is done on the thread pool. -/
inductive SecretJob
  | put (id : HostId)
  | delete (id : HostId)
  deriving DecidableEq, Repr

/-- A job that has been spawned. -/
structure JobId where
  number : Nat
  deriving DecidableEq, Repr

/-- The credentials that are stored, the jobs that have been spawned and not done yet, and the
    results of those that have been done. -/
structure Secrets where
  present : Finset HostId
  jobs : JobId → Option SecretJob
  results : JobId → Option (Except AppError Unit)

/-- What has become of an id of a host or of a credential. -/
inductive IdUse
  | unused
  /-- A call has drawn it. -/
  | drawn (t : TaskId)
  /-- It has been stored in the repository. -/
  | stored
  deriving DecidableEq, Repr

/-- The requests that only read, and are not queued. -/
inductive ReadKind
  | network
  | log
  | container
  deriving DecidableEq, Repr

/-- A reading of the monitor. What it says is not used here. -/
structure MonitorReading where
  number : Nat
  deriving DecidableEq, Repr

/-- The last reading of the monitor of a host. -/
structure MonitorState where
  sessionId : HostSessionId
  baseline : MonitorReading
  observedAt : Instant
  deriving DecidableEq, Repr

/-! ## Events -/

/-- What the calls log. -/
inductive FacadeEvent
  /-- An event of the application. -/
  | app (e : AppEvent)
  /-- An event of the store of file plans. -/
  | files (e : Sftp.FileEvent)
  /-- `connect_host` has set the slot to connecting, in this generation, to connect to the
      endpoint. -/
  | offered (t : TaskId) (host : HostId) (attempt : Application.Attempt)
      (connection : HostConnectionConfig)
  /-- The key that the host has presented to `connect_host`, and the verdict on it. -/
  | presented (t : TaskId) (key : HostFingerprint) (verdict : Except AppError Unit)
  /-- `trust_host_key` has pinned the key of the challenge. -/
  | trusted (t : TaskId) (host : HostId) (challenge : HostKeyChallenge)
  /-- `plan_host_key_rotation` has stored a plan. -/
  | planned (t : TaskId) (host : HostId) (authority : RotationAuthority) (now : Instant)
  /-- `execute_host_key_rotation` has taken the plan. -/
  | taken (t : TaskId) (host : HostId) (authority : RotationAuthority)
  /-- `execute_host_key_rotation` has found the plan not to have expired. -/
  | timely (t : TaskId) (now : Instant)
  /-- `execute_host_key_rotation` has replaced the pinned key. -/
  | rotated (t : TaskId) (host : HostId) (authority : RotationAuthority)
  /-- `get_session` has set the connected slot to failed. -/
  | remotelyClosed (t : TaskId) (host : HostId) (session : HostSessionId)
  /-- `close_sftp` has removed the SFTP session of the connection. -/
  | sftpRemoved (t : TaskId) (host : HostId) (session : HostSessionId)
  /-- The terminals of the connection have been disconnected. -/
  | terminalsDisconnected (t : TaskId) (host : HostId) (session : HostSessionId)
  /-- `execute_file_plan` has enqueued the jobs of a plan, which are of this owner. -/
  | enqueued (t : TaskId) (owner : Sftp.FileOwner)
  /-- A request has found the slot of the host connected. -/
  | claimed (t : TaskId) (binding : AuthorityBinding) (transport : TransportId)
  /-- A request has got its permits. -/
  | admitted (t : TaskId) (kind : ReadKind) (host : HostId)
  /-- A request has sent a command over the transport, and got its output. -/
  | output (t : TaskId) (transport : TransportId)
  /-- A request has found the slot connected as before, with all its output read. -/
  | confirmed (t : TaskId)
  /-- A request has given up its permits. -/
  | dismissed (t : TaskId)
  /-- A sample of the monitor has been derived, and the reading kept for the next one. -/
  | sampled (t : TaskId) (host : HostId) (state : MonitorState)
      (previous : Option (MonitorState × Duration))
  /-- The call has returned. -/
  | returned (t : TaskId) (result : Except (Exit AppError) Unit)

/-! ## The state -/

/-- The gate of the monitor of a host. -/
structure MonitorGateId where
  address : Nat
  deriving DecidableEq, Repr

/-- The gates of the monitor (`monitor_gates`), who has locked them, and the last readings
    (`monitor_baselines`). -/
structure Monitors where
  gates : HostId → Option MonitorGateId
  created : Finset MonitorGateId
  holders : MonitorGateId → Option TaskId
  baselines : HostId → Option MonitorState

/-- The state of the application and its stores. -/
structure Facade where
  app : Application
  secrets : Secrets
  pins : Ssh.Pins
  files : Sftp.FilePlanStore
  sftpSessions : HostId → Option Sftp.SftpClient
  /-- The gates of the SFTP sessions (`sftp_startups`), which are never removed. -/
  sftpGates : HostId → Option TaskId
  reads : ReadKind → ServiceAdmission
  monitors : Monitors
  /-- What has become of the ids of hosts and of credentials, which are never drawn again. -/
  ids : HostId → IdUse
  log : List FacadeEvent

/-- A call. -/
abbrev Task := Async Facade AppError

namespace Facade

/-- Logs an event. -/
def note (s : Facade) (e : FacadeEvent) : Facade := { s with log := s.log ++ [e] }

/-- The application, as a part of the state. What it logs is logged. -/
def core : Part Facade Application where
  get := Facade.app
  set s app := { s with
    app := app
    log := s.log ++ (app.log.drop s.app.log.length).map .app }

/-- The plans of file operations, as a part of the state. What the store logs is logged. -/
def plans : Part Facade Sftp.FilePlanStore where
  get := Facade.files
  set s files := { s with
    files := files
    log := s.log ++ (files.log.drop s.files.log.length).map .files }

variable {α β : Type} (droppable : Bool)

/-- A part of a call that only concerns the application. -/
def onApp (x : App α) : Task α := core.lift droppable x

/-- A part of a call that only concerns the plans of file operations. Where it can be dropped is
    said by the call of the store: its functions that do not wait are not interrupted. -/
def onFiles (x : Sftp.PlanCall α) : Task α := do
  .pause droppable
  match ← plans.embed false x.run with
  | .ok a => return a
  | .error e => throw e

/-- A section, before which the call may have to wait. -/
def locked (f : Facade → Option (Except AppError β × Facade)) : Task β := do
  .pause droppable
  .act fun s => (f s).map fun r => (r.1.mapError .error, r.2)

/-- A section that does not fail, and is not blocked. -/
def update (f : Facade → Facade) : Task Unit := locked droppable fun s => some (.ok (), f s)

/-- A section under the lock of a slot. -/
def atSlot (slot : SlotId) (f : SessionData → Facade → Option (Except AppError β × Facade)) :
    Task β :=
  locked droppable fun s => (s.app.slots slot).bind fun data => f data s

/-- A section of the application under the lock of a slot, and what else is logged of it. -/
def onSlot (slot : SlotId)
    (f : SessionData → Application → Option (Except AppError β × Application))
    (events : β → List FacadeEvent) : Task β :=
  atSlot droppable slot fun data s => (f data s.app).map fun r =>
    let s := core.set s r.2
    (r.1, match r.1 with
      | .ok b => { s with log := s.log ++ events b }
      | .error _ => s)

/-- The failures that do not concern the key of a host. -/
def OtherError : Type :=
  { e : AppError // e.hostKey = none ∧ e.code ≠ .unknownHostKey ∧ e.code ≠ .changedHostKey }

/-- What is awaited from elsewhere. -/
def reply (β : Type) : Task β := do
  .pause droppable
  match ← .ask (Except OtherError β) with
  | .ok b => return b
  | .error e => .fail e.1

/-! ## Locks -/

/-- Runs a part of a call while holding the metadata lock. -/
def withMutation (t : TaskId) (body : Task α) : Task α := do
  locked droppable fun s =>
    if s.app.mutation = none then some (.ok (), { s with app.mutation := some t }) else none
  .always body (.modify fun s => { s with app.mutation := none })

/-- Runs a part of a call while holding the lifecycle guard of a host. -/
def withLifecycleGuard (t : TaskId) (id : HostId) (body : Task α) : Task α := do
  locked droppable fun s =>
    (RemoteOperationFoundation.lockGate s.app id (.lifecycle t)).map fun app =>
      (.ok (), { s with app := app })
  .always body (.modify fun s => { s with app := RemoteOperationFoundation.unlockGate s.app id })

/-- Runs a part of a call while holding the SFTP gate of a host. -/
def withSftpGate (t : TaskId) (id : HostId) (body : Task α) : Task α := do
  locked droppable fun s =>
    if s.sftpGates id = none then
      some (.ok (), { s with sftpGates := Function.update s.sftpGates id (some t) })
    else none
  .always body (.modify fun s => { s with sftpGates := Function.update s.sftpGates id none })

/-! ## Jobs on the thread pool -/

/-- Spawns a job, and waits for its result. -/
def spawnBlocking (job : SecretJob) : Task Unit := do
  let id ← .ask JobId
  locked droppable fun s =>
    if s.secrets.jobs id = none ∧ s.secrets.results id = none then
      some (.ok (), { s with
        secrets.jobs := Function.update s.secrets.jobs id (some job) })
    else none
  locked droppable fun s => (s.secrets.results id).map fun result => (result, s)

/-- What a job does, if it succeeds. -/
def SecretJob.run (present : Finset HostId) : SecretJob → Finset HostId
  | .put id => insert id present
  | .delete id => present.erase id

/-- A job is done: it has succeeded, or has had no effect. -/
def finishJob (s : Facade) (id : JobId) (job : SecretJob) (result : Except AppError Unit) :
    Facade :=
  { s with
    secrets.jobs := Function.update s.secrets.jobs id none
    secrets.results := Function.update s.secrets.results id (some result)
    secrets.present := match result with
      | .ok () => SecretJob.run s.secrets.present job
      | .error _ => s.secrets.present }

/-! ## The monitor -/

/-- Forgets the last reading of a host (`clear_monitor`). -/
def clearMonitor (id : HostId) : Task Unit :=
  update droppable fun s =>
    { s with monitors.baselines := Function.update s.monitors.baselines id none }

/-- Forgets the gate of a host as well (`remove_monitor`). -/
def removeMonitor (id : HostId) : Task Unit := do
  clearMonitor droppable id
  update droppable fun s => { s with monitors.gates := Function.update s.monitors.gates id none }

end Facade

end NexusOps
