import NexusOps.Sftp.Manager

/-!
# Transfers

The jobs of the transfer manager (`run_transfer` and what it calls): uploads, saves of
the editor and downloads. An upload is written to a staging file next to its destination,
which is removed again unless it has been committed: by the job, or, if the job is
dropped, by a task that cleans up after it (`RemoteStagingGuard`).

What is shared by reference is part of the state of the manager: the staging guards of
the jobs, their tokens and the locks of their destinations. A task that has been spawned
finds there what it was given.

Besides what the code keeps, the state records where each job is (`Place`), and logs
what happens to it.
-/

namespace NexusOps.Sftp

open Concurrency Function SftpClient

/-- A task: a call of the manager, a job, or the cleanup after a job that was dropped. -/
inductive TransferTask
  | call (t : TaskId)
  | job (id : TransferJobId)
  | cleanup (id : TransferJobId)
  deriving DecidableEq, Repr

/-- The job a task works for. -/
def TransferTask.jobId : TransferTask → Option TransferJobId
  | call _ => none
  | job id => some id
  | cleanup id => some id

/-- The ways to commit a job. -/
inductive CommitKind
  | new
  | replace
  | persist
  deriving DecidableEq, Repr

/-- What is logged. -/
inductive TransferEvent
  /-- A request of a job, or of the cleanup after it. -/
  | sftp (e : SftpEvent TransferTask)
  /-- A batch has been admitted. -/
  | admitted (t : TaskId) (jobs : List (TransferJobId × JobSpec))
  /-- There was no room for a batch. -/
  | rejected (t : TaskId)
  /-- The call has asked these jobs to stop. -/
  | accepted (t : TaskId) (jobs : Finset TransferJobId)
  /-- The call has closed a session for new jobs. -/
  | disconnected (t : TaskId) (session : HostId × HostSessionId)
  /-- `quiesce_session` has returned `Ok`. -/
  | quiesced (t : TaskId) (session : HostId × HostSessionId)
  /-- `enter_finalizing` has returned `Ok`. -/
  | finalizing (id : TransferJobId)
  /-- `commit_new`, `commit_replace` or a local `persist` is called. -/
  | commit (id : TransferJobId) (kind : CommitKind)
  /-- The cleanup of a staging file could not be confirmed. -/
  | unconfirmed (i : TransferTask)
  /-- The job of the task has been set to a state in which it has ended. -/
  | finished (i : TransferTask) (state : TransferState)
  deriving DecidableEq

/-- The task that has logged an event. -/
def TransferEvent.task : TransferEvent → TransferTask
  | sftp e => e.task
  | admitted t _ => .call t
  | rejected t => .call t
  | accepted t _ => .call t
  | disconnected t _ => .call t
  | quiesced t _ => .call t
  | finalizing id => .job id
  | commit id _ => .job id
  | unconfirmed i => i
  | finished i _ => i

/-! ## Permits and locks -/

/-- A lock for a destination, shared between those who hold it. -/
structure DestinationLockId where
  address : Nat
  deriving DecidableEq, Repr

/-- The jobs that have a reference to a lock, and the one that has locked it. -/
structure DestinationLock where
  users : Finset TransferJobId
  holder : Option TransferJobId

/-- Where a job is. -/
inductive Place
  /-- It waits for a permit of its host. -/
  | awaitingHost
  /-- It waits for a permit of the manager. -/
  | awaitingGlobal
  /-- It waits for the lock of its destination. -/
  | awaitingDestination (lock : DestinationLockId)
  /-- It is inside `run_transfer`. -/
  | transferring (lock : DestinationLockId)
  /-- It no longer needs the lock, which is still in the map. -/
  | leaving (lock : DestinationLockId)
  /-- It is none of these. -/
  | elsewhere
  deriving DecidableEq, Repr

/-- The lock a job waits for, holds or has held. -/
def Place.lock : Place → Option DestinationLockId
  | awaitingDestination lock => some lock
  | transferring lock => some lock
  | leaving lock => some lock
  | _ => none

/-- What the jobs wait for: the permits of the manager and of each host, as the jobs that
    hold them (the semaphore of a host is created when first used, so an unused one is
    free), and the locks of their destinations. -/
structure Scheduler where
  global : Finset TransferJobId
  hosts : HostId → Finset TransferJobId
  destinations : DestinationKey → Option DestinationLockId
  locks : DestinationLockId → Option DestinationLock
  place : TransferJobId → Place

namespace Scheduler

/-- No job has been started. -/
def default : Scheduler := ⟨∅, fun _ => ∅, fun _ => none, fun _ => none, fun _ => .elsewhere⟩

variable (c : Scheduler) (id : TransferJobId)

/-- Sets where a job is. -/
def move (place : Place) : Scheduler := { c with place := update c.place id place }

/-- Changes a lock. -/
def updateLock (lock : DestinationLockId) (f : DestinationLock → DestinationLock) : Scheduler :=
  { c with locks := update c.locks lock ((c.locks lock).map f) }

/-- Takes a permit of a host, if there is one. -/
def takeHost (host : HostId) : Option Scheduler :=
  if (c.hosts host).card < HOST_ACTIVE then
    some ({ c with hosts := update c.hosts host (insert id (c.hosts host)) }.move id
      .awaitingGlobal)
  else none

/-- Returns a permit of a host. -/
def releaseHost (host : HostId) : Scheduler :=
  { c with hosts := update c.hosts host ((c.hosts host).erase id) }

/-- Takes a permit of the manager, if there is one. -/
def takeGlobal : Option Scheduler :=
  if c.global.card < GLOBAL_ACTIVE then
    some ({ c with global := insert id c.global }.move id .elsewhere)
  else none

/-- Returns a permit of the manager. -/
def releaseGlobal : Scheduler := { c with global := c.global.erase id }

/-- Gets the lock of a destination. A new one is put where there was none. -/
def cloneLock (key : DestinationKey) (fresh : DestinationLockId) :
    Option (DestinationLockId × Scheduler) :=
  match c.destinations key with
  | some lock => some (lock, (c.updateLock lock fun l =>
      { l with users := insert id l.users }).move id (.awaitingDestination lock))
  | none =>
    if c.locks fresh = none then
      some (fresh, { c with
        destinations := update c.destinations key (some fresh)
        locks := update c.locks fresh (some ⟨{id}, none⟩) }.move id
          (.awaitingDestination fresh))
    else none

/-- Locks a destination, if it is not locked. -/
def lockDestination (lock : DestinationLockId) : Option Scheduler :=
  (c.locks lock).bind fun l =>
    if l.holder = none then
      some ((c.updateLock lock fun l => { l with holder := some id }).move id (.transferring lock))
    else none

/-- Unlocks a destination. -/
def unlockDestination (lock : DestinationLockId) : Scheduler :=
  (c.updateLock lock fun l => { l with holder := none }).move id (.leaving lock)

/-- The number of references to a lock: that of the map, and those of the jobs. -/
def strongCount (key : DestinationKey) (lock : DestinationLockId) : Nat :=
  ((c.locks lock).elim 0 fun l => l.users.card) + if c.destinations key = some lock then 1 else 0

/-- Removes the lock of a destination from the map, if no other job has a reference to
    it. -/
def forgetDestination (key : DestinationKey) (lock : DestinationLockId) : Scheduler :=
  (if c.strongCount key lock = 2 then
    { c with destinations := update c.destinations key none }
  else c).move id .elsewhere

/-- Drops the reference of a job to a lock. -/
def dropLock (lock : DestinationLockId) : Scheduler :=
  (c.updateLock lock fun l => { l with users := l.users.erase id }).move id .elsewhere

end Scheduler

/-! ## The state -/

/-- What guards a staging file. -/
structure RemoteStagingGuard where
  path : String
  armed : Bool
  owned : Bool
  deriving DecidableEq, Repr

/-- The state of the transfer manager and its tasks. -/
structure TransferManager where
  state : ManagerState
  scheduler : Scheduler
  /-- The jobs whose token `cancel` is cancelled. -/
  cancelled : TransferJobId → Bool
  /-- The jobs whose token `done` is cancelled: their task has ended. -/
  done : TransferJobId → Bool
  /-- The jobs whose cleanup has signalled its end. -/
  cleanupDone : TransferJobId → Bool
  guards : TransferJobId → Option RemoteStagingGuard
  /-- The jobs that have been spawned, and what they were given. -/
  spawned : TransferJobId → Option JobSpec
  /-- The cleanups that have been spawned, and the path they were given. -/
  cleanups : TransferJobId → Option String
  /-- The ids used so far. -/
  jobIds : Finset TransferJobId
  log : List TransferEvent

instance : HasSftp TransferManager TransferTask where
  record s e := { s with log := s.log ++ [.sftp e] }

/-- A function of a job. -/
abbrev Transfer := Async TransferManager AppError

namespace TransferManager

@[simp] theorem record_eq (s : TransferManager) (e : SftpEvent TransferTask) :
    record s e = { s with log := s.log ++ [.sftp e] } := rfl

/-- A new manager. -/
def new : TransferManager where
  state := .default
  scheduler := .default
  cancelled _ := false
  done _ := false
  cleanupDone _ := false
  guards _ := none
  spawned _ := none
  cleanups _ := none
  jobIds := ∅
  log := []

/-- A section on the permits and locks. -/
def schedule (f : Scheduler → Scheduler) : Proc TransferManager Unit :=
  .modify fun s => { s with scheduler := f s.scheduler }

variable (i : TransferTask) (id : TransferJobId)

/-! ## The record of a job -/

/-- The event that a job has ended, if it has. -/
def finishedEvents (s : TransferManager) (next : TransferState) : List TransferEvent :=
  if terminal next && (s.state.jobs.get id).isSome then [.finished i next] else []

/-- Moves the job to another state. -/
def setState (next : TransferState) : Proc TransferManager Unit :=
  .modify fun s => { s with
    state := s.state.setState id next
    log := s.log ++ s.finishedEvents i id next }

/-- The job has failed. -/
def finishError (error : AppError) : Proc TransferManager Unit :=
  .modify fun s => { s with
    state := s.state.finishError id error
    log := s.log ++ s.finishedEvents i id .failed }

/-- It is not known what the job has done. -/
def finishUnknown (error : AppError) : Proc TransferManager Unit :=
  .modify fun s => { s with
    state := s.state.finishUnknown id error
    log := s.log ++ s.finishedEvents i id .outcomeUnknown }

/-- Notes the progress of the job. -/
def progress (bytes : Nat) : Proc TransferManager Unit :=
  .modify fun s => { s with state := s.state.progress id bytes }

/-- Starts the part of the job that cannot be cancelled. -/
def enterFinalizing : Transfer Unit :=
  .act fun s => match s.state.enterFinalizing id (s.cancelled id) with
    | (.ok (), state) => some (.ok (), { s with state := state, log := s.log ++ [.finalizing id] })
    | (.error e, state) => some (.error (.error e), { s with state := state })

/-- Notes that a staging file may have been left behind. -/
def markUnconfirmed : Proc TransferManager Unit :=
  .modify fun s => { s with
    state := s.state.markUnconfirmed id
    log := s.log ++ [.unconfirmed i] }

/-- Notes that the job is committed. -/
def noteCommit (kind : CommitKind) : Proc TransferManager Unit :=
  .modify fun s => { s with log := s.log ++ [.commit id kind] }

/-! ## Staging guards -/

/-- Changes the guard of the job. -/
def setGuard (f : Option RemoteStagingGuard → Option RemoteStagingGuard) :
    Proc TransferManager Unit :=
  .modify fun s => { s with guards := update s.guards id (f (s.guards id)) }

/-- The server has confirmed that it created the staging file. -/
def markOwned : Proc TransferManager Unit :=
  setGuard id fun guard => guard.map fun g => { g with owned := true }

/-- The staging file is no longer guarded. -/
def disarm : Proc TransferManager Unit :=
  setGuard id fun guard => guard.map fun g => { g with armed := false }

/-- Removes the staging file, if it is the job's. -/
def cleanup : Transfer Unit := do
  match ← .read fun s => s.guards id with
  | some ⟨path, true, true⟩ =>
    match ← .attempt (removeOwnedStaging (.job id) path) with
    | .ok _ => .lift (disarm id)
    | .error e =>
      .lift (disarm id)
      .lift (markUnconfirmed (.job id) id)
      .fail (.new e.code
        "Owned staging cleanup could not be confirmed; inspect the remote directory.")
  | _ => .lift (disarm id)

/-- Drops the guard: a staging file that is still guarded is cleaned up by a task of its
    own. -/
def dropGuard : Proc TransferManager Unit := do
  match ← .act fun s => some (s.guards id, { s with guards := update s.guards id none }) with
  | some ⟨path, true, true⟩ =>
    .modify fun s => { s with
      state := { s.state with cleanupTasks := insert id s.state.cleanupTasks } }
    .modify fun s => { s with cleanups := update s.cleanups id (some path) }
  | _ => return ()

/-- Runs a part of the job with a guard for the staging file. -/
def withStagingGuard {α : Type} (staging : String) (body : Transfer α) : Transfer α := do
  .lift (setGuard id fun _ => some ⟨staging, true, false⟩)
  .always body (dropGuard id)

/-- Removes the staging file, and fails. -/
def cleanupAndFail {α : Type} (e : AppError) : Transfer α := do
  cleanup id
  .fail e

/-- Removes the staging file and fails, if the result is a failure. -/
def orCleanup {α : Type} (result : Except AppError α) : Transfer α :=
  match result with
  | .ok a => return a
  | .error e => cleanupAndFail id e

/-- Removes the staging file and fails with `e`, unless `p` holds. -/
def ensureOrCleanup (p : Prop) [Decidable p] (e : AppError) : Transfer Unit :=
  if p then return () else cleanupAndFail id e

/-! ## Uploads -/

/-- The name of a staging file. -/
def stagingName (suffix : String) : String :=
  ".nexusops-" ++ String.ofList (List.leftpad 32 '0' (Nat.toDigits 16 id.uuid)) ++ suffix

/-- The path of the staging file of the job. -/
def stagingPath (destination suffix : String) : Except AppError String := do
  let parent ← parentRemote destination
  joinRemote parent (stagingName id suffix)

/-- The result of a local operation. -/
def askLocal (α : Type) : Transfer α := do
  let result ← .ask (Except AppError α)
  .ofExcept result

/-- Writes the staging file. A failure after it was created is one of the cancellation, if
    the job was cancelled. -/
def uploadStaging (client : SftpClient) (reader : Reader) (staging cancelled : String) :
    Transfer Nat := do
  .lift (setState (.job id) id .transferring)
  match ← uploadStaged (.job id) client reader staging (markOwned id)
      (fun s => s.cancelled id) (progress id) with
  | .ok streamed => return streamed
  | .error (.notCreated e) => .fail e
  | .error (.creationOutcomeUnknown e) => .fail e
  | .error (.ownedFailure e) =>
    cleanup id
    if (← .read fun s => s.cancelled id) ∧ e.code ≠ .outcomeUnknown then
      .fail (.new .cancelled cancelled)
    else
      .fail e

/-- Ends a job that has tried to commit: a staging file that was not committed is
    removed. -/
def settleCommit (result : Except AppError Unit) (unknown : String) : Transfer Unit :=
  match result with
  | .ok () => .lift (disarm id)
  | .error e => do
    match ← .attempt (cleanup id) with
    | .ok () => .fail e
    | .error cleanupError =>
      if e.code = .outcomeUnknown then .fail (.new .outcomeUnknown unknown)
      else .fail cleanupError

/-- What is at the destination is what was approved. -/
def destinationMatches {T : Type} [DecidableEq T] (action : DestinationAction T)
    (current : Option T) : Bool :=
  match action with
  | .createNew => current.isNone
  | .replaceExisting expected => current = some expected
  | .skip => true

/-- The part of an upload with a staging file. -/
def uploadVia (client : SftpClient) (source : LocalItem) (destination : String)
    (action : DestinationAction EntryIdentity) (staging : String) : Transfer Unit := do
  let streamed ← uploadStaging id client .file staging
    "The transfer was cancelled before finalization."
  ensureOrCleanup id (streamed = source.size)
    (transferError "The local source size changed during transfer.")
  let valid ← .ask (Except AppError Unit)
  orCleanup id valid
  ensureOrCleanup id (¬(← .read fun s => s.cancelled id) = true)
    ManagerState.cancelledBeforeFinalization
  let finalizing ← .attempt (enterFinalizing id)
  orCleanup id finalizing
  let current ← .attempt (identity (.job id) destination)
  let current ← orCleanup id current
  ensureOrCleanup id (destinationMatches action current = true)
    (.new .conflict "The remote destination changed after approval.")
  let result ← match action with
    | .replaceExisting _ => do
      .lift (noteCommit id .replace)
      .attempt (commitReplace (.job id) client staging destination)
    | .createNew => do
      .lift (noteCommit id .new)
      .attempt (commitNew (.job id) client staging destination)
    | .skip => pure (.ok ())
  settleCommit id result ("The final mutation and owned staging cleanup could not be " ++
    "confirmed; refresh before taking another action.")

/-- Uploads a local file. -/
def runUpload (client : SftpClient) (source : LocalItem) (destination : String)
    (action : DestinationAction EntryIdentity) : Transfer Unit := do
  askLocal Unit
  let cloned ← .ask Bool
  .ensure (cloned = true)
    (.new .localAccess "The selected local source handle is unavailable.")
  let atStart ← awaitOrDrop (.job id) Bool
  .ensure (atStart = true)
    (.new .localAccess "The selected local source could not be read from the beginning.")
  let staging ← .ofExcept (stagingPath id destination ".part")
  withStagingGuard id staging (uploadVia id client source destination action staging)

/-! ## Saves of the editor -/

variable [Platform]

/-- The file of the editor is as it was opened. -/
def checkEditorFile (client : SftpClient) (destination : String) (expected : EditorRevision)
    (originalDigest : Digest) (changed contentsChanged : String) : Transfer Unit := do
  let current ← .attempt (editorRevision (.job id) destination)
  match current with
  | .error e => cleanupAndFail id e
  | .ok revision => ensureOrCleanup id (revision = expected) (.new .conflict changed)
  let bytes ← .attempt (readEditorBytes (.job id) client destination)
  let bytes ← orCleanup id bytes
  ensureOrCleanup id (Platform.sha256 bytes = originalDigest) (.new .conflict contentsChanged)

/-- The part of a save with a staging file. -/
def saveVia (client : SftpClient) (bytes : List UInt8) (expected : EditorRevision)
    (originalDigest : Digest) (destination staging : String) : Transfer Unit := do
  let streamed ← uploadStaging id client (.memory bytes) staging
    "Editor save was cancelled before finalization."
  ensureOrCleanup id (streamed = bytes.length)
    (transferError "The editor staging byte count did not match.")
  let preserved ← .attempt (preserveEditorMetadata (.job id) staging expected)
  orCleanup id preserved
  checkEditorFile id client destination expected originalDigest
    "The remote file changed during editor staging."
    "The remote file contents changed during editor staging."
  checkEditorFile id client destination expected originalDigest
    "The remote file changed before editor replacement."
    "The remote file contents changed before editor replacement."
  let finalizing ← .attempt (enterFinalizing id)
  orCleanup id finalizing
  .lift (noteCommit id .replace)
  let result ← .attempt (commitReplace (.job id) client staging destination)
  settleCommit id result
    "Editor replacement and owned staging cleanup could not be confirmed."

/-- Saves the text of the editor, if the file is as it was opened. -/
def runEditorSave (client : SftpClient) (bytes : List UInt8) (expected : EditorRevision)
    (originalDigest : Digest) (destination : String) : Transfer Unit := do
  let revision ← editorRevision (.job id) destination
  .ensure (revision = expected) (.new .conflict "The remote file changed before editor save.")
  let contents ← readEditorBytes (.job id) client destination
  .ensure (Platform.sha256 contents = originalDigest)
    (.new .conflict "The remote file contents changed before editor save.")
  let staging ← .ofExcept (stagingPath id destination ".edit.part")
  withStagingGuard id staging (saveVia id client bytes expected originalDigest destination staging)

/-! ## Downloads -/

/-- Downloads a remote file to a temporary local file, which is then made the
    destination. -/
def runDownload (client : SftpClient) (source : RemoteSource)
    (action : DestinationAction LocalIdentity) : Transfer Unit := do
  let before ← identity (.job id) source.path
  .ensure (before = some source.identity)
    (.new .conflict "The remote source changed after approval.")
  askLocal Unit
  let created ← .ask Bool
  .ensure (created = true) (.new .localAccess "A local staging file could not be created.")
  .lift (setState (.job id) id .transferring)
  let bytes ← match ← .attempt (download (.job id) client source.path
      (fun s => s.cancelled id) (progress id)) with
    | .ok bytes => pure bytes
    | .error e =>
      if (← .read fun s => s.cancelled id) ∧ e.code ≠ .outcomeUnknown then
        .fail ManagerState.cancelledBeforeFinalization
      else
        .fail e
  .ensure (∀ size, source.size = some size → size = bytes)
    (transferError "The remote source size changed during transfer.")
  let after ← identity (.job id) source.path
  .ensure (after = some source.identity)
    (.new .conflict "The remote source changed during transfer.")
  let synced ← awaitOrDrop (.job id) Bool
  .ensure (synced = true)
    (transferError "The local staging file could not be synchronized.")
  .ensure (¬(← .read fun s => s.cancelled id) = true) ManagerState.cancelledBeforeFinalization
  enterFinalizing id
  askLocal Unit
  let current ← askLocal (Option LocalIdentity)
  .ensure (destinationMatches action current = true)
    (.new .conflict "The local destination changed after approval.")
  match action with
  | .replaceExisting _ =>
    .lift (noteCommit id .persist)
    let persisted ← .ask Bool
    .ensure (persisted = true)
      (.new .outcomeUnknown "The local Replace result could not be confirmed.")
  | .createNew =>
    .lift (noteCommit id .persist)
    let persisted ← .ask Bool
    .ensure (persisted = true)
      (.new .conflict "The local destination appeared before finalization.")
  | .skip => return ()

/-- Does what the job is to do. -/
def runTransfer (spec : JobSpec) : Transfer Unit :=
  if spec.Skips then return ()
  else match spec.source, spec.destination with
    | .editor bytes expected originalDigest, .remote path _ =>
      runEditorSave id spec.client bytes expected originalDigest path
    | .localFile source, .remote path action => runUpload id spec.client source path action
    | .remote source, .localFile _ _ action => runDownload id spec.client source action
    | _, _ => .fail (transferError "Invalid transfer specification.")

/-! ## Jobs -/

/-- What came of waiting for a permit. -/
inductive Acquired
  | cancelled
  | closed
  | acquired

/-- Waits, unless the job is dropped: then it is somewhere else. -/
def awaitAt (β : Type) (place : Place) : Transfer β :=
  .await (do note (.dropped (.job id)); schedule (·.move id place)) β

/-- Waits for a permit, unless cancelled. -/
def acquire (take : Scheduler → Option Scheduler) : Transfer Acquired := do
  let closed ← awaitAt id Bool .elsewhere
  .act fun s =>
    if s.cancelled id then
      some (.ok .cancelled, { s with scheduler := s.scheduler.move id .elsewhere })
    else if closed then
      some (.ok .closed, { s with scheduler := s.scheduler.move id .elsewhere })
    else (take s.scheduler).map fun scheduler => (.ok .acquired, { s with scheduler := scheduler })

/-- The semaphore of a permit was closed. -/
def queueStopped : AppError := transferError "The transfer queue stopped."

/-- Waits for the lock of the destination, unless cancelled. -/
def lockDestination (lock : DestinationLockId) : Transfer Bool := do
  awaitAt id Unit (.leaving lock)
  .act fun s =>
    if s.cancelled id then
      some (.ok false, { s with scheduler := s.scheduler.move id (.leaving lock) })
    else (s.scheduler.lockDestination id lock).map fun scheduler =>
      (.ok true, { s with scheduler := scheduler })

/-- The part of a job with the lock of its destination. -/
def runWithLock (spec : JobSpec) (lock : DestinationLockId) :
    Transfer (Option (Except AppError Unit)) := do
  if ← lockDestination id lock then
    let outcome ← .always (Async.attempt (runTransfer id spec))
      (schedule (·.unlockDestination id lock))
    return some outcome
  else
    .lift (setState (.job id) id .cancelled)
    .lift (schedule (·.forgetDestination id (destinationKey spec) lock))
    .lift (schedule (·.dropLock id lock))
    return none

/-- The part of a job with both permits. -/
def runWithPermits (spec : JobSpec) :
    Transfer (Option (DestinationLockId × Except AppError Unit)) := do
  .lift (setState (.job id) id .preparing)
  let fresh ← .ask DestinationLockId
  let lock ← .act fun s => (s.scheduler.cloneLock id (destinationKey spec) fresh).map
    fun (lock, scheduler) => (.ok lock, { s with scheduler := scheduler })
  let outcome ← .onError (runWithLock id spec lock) (schedule (·.dropLock id lock))
  return outcome.map fun outcome => (lock, outcome)

/-- The part of a job with the permit of its host. -/
def runOnHost (spec : JobSpec) :
    Transfer (Option (DestinationLockId × Except AppError Unit)) := do
  match ← acquire id (·.takeGlobal id) with
  | .cancelled =>
    .lift (setState (.job id) id .cancelled)
    return none
  | .closed =>
    .lift (finishError (.job id) id queueStopped)
    return none
  | .acquired => .always (runWithPermits id spec) (schedule (·.releaseGlobal id))

/-- Notes how the job has ended. -/
def finish (outcome : Except AppError Unit) : Proc TransferManager Unit :=
  match outcome with
  | .ok () => setState (.job id) id .completed
  | .error e =>
    if e.code = .cancelled then setState (.job id) id .cancelled
    else if e.code = .outcomeUnknown then finishUnknown (.job id) id e
    else finishError (.job id) id e

/-- A job. -/
def runJob (spec : JobSpec) : Transfer Unit := do
  let host := spec.client.info.hostId
  .lift (schedule (·.move id .awaitingHost))
  match ← acquire id (·.takeHost id host) with
  | .cancelled => .lift (setState (.job id) id .cancelled)
  | .closed => .lift (finishError (.job id) id queueStopped)
  | .acquired =>
    match ← .always (runOnHost id spec) (schedule (·.releaseHost id host)) with
    | none => return ()
    | some (lock, outcome) =>
      .lift (schedule (·.forgetDestination id (destinationKey spec) lock))
      .lift (finish id outcome)
      .lift (schedule (·.dropLock id lock))

/-- The task of a job. One that is dropped before it runs does not signal its end. -/
def jobTask : Proc TransferManager Unit := do
  let dropped ← .ask Bool
  let spec ← .act fun s => (s.spawned id).map fun spec => (spec, s)
  if dropped then
    note (.dropped (.job id))
  else
    let _ ← (runJob id spec).run
    .modify fun s => { s with done := update s.done id true }

omit [Platform] in
/-- The task that cleans up after a job that was dropped. -/
def cleanupTask : Proc TransferManager Unit := do
  let path ← .act fun s => (s.cleanups id).map fun path => (path, s)
  let result : Transfer (Except AppError StagingCleanup) :=
    .attempt (removeOwnedStaging (.cleanup id) path)
  match ← result.run with
  | .error _ => return ()
  | .ok result =>
    match result with
    | .ok _ =>
      finishError (.cleanup id) id
        (transferError "The transfer stopped unexpectedly after owned staging was removed.")
    | .error _ =>
      markUnconfirmed (.cleanup id) id
      finishError (.cleanup id) id
        (transferError "The transfer stopped and owned staging cleanup could not be confirmed.")
    .modify fun s => { s with cleanupDone := update s.cleanupDone id true }
    .modify fun s => { s with
      state := { s.state with cleanupTasks := s.state.cleanupTasks.erase id } }

end TransferManager

end NexusOps.Sftp
