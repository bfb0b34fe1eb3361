import Mathlib.Data.Finset.Option
import Mathlib.Data.Finset.Union
import NexusOps.Sftp.Transfer

/-!
# The transfer manager

The calls of the transfer manager (`enqueue_batch`, `cancel`, `disconnect`,
`quiesce_session`, `quiesce_all` and `shutdown`), and the system of any number of them
together with the jobs they have spawned.

How long a call waits is not modelled: it may find at any time that it has waited too
long.
-/

namespace NexusOps.Sftp

open Concurrency

/-- The calls. -/
inductive TransferCall
  | enqueueBatch (specs : List JobSpec)
  | cancel (id : TransferJobId) (host : HostId) (session : HostSessionId) (sftp : SftpSessionId)
  | disconnect (host : HostId) (session : HostSessionId)
  | quiesceSession (host : HostId) (session : HostSessionId)
  | quiesceAll
  | shutdown

/-- The call only stops jobs. -/
def TransferCall.Stops : TransferCall → Prop
  | enqueueBatch _ => False
  | _ => True

/-- A call of the manager. -/
abbrev ManagerCall := Fallible TransferManager AppError

namespace TransferManager

variable (t : TaskId)

/-! ## Admission -/

/-- The session is being closed. -/
def sessionDisconnecting : AppError :=
  .new .cancelled "This SFTP session is disconnecting."

/-- There is no room for a batch. -/
def queueFull : AppError :=
  transferError "The complete transfer batch cannot fit in the bounded queue."

/-- Admits a batch, under ids that have not been used before. -/
def admitBatch (jobs : List (TransferJobId × JobSpec)) (s : TransferManager) :
    Option (Except AppError Unit × TransferManager) :=
  let ids := jobs.map Prod.fst
  if ids.Nodup ∧ ∀ id ∈ ids, id ∉ s.jobIds then
    if s.state.shuttingDown = true ∨ ∃ job ∈ jobs, job.2.session ∈ s.state.disconnecting then
      some (.error sessionDisconnecting, s)
    else
      let state := s.state.trimHistory
      if JOB_CAP - state.nonterminalCount < jobs.length then
        some (.error queueFull, { s with state := state, log := s.log ++ [.rejected t] })
      else
        some (.ok (), { s with
          state := state.admitAll jobs
          jobIds := s.jobIds ∪ ids.toFinset
          log := s.log ++ [.admitted t jobs] })
  else none

/-- Spawns the admitted jobs, one after the other. -/
def spawnAll : List (TransferJobId × JobSpec) → ManagerCall Unit
  | [] => return ()
  | (id, spec) :: jobs => do
    .act fun s => (s.state.jobs.get id).map fun _ =>
      (.ok (), { s with spawned := Function.update s.spawned id (some spec) })
    spawnAll jobs

/-- Admits a batch of jobs, and spawns them. The ids are drawn at random. -/
def enqueueBatch (specs : List JobSpec) : ManagerCall (List TransferJob) := do
  if specs.isEmpty then
    return []
  else
    let ids ← .ask (Nat → TransferJobId)
    let jobs := specs.zipIdx.map fun (spec, n) => (ids n, spec)
    .act (admitBatch t jobs)
    spawnAll jobs
    return jobs.map fun (id, spec) => (JobRecord.new id spec).view

/-! ## Cancellation -/

/-- Asks the jobs of a set to stop. -/
def requestCancel (p : TransferJobId → TransferJob → Bool) (s : TransferManager) :
    TransferManager :=
  let jobs := s.state.cancellableJobs p
  { s with
    state := s.state.requestCancel p
    cancelled := fun id => decide (id ∈ jobs) || s.cancelled id
    log := s.log ++ [.accepted t jobs] }

/-- Asks a job to stop. -/
def cancel (id : TransferJobId) (host : HostId) (session : HostSessionId)
    (sftp : SftpSessionId) : ManagerCall Unit :=
  .act fun s => match s.state.jobs.get id with
    | none => some (.error (transferError "The transfer no longer exists."), s)
    | some job =>
      if job.view.hostId = host ∧ job.view.hostSessionId = session ∧
          job.view.sftpSessionId = sftp then
        some (.ok (), s.requestCancel t fun id' _ => id' = id)
      else
        some (.error (.new .policy "The transfer does not belong to this SFTP session."), s)

/-- The job belongs to the session. -/
def ofSession (session : HostId × HostSessionId) (_ : TransferJobId) (job : TransferJob) : Bool :=
  job.session = session

/-- Closes a session for new jobs. -/
def closeSession (session : HostId × HostSessionId) (s : TransferManager) : TransferManager :=
  { s with
    state := { s.state with disconnecting := insert session s.state.disconnecting }
    log := s.log ++ [.disconnected t session] }

/-- Closes a session for new jobs, and asks its jobs to stop. -/
def disconnect (host : HostId) (session : HostSessionId) : ManagerCall Unit :=
  .lift (.modify fun s => (s.closeSession t (host, session)).requestCancel t
    (ofSession (host, session)))

/-- The sessions with jobs that have not ended. -/
def activeSessions (m : ManagerState) : Finset (HostId × HostSessionId) :=
  (m.jobs.keysWhere fun _ job => !terminal job.view.state).biUnion fun id =>
    ((m.jobs.get id).map fun job => job.view.session).toFinset

/-- Closes the manager for new jobs, and asks all jobs to stop. -/
def shutdown : ManagerCall Unit :=
  .lift (.modify fun s => { s with state := { s.state with
    shuttingDown := true
    disconnecting := s.state.disconnecting ∪ activeSessions s.state } }.requestCancel t
      fun _ _ => true)

/-! ## Quiescence -/

/-- Waits for the tokens of jobs, one after the other. -/
def waitAll (done : TransferManager → TransferJobId → Bool) (e : AppError) :
    List TransferJobId → ManagerCall Unit
  | [] => return ()
  | id :: ids => do
    let timeout ← .ask Bool
    .ensure (timeout = false) e
    .act fun s => if done s id then some (.ok (), s) else none
    waitAll done e ids

/-- The jobs of a set, in some order. -/
def collect (p : ManagerState → TransferJobId → JobRecord → Bool) :
    ManagerCall (List TransferJobId) := do
  let ids ← .ask (List TransferJobId)
  .act fun s =>
    if ids.Nodup ∧ ids.toFinset = s.state.jobs.keysWhere (p s.state) then some (.ok (), s) else none
  return ids

/-- A staging file may have been left behind. -/
def cleanupNotConfirmed : AppError :=
  transferError "Owned staging cleanup could not be confirmed; the SFTP session remains open."

/-- A job has not ended. -/
def stoppedBeforeCleanup : AppError := transferError
  "A transfer stopped before cleanup could be confirmed; the SFTP session remains open."

/-- What is checked at the end of `quiesce_session`. -/
def checkQuiescent (session : HostId × HostSessionId) (s : TransferManager) :
    Option (Except AppError Unit × TransferManager) :=
  if s.state.jobs.any fun id job => ofSession session id job.view && job.cleanupUnconfirmed then
    some (.error cleanupNotConfirmed, s)
  else if s.state.jobs.any fun id job =>
      ofSession session id job.view && !terminal job.view.state then
    some (.error stoppedBeforeCleanup, s)
  else some (.ok (), { s with log := s.log ++ [.quiesced t session] })

/-- Stops the jobs of a session, and waits for them and for what is cleaned up after
    them. -/
def quiesceSession (host : HostId) (session : HostSessionId) : ManagerCall Unit := do
  disconnect t host session
  let pending ← collect fun _ id job =>
    ofSession (host, session) id job.view && !terminal job.view.state
  waitAll done (transferError ("Transfer cleanup did not finish before the connection " ++
    "timeout; the SFTP session remains open.")) pending
  let cleanup ← collect fun m id job =>
    ofSession (host, session) id job.view && decide (id ∈ m.cleanupTasks)
  waitAll cleanupDone (transferError ("Owned staging cleanup did not finish before the " ++
    "connection timeout; the SFTP session remains open.")) cleanup
  .act (checkQuiescent t (host, session))

/-- Quiesces sessions, one after the other. -/
def quiesceSessions : List (HostId × HostSessionId) → ManagerCall Unit
  | [] => return ()
  | session :: sessions => do
    quiesceSession t session.1 session.2
    quiesceSessions sessions

/-- The sessions with jobs that have not ended or not been cleaned up. -/
def unquietSessions (m : ManagerState) : Finset (HostId × HostSessionId) :=
  (m.jobs.keysWhere fun id job => !terminal job.view.state || job.cleanupUnconfirmed ||
    decide (id ∈ m.cleanupTasks)).biUnion fun id =>
      ((m.jobs.get id).map fun job => job.view.session).toFinset

/-- Quiesces all sessions with jobs. -/
def quiesceAll : ManagerCall Unit := do
  let sessions ← .ask (List (HostId × HostSessionId))
  .act fun s =>
    if sessions.Nodup ∧ sessions.toFinset = unquietSessions s.state then some (.ok (), s) else none
  quiesceSessions t sessions

/-! ## The system -/

/-- A call whose result is not used. -/
def exec {α : Type} (x : ManagerCall α) : Proc TransferManager Unit := do
  let _ ← x.run

/-- The program of a call. -/
def callProgram : TransferCall → Proc TransferManager Unit
  | .enqueueBatch specs => exec (enqueueBatch t specs)
  | .cancel id host session sftp => exec (cancel t id host session sftp)
  | .disconnect host session => exec (disconnect t host session)
  | .quiesceSession host session => exec (quiesceSession t host session)
  | .quiesceAll => exec (quiesceAll t)
  | .shutdown => exec (shutdown t)

/-- The program of a task. -/
def program [Platform] (calls : TaskId → TransferCall) : TransferTask → Proc TransferManager Unit
  | .call t => callProgram t (calls t)
  | .job id => jobTask id
  | .cleanup id => cleanupTask id

/-- The manager and its tasks: `calls t` is the call made by the task `t`, if it is
    started. -/
def system [Platform] (calls : TaskId → TransferCall) : System TransferTask TransferManager where
  init s := s = .new
  entry i p := p = program calls i
  env _ _ := False

end TransferManager

end NexusOps.Sftp
