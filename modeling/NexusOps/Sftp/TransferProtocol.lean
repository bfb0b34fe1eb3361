import Mathlib.Data.Finset.Card
import NexusOps.Concurrency.History
import NexusOps.Concurrency.RelyGuarantee
import NexusOps.Sftp.TransferSystem

/-!
# Interleavings of transfers

What holds in every interleaving of the calls of the transfer manager, its jobs and
the cleanups after them (`TransferManager.Inv`):

* the records of the jobs agree with the log (`Records`);
* jobs and cleanups are run by those they were spawned for (`Tickets`);
* permits and locks are held by jobs that have not ended (`Scheduled`);
* the log accounts for every event (`Rule`). In particular, a job that is set to a state
  in which it has ended has left nothing behind, or has been flagged (`Ending`).

`TransferManager.Guarantee` is what a step of a task does. A job is worked on by one
task at a time: the job itself or, once it has been dropped, the cleanup after it
(`TransferManager.Owns`). What the others do to it is to ask it to stop.
-/

namespace NexusOps.Sftp

open Concurrency

/-! ## Histories -/

/-- The request is one to remove a file. -/
def SftpRequest.Removes : SftpRequest → Prop
  | remove _ => True
  | _ => False

/-- The request is one to put a file at its destination. -/
def SftpRequest.Commits : SftpRequest → Prop
  | hardlink _ _ => True
  | posixRename _ _ => True
  | _ => False

/-- The server has confirmed the request. -/
def Answer.Confirmed (a : Answer) : Prop := a.reply = .packet (.status .ok)

section

variable (log : List TransferEvent) (j : TransferJobId)

/-- The call has admitted the job. -/
def AdmittedBy (t : TaskId) (spec : JobSpec) : Prop :=
  ∃ jobs, .admitted t jobs ∈ log ∧ (j, spec) ∈ jobs

/-- The job has been admitted. -/
def Admitted (spec : JobSpec) : Prop := ∃ t, AdmittedBy log j t spec

/-- The job has been asked to stop. -/
def Accepted : Prop := ∃ t jobs, .accepted t jobs ∈ log ∧ j ∈ jobs

/-- The job has been set to a state in which it has ended. -/
def Finished : Prop := ∃ i state, .finished i state ∈ log ∧ i.jobId = some j

/-- A staging file of the job may have been left behind. -/
def Unconfirmed : Prop := ∃ i, .unconfirmed i ∈ log ∧ i.jobId = some j

/-- The server has confirmed that it created the file for the job. -/
def Created (path : String) : Prop :=
  ∃ permissions a handle, .sftp (.answered (.job j) (.openExclusive path permissions) a) ∈ log ∧
    a.reply = .packet (.handle handle)

/-- The server has confirmed that the file is gone. -/
def Removed (path : String) : Prop :=
  ∃ i cleanup, .sftp (.removed i path cleanup) ∈ log ∧ i.jobId = some j

/-- The server has confirmed that the staging file was moved to the destination, or linked
    there and then removed. -/
def Committed (path destination : String) : Prop :=
  (∃ a, .sftp (.answered (.job j) (.posixRename path destination) a) ∈ log ∧ a.Confirmed) ∨
    ∃ a a', .sftp (.answered (.job j) (.hardlink path destination) a) ∈ log ∧ a.Confirmed ∧
      .sftp (.answered (.job j) (.remove path) a') ∈ log ∧ a'.Confirmed

/-- Every request of the kind `p` for the job has been followed by an answer to it, or to
    one that repeats it. -/
def Settled (p : SftpRequest → Prop) : Prop :=
  Followed (fun e => ∃ i r, e = .sftp (.request i r) ∧ i.jobId = some j ∧ p r)
    (fun e e' => ∃ i i' r a, e = .sftp (.request i r) ∧ e' = .sftp (.answered i' r a) ∧
      i'.jobId = some j) log

/-- Nothing has been put at a destination of the job: all requests to do so have been
    answered, and none has been applied. -/
structure Unapplied : Prop where
  settled : Settled log j SftpRequest.Commits
  unapplied : ∀ i r a, i.jobId = some j → r.Commits → .sftp (.answered i r a) ∈ log →
    a.applied = false

/-- Nothing is left of the staging files of the job, unless that is on record. -/
structure Tidy : Prop where
  settled : Settled log j SftpRequest.Removes
  staged : ∀ path, Created log j path →
    (∃ destination, Committed log j path destination) ∨ Removed log j path ∨ Unconfirmed log j

end

/-- The job is to write a staging file, and to put it at the destination. -/
def JobSpec.StagesTo (spec : JobSpec) (destination : String) : Prop :=
  ¬spec.Skips ∧ (∃ action, spec.destination = .remote destination action) ∧
    ∀ source, spec.source ≠ .remote source

/-- A state in which a job has ended tells what has happened at its destination. -/
def Honest (log : List TransferEvent) (j : TransferJobId) (destination : String) :
    TransferState → Prop
  | .completed => ∃ path, Created log j path ∧ Committed log j path destination
  | .failed => Unapplied log j
  | .cancelled => Unapplied log j
  | _ => True

/-- What holds as the job is set to a state in which it has ended, by the task `i`. -/
structure Ending (log : List TransferEvent) (j : TransferJobId) (i : TransferTask) (spec : JobSpec)
    (state : TransferState) : Prop where
  tidy : Tidy log j
  completed : state = .completed → spec.Skips ∨ .finalizing j ∈ log
  honest : i = .job j → ∀ destination, spec.StagesTo destination → Honest log j destination state

/-- What a request for a job rests on. -/
def SftpRule (pre : List TransferEvent) (j : TransferJobId) : SftpEvent TransferTask → Prop
  | .request _ (.remove path) => Created pre j path
  | .request _ (.hardlink _ _) => .finalizing j ∈ pre
  | .request _ (.posixRename _ _) => .finalizing j ∈ pre
  | .removed i path cleanup => ∃ a, .sftp (.answered i (.remove path) a) ∈ pre ∧
      a.reply = .packet (.status cleanup.status)
  | _ => True

/-- What the log accounts for, event by event. -/
def Rule (pre : List TransferEvent) : TransferEvent → Prop
  | .admitted _ jobs => ∀ job ∈ jobs, ∀ t, .disconnected t job.2.session ∉ pre
  | .accepted _ jobs => ∀ j ∈ jobs, .finalizing j ∉ pre
  | .finalizing j => ¬Accepted pre j
  | .commit j _ => .finalizing j ∈ pre
  | .sftp e => ∀ j, e.task.jobId = some j →
      (∃ spec, Admitted pre j spec) ∧ ¬Finished pre j ∧ SftpRule pre j e
  | .finished i state => terminal state = true ∧ ∀ j, i.jobId = some j →
      ¬Finished pre j ∧ ∃ spec, Admitted pre j spec ∧ Ending pre j i spec state
  | .quiesced _ session => (∃ t, .disconnected t session ∈ pre) ∧
      ∀ j spec, Admitted pre j spec → spec.session = session →
        Finished pre j ∧ ¬Unconfirmed pre j
  | _ => True

/-- The step that logs the event has trimmed the history. -/
def TransferEvent.Trims : TransferEvent → Prop
  | admitted _ _ => True
  | rejected _ => True
  | finished _ _ => True
  | _ => False

namespace TransferManager

/-! ## What a task does -/

/-- The job has a record, and has not ended. -/
def Unfinished (s : TransferManager) (j : TransferJobId) : Prop :=
  ∃ job, s.state.jobs.get j = some job ∧ terminal job.view.state = false

/-- The task is the one that works on its job. -/
def Owns (s : TransferManager) : TransferTask → Prop
  | .call _ => True
  | .job j => s.spawned j ≠ none ∧ s.cleanups j = none
  | .cleanup j => s.cleanups j ≠ none

/-- What only a job itself changes: where it is, what it holds, and whether its task has
    ended. -/
structure SamePrivate (s s' : TransferManager) (j : TransferJobId) : Prop where
  place : s'.scheduler.place j = s.scheduler.place j
  global : j ∈ s'.scheduler.global ↔ j ∈ s.scheduler.global
  hosts : ∀ host, j ∈ s'.scheduler.hosts host ↔ j ∈ s.scheduler.hosts host
  done : s'.done j = s.done j
  guards : s'.guards j = s.guards j

/-- What a batch that is admitted adds. -/
structure Admits (calls : TaskId → TransferCall) (t : TaskId) (jobs : List (TransferJobId × JobSpec))
    (s s' : TransferManager) : Prop where
  call : calls t = .enqueueBatch (jobs.map Prod.snd)
  order : s'.state.order = s.state.trimHistory.order ++ jobs.map Prod.fst
  records : ∀ job ∈ jobs, s'.state.jobs.get job.1 = some (.new job.1 job.2)

/-- How a step of the task `i` may move the job `j` from one state to another. -/
def Moves (i : TransferTask) (j : TransferJobId) (x y : TransferState) : Prop :=
  y = x ∨ cancellable x = true ∧ y = .cancelRequested ∨ i.jobId = some j ∧
    (terminal y = true ∨ i = .job j ∧ (y = .preparing ∨ y = .transferring) ∨
      y = .finalizing ∧ x ≠ .cancelRequested)

/-- How a step of the task `i` may change the record of the job `j`. -/
structure Changes (i : TransferTask) (j : TransferJobId) (job job' : JobRecord) : Prop where
  moves : Moves i j job.view.state job'.view.state
  session : job'.view.session = job.view.session
  flag : i.jobId ≠ some j → job'.cleanupUnconfirmed = job.cleanupUnconfirmed

/-- What a step of the task `i` shows of the jobs. -/
structure Shows (i : TransferTask) (s s' : TransferManager) : Prop where
  changes : ∀ j job job', s.state.jobs.get j = some job → s'.state.jobs.get j = some job' →
    Changes i j job job'
  added : ∀ j job', s.state.jobs.get j = none → s'.state.jobs.get j = some job' →
    j ∉ s.jobIds ∧ job'.view.session ∉ s.state.disconnecting
  jobIds : s.jobIds ⊆ s'.jobIds
  disconnecting : s.state.disconnecting ⊆ s'.state.disconnecting
  cleanupTasks : ∀ j, i.jobId ≠ some j →
    (j ∈ s'.state.cleanupTasks ↔ j ∈ s.state.cleanupTasks)

/-- What a step of the task `i` does. -/
structure Guarantee (calls : TaskId → TransferCall) (i : TransferTask) (s s' : TransferManager) :
    Prop where
  log : ∃ es, s'.log = s.log ++ es ∧ ∀ e ∈ es, e.task = i ∧ s.Owns i
  unfinished : ∀ j, s.Unfinished j → s'.Unfinished j ∨ i.jobId = some j ∧ s.Owns i
  same : ∀ j, i ≠ .job j → SamePrivate s s' j
  spawned : ∀ j, s'.spawned j = s.spawned j ∨ s.spawned j = none ∧ s'.Unfinished j ∧
    ∃ t spec, i = .call t ∧ AdmittedBy s.log j t spec
  cleanups : ∀ j, s'.cleanups j = s.cleanups j ∨ s'.Unfinished j ∧ i = .job j ∧ s.Owns i
  /-- A job is only moved to `CancelRequested` by asking it to stop. -/
  moved : ∀ j job job', s.state.jobs.get j = some job → s'.state.jobs.get j = some job' →
    job.view.state ≠ .cancelRequested → job'.view.state = .cancelRequested → Accepted s'.log j
  /-- A call that stops jobs does not concern those that are being finalized or have
      ended. -/
  calm : ∀ t j job, i = .call t → (calls t).Stops → s.state.jobs.get j = some job →
    job.view.state = .finalizing ∨ terminal job.view.state = true →
      s'.state.jobs.get j = some job ∧ s'.cancelled j = s.cancelled j
  trimmed : ∀ e, s'.log = s.log ++ [e] → e.Trims → s'.state.Trimmed
  /-- Jobs are added in batches. -/
  added : ∀ j, s.state.jobs.get j = none → s'.state.jobs.get j ≠ none →
    ∃ t jobs, s'.log = s.log ++ [TransferEvent.admitted t jobs]
  admits : ∀ t jobs, s'.log = s.log ++ [TransferEvent.admitted t jobs] → Admits calls t jobs s s'
  /-- A job is moved from one state to the next by its own task and by the cleanup after it;
      what all others do is to ask it to stop. -/
  shows : Shows i s s'

/-! ## The invariant -/

/-- The records of the jobs agree with the log. -/
structure Records (s : TransferManager) : Prop where
  known : ∀ j job, s.state.jobs.get j = some job →
    ∃ spec, Admitted s.log j spec ∧ job.view.session = spec.session
  kept : ∀ j spec, Admitted s.log j spec →
    Finished s.log j ∨ ∃ job, s.state.jobs.get j = some job
  ended : ∀ j job, s.state.jobs.get j = some job → terminal job.view.state = true →
    ∃ i, i.jobId = some j ∧ .finished i job.view.state ∈ s.log
  active : ∀ j, s.Unfinished j → ¬Finished s.log j
  accepted : ∀ j, Accepted s.log j → s.cancelled j = true
  finalizing : ∀ j job, .finalizing j ∈ s.log → s.state.jobs.get j = some job →
    job.view.state = .finalizing ∨ terminal job.view.state = true
  unconfirmed : ∀ j, Unconfirmed s.log j →
    ∃ job, s.state.jobs.get j = some job ∧ job.cleanupUnconfirmed = true
  disconnecting : ∀ t session, .disconnected t session ∈ s.log → session ∈ s.state.disconnecting
  used : ∀ j spec, Admitted s.log j spec → j ∈ s.jobIds
  unique : ∀ j t t' spec spec', AdmittedBy s.log j t spec → AdmittedBy s.log j t' spec' →
    t = t' ∧ spec = spec'
  flagged : ∀ j job, s.state.jobs.get j = some job → job.cleanupUnconfirmed = true →
    Unconfirmed s.log j

/-- Jobs and cleanups are run by those they were spawned for. -/
structure Tickets (s : TransferManager) : Prop where
  spawned : ∀ j spec, s.spawned j = some spec → Admitted s.log j spec
  cleanups : ∀ j path, s.cleanups j = some path → s.spawned j ≠ none ∧
    .sftp (.dropped (.job j)) ∈ s.log ∧ ∀ path', Created s.log j path' ↔ path' = path
  owned : ∀ j e, e ∈ s.log → (e.task = .job j → s.spawned j ≠ none) ∧
    (e.task = .cleanup j → s.cleanups j ≠ none)
  done : ∀ j, s.done j = true → Finished s.log j ∨ .sftp (.dropped (.job j)) ∈ s.log

/-- Where a job is that has what it needs to be there. -/
structure InPlace [Platform] (s : TransferManager) (j : TransferJobId) (spec : JobSpec) : Prop where
  locked : ∀ lock, (s.scheduler.place j).lock = some lock →
    s.scheduler.destinations (destinationKey spec) = some lock ∧
      ∃ l, s.scheduler.locks lock = some l ∧ j ∈ l.users
  inside : ∀ lock, s.scheduler.place j = .transferring lock → j ∈ s.scheduler.global ∧
    j ∈ s.scheduler.hosts spec.client.info.hostId ∧
      ∃ l, s.scheduler.locks lock = some l ∧ l.holder = some j

/-- Permits and locks are held by jobs that have not ended. -/
structure Scheduled [Platform] (s : TransferManager) : Prop where
  global_le : s.scheduler.global.card ≤ GLOBAL_ACTIVE
  hosts_le : ∀ host, (s.scheduler.hosts host).card ≤ HOST_ACTIVE
  global : ∀ j ∈ s.scheduler.global, s.done j = false ∧ s.spawned j ≠ none ∧
    s.scheduler.place j ≠ .awaitingHost ∧ s.scheduler.place j ≠ .awaitingGlobal
  hosts : ∀ host, ∀ j ∈ s.scheduler.hosts host, s.done j = false ∧ s.spawned j ≠ none ∧
    s.scheduler.place j ≠ .awaitingHost
  holder : ∀ lock l j, s.scheduler.locks lock = some l → l.holder = some j →
    s.done j = false ∧ s.spawned j ≠ none ∧ s.scheduler.place j = .transferring lock
  mapped : ∀ key lock, s.scheduler.destinations key = some lock →
    s.scheduler.locks lock ≠ none
  placed : ∀ j, s.scheduler.place j ≠ .elsewhere →
    s.done j = false ∧ ∃ spec, s.spawned j = some spec ∧ s.InPlace j spec

/-- The invariant. -/
structure Inv [Platform] (s : TransferManager) : Prop where
  ok : s.state.Ok
  records : s.Records
  tickets : s.Tickets
  scheduled : s.Scheduled
  rule : Justified Rule s.log

/-! ## The protocol -/

/-- What holds as long as a task has not been started. -/
structure Waiting (s : TransferManager) (j : TransferJobId) : Prop where
  unfinished : s.spawned j ≠ none → s.Unfinished j
  cleanups : s.cleanups j = none
  silent : ∀ e ∈ s.log, e.task.jobId ≠ some j
  place : s.scheduler.place j = .elsewhere
  global : j ∉ s.scheduler.global
  hosts : ∀ host, j ∉ s.scheduler.hosts host
  done : s.done j = false
  guards : s.guards j = none

/-- The protocol of the tasks. -/
def protocol [Platform] (calls : TaskId → TransferCall) : Protocol (system calls) where
  inv := Inv
  guarantee := Guarantee calls
  idle
    | .call _, _ => True
    | .job j, s => s.Waiting j
    | .cleanup j, s => s.cleanups j ≠ none → s.Unfinished j

end TransferManager

end NexusOps.Sftp
