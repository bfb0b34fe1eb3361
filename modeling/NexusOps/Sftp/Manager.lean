import NexusOps.Concurrency.Table
import NexusOps.Sftp.Client

/-!
# The state of the transfer manager

The jobs of the transfer manager (`TransferManager`) and what is done to them under its
lock (`ManagerState`): admitting a batch, asking for cancellation, moving a job from one
state to the next, and trimming the history of those that have ended.

* `ManagerState.trimHistory_spec`: trimming removes the oldest jobs that may be removed,
  and stops when there are few enough of them, or none may be removed;
* `ManagerState.Ok`: the jobs are listed once each, there is room for all of them, and
  only those that have not ended keep what they were given. Every section keeps it.
-/

namespace NexusOps.Sftp

open Concurrency

def GLOBAL_ACTIVE : Nat := 4

def HOST_ACTIVE : Nat := 2

def JOB_CAP : Nat := 100

def HISTORY_CAP : Nat := 100

/-- The digest of a file. -/
abbrev Digest := Vector UInt8 32

/-- What is taken from libraries. Nothing depends on what they compute. -/
class Platform where
  sha256 : List UInt8 → Digest
  toLowercase : String → String

/-! ## Jobs -/

/-- What is approved for a destination. -/
inductive DestinationAction (T : Type)
  | skip
  | createNew
  | replaceExisting (expected : T)
  deriving DecidableEq, Repr

/-- A local file or directory, as the file system names it. -/
structure LocalObjectId where
  storageId : Nat
  fileId : Nat
  deriving DecidableEq, Repr

/-- What a local file is recognised by. -/
structure LocalIdentity where
  size : Nat
  modified : Option Nat
  objectId : LocalObjectId
  deriving DecidableEq, Repr

/-- A selected local file. Whether it still is what was selected is awaited. -/
structure LocalItem where
  size : Nat
  deriving DecidableEq, Repr

/-- A selected local directory. -/
structure LocalDirectory where
  identity : LocalIdentity
  deriving DecidableEq, Repr

/-- A selected remote file. -/
structure RemoteSource where
  path : String
  size : Option Nat
  identity : EntryIdentity
  deriving DecidableEq, Repr

/-- What is transferred. -/
inductive Source
  | localFile (item : LocalItem)
  | remote (source : RemoteSource)
  | editor (bytes : List UInt8) (expected : EditorRevision) (originalDigest : Digest)
  deriving DecidableEq, Repr

/-- Where it is transferred to. -/
inductive Destination
  | remote (path : String) (action : DestinationAction EntryIdentity)
  | localFile (directory : LocalDirectory) (fileName : String)
      (action : DestinationAction LocalIdentity)
  deriving DecidableEq, Repr

/-- What a job is to do. -/
structure JobSpec where
  client : SftpClient
  source : Source
  destination : Destination
  deriving DecidableEq, Repr

namespace JobSpec

/-- The connection of a job. -/
def session (spec : JobSpec) : HostId × HostSessionId := spec.client.info.session

/-- Nothing is done: the destination was in the way when the job was planned. -/
def Skips (spec : JobSpec) : Prop :=
  match spec.destination with
  | .remote _ action => action = .skip
  | .localFile _ _ action => action = .skip

instance (spec : JobSpec) : Decidable spec.Skips := by
  unfold Skips
  split <;> infer_instance

end JobSpec

/-- What jobs with the same destination have in common. The parts of a key can be told
    apart in the text that the code makes of them. -/
inductive DestinationKey
  | remote (session : SftpSessionId) (path : String)
  | localFile (directory : LocalObjectId) (fileName : String)
  deriving DecidableEq, Repr

/-- The key of a job's destination. -/
def destinationKey [Platform] (spec : JobSpec) : DestinationKey :=
  match spec.destination with
  | .remote path _ => .remote spec.client.info.id path
  | .localFile directory fileName _ =>
    .localFile directory.identity.objectId (Platform.toLowercase fileName)

/-- The job has ended. -/
def terminal : TransferState → Bool
  | .completed | .failed | .cancelled | .outcomeUnknown => true
  | _ => false

/-- The job can be cancelled. -/
def cancellable : TransferState → Bool
  | .queued | .preparing | .transferring => true
  | _ => false

/-- What is kept of a job. Its tokens are named by its id. -/
structure JobRecord where
  view : TransferJob
  activeSpec : Option JobSpec
  cleanupUnconfirmed : Bool

/-- The record of a new job. -/
def JobRecord.new (id : TransferJobId) (spec : JobSpec) : JobRecord where
  view := ⟨id, spec.client.info.hostId, spec.client.info.hostSessionId, spec.client.info.id, .queued,
    0, none, false⟩
  activeSpec := some spec
  cleanupUnconfirmed := false

/-- The record of a job in another state: one that has ended keeps nothing. -/
def JobRecord.setState (next : TransferState) (job : JobRecord) : JobRecord :=
  if terminal next then
    { job with view := { job.view with state := next, retryable := false }, activeSpec := none }
  else { job with view := { job.view with state := next } }

/-- The record of a job that has ended with an error. -/
def JobRecord.finish (next : TransferState) (error : AppError) (job : JobRecord) : JobRecord :=
  { job with
    view := { job.view with state := next, error := some error, retryable := false }
    activeSpec := none }

/-- The record of a job that is asked to stop, if it is concerned and can be. -/
def JobRecord.requestCancel (concerned : Bool) (job : JobRecord) : JobRecord :=
  if concerned && cancellable job.view.state then
    { job with view := { job.view with state := .cancelRequested } }
  else job

/-- A failure of the manager. -/
def transferError (message : String) : AppError := .new .transfer message

/-- What the lock of the manager protects. The tokens of `cleanup_tasks` are named by the
    job. -/
structure ManagerState where
  jobs : Table TransferJobId JobRecord
  order : List TransferJobId
  disconnecting : Finset (HostId × HostSessionId)
  cleanupTasks : Finset TransferJobId
  shuttingDown : Bool

namespace ManagerState

/-- The state of a new manager. -/
def default : ManagerState := ⟨.empty, [], ∅, ∅, false⟩

variable (m : ManagerState)

/-! ## Trimming the history -/

/-- The number of jobs that have ended. -/
def terminalCount : Nat := m.jobs.count fun _ job => terminal job.view.state

/-- The number of jobs that have not ended. -/
def nonterminalCount : Nat := m.jobs.count fun _ job => !terminal job.view.state

/-- The job has ended, and nothing of it is left to be cleaned up. -/
def eligible (id : TransferJobId) : Bool :=
  (m.jobs.get id).any (fun job => terminal job.view.state && !job.cleanupUnconfirmed) &&
    decide (id ∉ m.cleanupTasks)

/-- Forgets a job. -/
def forget (id : TransferJobId) : ManagerState :=
  { m with order := m.order.erase id, jobs := m.jobs.remove id }

/-- Forgets jobs, at most `n`. -/
def trimLoop : Nat → ManagerState → ManagerState
  | 0, m => m
  | n + 1, m =>
    if HISTORY_CAP < m.terminalCount then
      match m.order.find? m.eligible with
      | some id => trimLoop n (m.forget id)
      | none => m
    else m

/-- Forgets the oldest jobs while there are too many (`trim_history_locked`). As each one
    is taken off the list, the loop ends before the list does. -/
def trimHistory : ManagerState := trimLoop m.order.length m

/-! ## Sections -/

/-- Changes the record of a job, if there is one. -/
def update (id : TransferJobId) (f : JobRecord → JobRecord) : ManagerState :=
  match m.jobs.get id with
  | some job => { m with jobs := m.jobs.insert id (f job) }
  | none => m

/-- Moves a job to another state. -/
def setState (id : TransferJobId) (next : TransferState) : ManagerState :=
  match m.jobs.get id with
  | some _ =>
    let m' := m.update id (JobRecord.setState next)
    if terminal next then m'.trimHistory else m'
  | none => m

/-- Ends a job with an error. -/
def finishWith (next : TransferState) (id : TransferJobId) (error : AppError) : ManagerState :=
  (m.update id (JobRecord.finish next error)).trimHistory

/-- A job has failed. -/
def finishError (id : TransferJobId) (error : AppError) : ManagerState :=
  m.finishWith .failed id error

/-- It is not known what a job has done. -/
def finishUnknown (id : TransferJobId) (error : AppError) : ManagerState :=
  m.finishWith .outcomeUnknown id error

/-- The job was cancelled. -/
def cancelledBeforeFinalization : AppError :=
  .new .cancelled "The transfer was cancelled before finalization."

/-- Starts the part of a job that cannot be cancelled, unless it was cancelled. -/
def enterFinalizing (id : TransferJobId) (cancelled : Bool) : Except AppError Unit × ManagerState :=
  match m.jobs.get id with
  | none => (.error (transferError "The transfer no longer exists."), m)
  | some job =>
    if cancelled = true ∨ job.view.state = .cancelRequested then
      (.error cancelledBeforeFinalization, m)
    else (.ok (), m.update id fun job => { job with view := { job.view with state := .finalizing } })

/-- Notes the progress of a job. -/
def progress (id : TransferJobId) (bytes : Nat) : ManagerState :=
  m.update id fun job => { job with view := { job.view with confirmedBytes := bytes } }

/-- Notes that a staging file of the job may have been left behind. -/
def markUnconfirmed (id : TransferJobId) : ManagerState :=
  m.update id fun job => { job with cleanupUnconfirmed := true }

/-- The jobs of a set that can be cancelled. -/
def cancellableJobs (p : TransferJobId → TransferJob → Bool) : Finset TransferJobId :=
  m.jobs.keysWhere fun id job => p id job.view && cancellable job.view.state

/-- Asks the jobs of a set to stop. -/
def requestCancel (p : TransferJobId → TransferJob → Bool) : ManagerState :=
  { m with jobs := m.jobs.mapValues fun id job => job.requestCancel (p id job.view) }

/-- Adds a new job. -/
def admitJob (id : TransferJobId) (spec : JobSpec) : ManagerState :=
  { m with order := m.order ++ [id], jobs := m.jobs.insert id (.new id spec) }

/-- Adds new jobs. -/
def admitAll (jobs : List (TransferJobId × JobSpec)) : ManagerState :=
  jobs.foldl (fun m job => m.admitJob job.1 job.2) m

/-! ## What trimming does -/

variable {m} {m' : ManagerState} {id id' : TransferJobId}

theorem eligible_iff : m.eligible id = true ↔ ∃ job, m.jobs.get id = some job ∧
    terminal job.view.state = true ∧ job.cleanupUnconfirmed = false ∧ id ∉ m.cleanupTasks := by
  cases h : m.jobs.get id <;> simp [eligible, h, and_assoc]

theorem eligible_forget (h : id' ≠ id) : (m.forget id).eligible id' = m.eligible id' := by
  rw [eligible, eligible, forget, Table.get_remove_of_ne _ h]

/-- The jobs `removed` have been forgotten, and nothing else has changed. -/
structure Forgets (m m' : ManagerState) (removed : List TransferJobId) : Prop where
  order : m'.order = m.order.filter (· ∉ removed)
  get : ∀ id, m'.jobs.get id = if id ∈ removed then none else m.jobs.get id
  disconnecting : m'.disconnecting = m.disconnecting
  cleanupTasks : m'.cleanupTasks = m.cleanupTasks
  shuttingDown : m'.shuttingDown = m.shuttingDown

theorem Forgets.refl (m : ManagerState) : Forgets m m [] :=
  ⟨by simp, by simp, rfl, rfl, rfl⟩

/-- Forgetting one more job, before others. -/
theorem Forgets.cons {removed : List TransferJobId} (hnodup : m.order.Nodup)
    (h : Forgets (m.forget id) m' removed) : Forgets m m' (id :: removed) := by
  refine ⟨?_, fun id' => ?_, h.disconnecting, h.cleanupTasks, h.shuttingDown⟩
  · rw [h.order, forget, hnodup.erase_eq_filter, List.filter_filter]
    refine List.filter_congr fun id' _ => ?_
    by_cases hid : id' = id
    · simp [hid]
    · simp [hid]
  · rw [h.get, forget, Table.get_remove]
    by_cases hid : id' = id
    · simp [hid]
    · simp [hid]

/-- There are few enough jobs in the history, or none of them may be forgotten. -/
def Trimmed (m : ManagerState) : Prop :=
  m.terminalCount ≤ HISTORY_CAP ∨ ∀ id job, m.jobs.get id = some job →
    terminal job.view.state = true → job.cleanupUnconfirmed = true ∨ id ∈ m.cleanupTasks

/-- The jobs that may be forgotten, once the first of them is. -/
theorem filter_eligible_forget {as bs : List TransferJobId} (hnodup : m.order.Nodup)
    (horder : m.order = as ++ id :: bs) (has : ∀ a ∈ as, m.eligible a = false)
    (hid : m.eligible id = true) :
    m.order.filter m.eligible = id :: (m.forget id).order.filter (m.forget id).eligible := by
  have hmem : id ∉ as ∧ id ∉ bs := by
    rw [horder, List.nodup_append, List.nodup_cons] at hnodup
    exact ⟨fun h => hnodup.2.2 id h id List.mem_cons_self rfl, hnodup.2.1.1⟩
  have herase : (m.forget id).order = as ++ bs := by
    rw [forget, horder, List.erase_append_right _ hmem.1, List.erase_cons_head]
  have hfilter : (as ++ bs).filter (m.forget id).eligible = (as ++ bs).filter m.eligible := by
    refine List.filter_congr fun id' hid' => eligible_forget ?_
    rintro rfl
    exact (List.mem_append.1 hid').elim hmem.1 hmem.2
  have hnone : as.filter m.eligible = [] := List.filter_eq_nil_iff.2 fun a ha => by simp [has a ha]
  rw [herase, hfilter, horder, List.filter_append, List.filter_append, hnone,
    List.filter_cons_of_pos hid, List.nil_append, List.nil_append]

/-- The loop forgets the oldest of the jobs that may be forgotten. -/
theorem trimLoop_forgets (n : Nat) (hnodup : m.order.Nodup) :
    ∃ k, Forgets m (trimLoop n m) ((m.order.filter m.eligible).take k) := by
  induction n generalizing m with
  | zero => exact ⟨0, .refl m⟩
  | succ n ih =>
    rw [trimLoop]
    split_ifs
    · cases hfind : m.order.find? m.eligible with
      | none => exact ⟨0, .refl m⟩
      | some id =>
        obtain ⟨hid, as, bs, horder, has⟩ := List.find?_eq_some_iff_append.1 hfind
        obtain ⟨k, hk⟩ := ih (m := m.forget id) (hnodup.erase id)
        refine ⟨k + 1, ?_⟩
        rw [filter_eligible_forget hnodup horder (fun a ha => by simpa using has a ha) hid,
          List.take_succ_cons]
        exact hk.cons hnodup
    · exact ⟨0, .refl m⟩

/-- The loop ends, at the latest, when there is no job left to look at. -/
theorem trimLoop_trimmed (n : Nat) (hn : m.order.length ≤ n)
    (horder : ∀ id ∈ m.jobs.keys, id ∈ m.order) : (trimLoop n m).Trimmed := by
  induction n generalizing m with
  | zero =>
    refine .inr fun id job hget => ?_
    have hmem := horder id (Table.mem_keys_of_get hget)
    rw [List.length_eq_zero_iff.1 (Nat.le_zero.1 hn)] at hmem
    exact absurd hmem List.not_mem_nil
  | succ n ih =>
    rw [trimLoop]
    split_ifs with hcap
    · cases hfind : m.order.find? m.eligible with
      | none =>
        refine .inr fun id job hget hterminal => ?_
        have hid := List.find?_eq_none.1 hfind id (horder id (Table.mem_keys_of_get hget))
        by_contra hcon
        push Not at hcon
        exact hid (eligible_iff.2 ⟨job, hget, hterminal, by simpa using hcon.1, hcon.2⟩)
      | some id =>
        have hmem : id ∈ m.order := List.mem_of_find?_eq_some hfind
        refine ih (m := m.forget id) ?_ fun id' hid' => ?_
        · have hpos := List.length_pos_of_mem hmem
          change (m.order.erase id).length ≤ n
          rw [List.length_erase_of_mem hmem]
          omega
        · obtain ⟨hne, hid'⟩ := Finset.mem_erase.1 hid'
          exact (List.mem_erase_of_ne hne).2 (horder id' hid')
    · exact .inl (not_lt.1 hcap)

/-- The loop ends by itself: more rounds change nothing. -/
theorem trimLoop_eq_trimHistory {n : Nat} (hn : m.order.length ≤ n) : trimLoop n m = m.trimHistory := by
  -- One round less is enough, down to the length of the list.
  have hsucc : ∀ n (m : ManagerState), m.order.length ≤ n → trimLoop (n + 1) m = trimLoop n m := by
    intro n
    induction n with
    | zero =>
      intro m hm
      have hfind : m.order.find? m.eligible = none := by
        rw [List.length_eq_zero_iff.1 (Nat.le_zero.1 hm)]
        rfl
      rw [trimLoop.eq_2, hfind, trimLoop.eq_1]
      split_ifs <;> rfl
    | succ n ih =>
      intro m hm
      rw [trimLoop, trimLoop.eq_2 m n]
      cases hfind : m.order.find? m.eligible with
      | none => rfl
      | some id =>
        have hmem : id ∈ m.order := List.mem_of_find?_eq_some hfind
        have hlength : (m.forget id).order.length ≤ n := by
          change (m.order.erase id).length ≤ n
          rw [List.length_erase_of_mem hmem]
          omega
        simp only [ih (m.forget id) hlength]
  induction n, hn using Nat.le_induction with
  | base => rfl
  | succ n hn ih => rw [hsucc n m hn, ih]

/-! ## Well-formed states -/

/-- What holds of the state between two sections. -/
structure Ok (m : ManagerState) : Prop where
  nodup : m.order.Nodup
  listed : ∀ id, id ∈ m.order ↔ id ∈ m.jobs.keys
  room : m.nonterminalCount ≤ JOB_CAP
  specs : ∀ id job, m.jobs.get id = some job →
    (job.activeSpec.isSome = true ↔ terminal job.view.state = false)

theorem ok_default : default.Ok :=
  ⟨List.nodup_nil, fun _ => Iff.rfl, Nat.zero_le _, fun _ _ h => nomatch h⟩

/-- Trimming forgets the oldest of the jobs that may be forgotten, and then there are few
    enough, or none may be forgotten. -/
theorem trimHistory_spec (h : m.Ok) :
    (∃ k, Forgets m m.trimHistory ((m.order.filter m.eligible).take k)) ∧ m.trimHistory.Trimmed :=
  ⟨trimLoop_forgets _ h.nodup, trimLoop_trimmed _ le_rfl fun id => (h.listed id).2⟩

theorem nonterminalCount_le (h : ∀ id job', m'.jobs.get id = some job' →
    terminal job'.view.state = false →
      ∃ job, m.jobs.get id = some job ∧ terminal job.view.state = false) :
    m'.nonterminalCount ≤ m.nonterminalCount := by
  refine Finset.card_le_card fun id hid => ?_
  obtain ⟨job', hget', hterminal'⟩ := Table.mem_keysWhere.1 hid
  obtain ⟨job, hget, hterminal⟩ := h id job' hget' (by simpa using hterminal')
  exact Table.mem_keysWhere.2 ⟨job, hget, by simp [hterminal]⟩

theorem Ok.forgets {removed : List TransferJobId} (h : m.Ok) (hf : Forgets m m' removed) : m'.Ok := by
  have hget : ∀ id job, m'.jobs.get id = some job → m.jobs.get id = some job := by
    intro id job hget
    rw [hf.get] at hget
    split_ifs at hget
    exact hget
  refine ⟨?_, fun id => ?_, ?_, fun id job hj => h.specs id job (hget id job hj)⟩
  · rw [hf.order]
    exact h.nodup.filter _
  · rw [hf.order, List.mem_filter, h.listed, m.jobs.mem_keys, m'.jobs.mem_keys, hf.get]
    by_cases hid : id ∈ removed
    · simp [hid]
    · simp [hid]
  · exact (nonterminalCount_le fun id job hj ht => ⟨job, hget id job hj, ht⟩).trans h.room

theorem Ok.congr (h : m.Ok) (hjobs : m'.jobs = m.jobs) (horder : m'.order = m.order) : m'.Ok := by
  refine ⟨horder ▸ h.nodup, fun id => by rw [horder, hjobs]; exact h.listed id, ?_, ?_⟩
  · rw [nonterminalCount, hjobs]
    exact h.room
  · rw [hjobs]
    exact h.specs

theorem Ok.trimHistory (h : m.Ok) : m.trimHistory.Ok := by
  obtain ⟨⟨k, hk⟩, -⟩ := trimHistory_spec h
  exact h.forgets hk

/-- What is left after trimming was there, and what is gone had ended. -/
theorem get_trimHistory (h : m.Ok) (id : TransferJobId) :
    m.trimHistory.jobs.get id = m.jobs.get id ∨
      m.trimHistory.jobs.get id = none ∧ m.eligible id = true := by
  obtain ⟨⟨k, hk⟩, -⟩ := trimHistory_spec h
  rw [hk.get]
  split_ifs with hid
  · exact .inr ⟨rfl, (List.mem_filter.1 (List.mem_of_mem_take hid)).2⟩
  · exact .inl rfl

section

variable {f : JobRecord → JobRecord} {job : JobRecord}

theorem update_of_get (hget : m.jobs.get id = some job) :
    m.update id f = { m with jobs := m.jobs.insert id (f job) } := by
  rw [update, hget]

theorem get_update (id' : TransferJobId) : (m.update id f).jobs.get id' =
    if id' = id then (m.jobs.get id).map f else m.jobs.get id' := by
  rw [update]
  cases hget : m.jobs.get id with
  | none =>
    split_ifs with hid
    · rw [hid, hget, Option.map_none]
    · rfl
  | some job => rw [Table.get_insert, Option.map_some]

theorem get_update_self (hget : m.jobs.get id = some job) :
    (m.update id f).jobs.get id = some (f job) := by
  rw [get_update, if_pos rfl, hget, Option.map_some]

theorem get_update_of_ne (hid : id' ≠ id) : (m.update id f).jobs.get id' = m.jobs.get id' := by
  rw [get_update, if_neg hid]

/-- A changed record: a job that has ended stays so, and then keeps nothing. -/
theorem Ok.update (h : m.Ok)
    (hterminal : ∀ job, m.jobs.get id = some job → terminal (f job).view.state = false →
      terminal job.view.state = false)
    (hspec : ∀ job, m.jobs.get id = some job →
      ((f job).activeSpec.isSome = true ↔ terminal (f job).view.state = false)) :
    (m.update id f).Ok := by
  cases hget : m.jobs.get id with
  | none =>
    rw [ManagerState.update, hget]
    exact h
  | some job =>
    have hkeys : id ∈ m.jobs.keys := Table.mem_keys_of_get hget
    have hnew : ∀ id' job', (m.update id f).jobs.get id' = some job' →
        id' = id ∧ job' = f job ∨ m.jobs.get id' = some job' := by
      intro id' job' hget'
      by_cases hid : id' = id
      · subst hid
        rw [get_update_self hget] at hget'
        exact .inl ⟨rfl, (Option.some.inj hget').symm⟩
      · rw [get_update_of_ne hid] at hget'
        exact .inr hget'
    refine ⟨?_, fun id' => ?_, (nonterminalCount_le fun id' job' hget' ht => ?_).trans h.room,
      fun id' job' hget' => ?_⟩
    · rw [update_of_get hget]
      exact h.nodup
    · rw [update_of_get hget]
      simp only [Table.insert, Finset.mem_insert]
      rw [h.listed, or_iff_right_of_imp]
      rintro rfl
      exact hkeys
    · rcases hnew id' job' hget' with ⟨rfl, rfl⟩ | hget'
      · exact ⟨job, hget, hterminal job hget ht⟩
      · exact ⟨job', hget', ht⟩
    · rcases hnew id' job' hget' with ⟨rfl, rfl⟩ | hget'
      · exact hspec job hget
      · exact h.specs id' job' hget'

end

/-- A job that is asked to stop has not ended. -/
theorem terminal_requestCancel (concerned : Bool) (job : JobRecord) :
    terminal (job.requestCancel concerned).view.state = terminal job.view.state := by
  rw [JobRecord.requestCancel]
  split_ifs with h
  · cases hs : job.view.state <;> simp_all [cancellable, terminal]
  · rfl

theorem Ok.requestCancel (h : m.Ok) (p : TransferJobId → TransferJob → Bool) :
    (m.requestCancel p).Ok := by
  have hget : ∀ id job', (m.requestCancel p).jobs.get id = some job' →
      ∃ job, m.jobs.get id = some job ∧ job' = job.requestCancel (p id job.view) := by
    intro id job' hget'
    obtain ⟨job, hget, rfl⟩ := Option.map_eq_some_iff.1 hget'
    exact ⟨job, hget, rfl⟩
  refine ⟨h.nodup, h.listed, (nonterminalCount_le fun id job' hget' ht => ?_).trans h.room,
    fun id job' hget' => ?_⟩
  · obtain ⟨job, hget, rfl⟩ := hget id job' hget'
    exact ⟨job, hget, terminal_requestCancel (p id job.view) job ▸ ht⟩
  · obtain ⟨job, hget, rfl⟩ := hget id job' hget'
    rw [terminal_requestCancel, ← h.specs id job hget, JobRecord.requestCancel]
    split_ifs <;> rfl

/-! ## Admission -/

variable {spec : JobSpec} {jobs : List (TransferJobId × JobSpec)}

theorem admitAll_cons (m : ManagerState) (job : TransferJobId × JobSpec) :
    m.admitAll (job :: jobs) = (m.admitJob job.1 job.2).admitAll jobs := rfl

theorem order_admitAll (m : ManagerState) (jobs : List (TransferJobId × JobSpec)) :
    (m.admitAll jobs).order = m.order ++ jobs.map Prod.fst := by
  induction jobs generalizing m with
  | nil => simp [admitAll]
  | cons job jobs ih => rw [admitAll_cons, ih, admitJob, List.append_assoc]; rfl

/-- The other parts of the state stay. -/
theorem rest_admitAll (m : ManagerState) (jobs : List (TransferJobId × JobSpec)) :
    (m.admitAll jobs).disconnecting = m.disconnecting ∧
      (m.admitAll jobs).cleanupTasks = m.cleanupTasks ∧
        (m.admitAll jobs).shuttingDown = m.shuttingDown := by
  induction jobs generalizing m with
  | nil => exact ⟨rfl, rfl, rfl⟩
  | cons job jobs ih => exact ih _

theorem get_admitAll_of_notMem (h : id ∉ jobs.map Prod.fst) :
    (m.admitAll jobs).jobs.get id = m.jobs.get id := by
  induction jobs generalizing m with
  | nil => rfl
  | cons job jobs ih =>
    rw [List.map_cons, List.mem_cons, not_or] at h
    rw [admitAll_cons, ih h.2, admitJob, Table.get_insert_of_ne _ h.1]

theorem get_admitAll_of_mem (hnodup : (jobs.map Prod.fst).Nodup) (h : (id, spec) ∈ jobs) :
    (m.admitAll jobs).jobs.get id = some (.new id spec) := by
  induction jobs generalizing m with
  | nil => exact absurd h List.not_mem_nil
  | cons job jobs ih =>
    rw [List.map_cons, List.nodup_cons] at hnodup
    rw [admitAll_cons]
    rcases List.mem_cons.1 h with rfl | h
    · rw [get_admitAll_of_notMem hnodup.1, admitJob, Table.get_insert_self]
    · exact ih hnodup.2 h

theorem nonterminalCount_admitJob (m : ManagerState) (id : TransferJobId) (spec : JobSpec) :
    (m.admitJob id spec).nonterminalCount ≤ m.nonterminalCount + 1 := by
  rw [nonterminalCount, Table.count]
  refine (Finset.card_le_card (t := insert id (m.jobs.keysWhere
    fun _ job => !terminal job.view.state)) fun id' hid' => ?_).trans (Finset.card_insert_le _ _)
  obtain ⟨job, hget, hterminal⟩ := Table.mem_keysWhere.1 hid'
  by_cases hid : id' = id
  · exact Finset.mem_insert.2 (.inl hid)
  · rw [admitJob, Table.get_insert_of_ne _ hid] at hget
    exact Finset.mem_insert_of_mem (Table.mem_keysWhere.2 ⟨job, hget, hterminal⟩)

theorem Ok.admitJob (h : m.Ok) (hid : id ∉ m.jobs.keys) (hroom : m.nonterminalCount + 1 ≤ JOB_CAP) :
    (m.admitJob id spec).Ok := by
  refine ⟨?_, fun id' => ?_, (nonterminalCount_admitJob m id spec).trans hroom, fun id' job hget => ?_⟩
  · refine List.Nodup.append h.nodup (List.nodup_singleton id) ?_
    rw [List.disjoint_singleton, h.listed]
    exact hid
  · rw [ManagerState.admitJob, List.mem_append, List.mem_singleton, h.listed]
    simp only [Table.insert, Finset.mem_insert]
    exact or_comm
  · by_cases hid : id' = id
    · rw [hid, ManagerState.admitJob, Table.get_insert_self] at hget
      rw [← Option.some.inj hget]
      exact iff_of_true rfl rfl
    · rw [ManagerState.admitJob, Table.get_insert_of_ne _ hid] at hget
      exact h.specs id' job hget

/-- A batch for which there is room. -/
theorem Ok.admitAll (h : m.Ok) (hnodup : (jobs.map Prod.fst).Nodup)
    (hfresh : ∀ id ∈ jobs.map Prod.fst, id ∉ m.jobs.keys)
    (hroom : m.nonterminalCount + jobs.length ≤ JOB_CAP) : (m.admitAll jobs).Ok := by
  induction jobs generalizing m with
  | nil => exact h
  | cons job jobs ih =>
    rw [List.map_cons, List.nodup_cons] at hnodup
    rw [List.length_cons] at hroom
    have hid : job.1 ∉ m.jobs.keys := hfresh _ List.mem_cons_self
    refine ih (h.admitJob hid (by omega)) hnodup.2 (fun id hmem hkeys => ?_) ?_
    · rcases Finset.mem_insert.1 hkeys with rfl | hkeys
      · exact hnodup.1 hmem
      · exact hfresh id (List.mem_cons_of_mem _ hmem) hkeys
    · change (m.admitJob job.1 job.2).nonterminalCount + jobs.length ≤ JOB_CAP
      have hcount := nonterminalCount_admitJob m job.1 job.2
      omega

end ManagerState

end NexusOps.Sftp
