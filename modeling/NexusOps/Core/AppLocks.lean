import NexusOps.Concurrency.LockOrder
import NexusOps.Model.Basic

/-!
# The locks of the application

The calls of `Application` take its locks inside each other: the gates of hosts, the mutex for
metadata, the gates of files, monitoring and reads, the mutex of each session slot, and those of
its tables. All of them may be held while something is awaited, also the answer of a host. A call
that waits for them in the wrong order can freeze the application.

Here, a call is what it does with these locks (`Locking`), on all of its paths: where it goes on
by what it finds, it may do so in any way (`either`, `mayFail`). A lock is released at the end of
a scope, whether that is left early or not; this is also what happens when a call is dropped while
it awaits something (`awaiting`).

* `AppLocks.locks_in_order`: in every interleaving, the locks are waited for in the order of
  `AppLock.rank`, and no calls wait for each other.
-/

namespace NexusOps.AppLocks

open Concurrency Locking Call

/-- What is read from a host at most once at a time. -/
inductive ReadKind
  | services
  | network
  | logs
  | containers
  deriving DecidableEq, Repr

/-- The locks of the application. Those that are kept in tables may be removed from them and made
    anew while calls still hold the old ones, so they are not known by the host. -/
inductive AppLock
  /-- `RemoteOperations::lifecycle_guard` -/
  | lifecycle (host : HostId)
  | mutation
  /-- A gate of `sftp_startups`. -/
  | sftpGate (gate : ℕ)
  /-- A gate of `monitor_gates`. -/
  | monitorGate (gate : ℕ)
  /-- A gate of `service_gates`, `network_gates`, `log_gates` or `container_gates`. -/
  | readGate (kind : ReadKind) (gate : ℕ)
  | sftpStartups
  | monitorGates
  | readGates (kind : ReadKind)
  | sessions
  /-- `SessionSlot::data` -/
  | data (slot : ℕ)
  | sftpSessions
  | rotationPlans
  | monitorBaselines
  deriving DecidableEq, Repr

/-- The order in which they are waited for. -/
def AppLock.rank : AppLock → ℕ
  | lifecycle _ => 0
  | mutation => 1
  | sftpGate _ | monitorGate _ | readGate _ _ => 2
  | sftpStartups | monitorGates | readGates _ => 3
  | sessions => 4
  | data _ => 5
  | sftpSessions | rotationPlans | monitorBaselines => 6

theorem AppLock.rank_lt (l : AppLock) : l.rank < 7 := by
  cases l <;> simp [rank]

/-- A call of the application. -/
abbrev AppCall := Call AppLock

/-! ## Parts of calls -/

/-- Takes a lock for one statement. -/
def touch (l : AppLock) : AppCall Unit := scope l (pure ())

/-- Takes a lock and checks what it protects. -/
def check (l : AppLock) : AppCall Unit := scope l mayFail

/-- A slot or a gate that is found in a table, or is added to it. -/
def entry (table : AppLock) : AppCall ℕ := do
  touch table
  ExceptT.lift (any ℕ)

def slot : AppCall ℕ := entry .sessions

/-- The table of gates may be poisoned. -/
def lifecycleGuard {α : Type} (host : HostId) (body : AppCall α) : AppCall α := do
  mayFail
  scope (.lifecycle host) body

def tryLifecycleGuard {α : Type} (host : HostId) (body : AppCall α) : AppCall α := do
  mayFail
  tryScope (.lifecycle host) body

def clearMonitor : AppCall Unit := touch .monitorBaselines

def removeMonitor : AppCall Unit := do
  touch .monitorBaselines
  touch .monitorGates

def sftpLifecycleGate : AppCall ℕ := entry .sftpStartups

def ownedSftp : AppCall Unit := do
  check (.data (← slot))
  check .sftpSessions
  mayFail

/-! ## Files -/

def openSftp : AppCall Unit := do
  mayFail
  scope (.sftpGate (← sftpLifecycleGate)) do
    let slot ← slot
    check (.data slot)
    touch .sftpSessions
    if ← either then return
    awaiting
    -- what has gone stale is closed after the slot is released
    touch (.data slot)
    maybe do
      awaiting
      throw ()
    touch .sftpSessions
    maybe awaiting

/-- What is planned for files: the client is asked any number of things while the gate is held. -/
def planFiles : AppCall Unit := do
  mayFail
  scope (.sftpGate (← sftpLifecycleGate)) do
    ownedSftp
    forEach awaiting
    mayFail

def openRemoteTextFile : AppCall Unit := planFiles
def planRemoteTextSave : AppCall Unit := planFiles
def planUpload : AppCall Unit := planFiles
def planDownload : AppCall Unit := planFiles
def planCreateDirectory : AppCall Unit := planFiles
def planRename : AppCall Unit := planFiles
def planDelete : AppCall Unit := planFiles

def executeFilePlan : AppCall Unit := do
  scope (.sftpGate (← sftpLifecycleGate)) do
    ownedSftp
    mayFail
    awaiting
    mayFail

/-- What only needs the client. -/
def useSftp : AppCall Unit := do
  ownedSftp
  awaiting

def listRemoteDirectory : AppCall Unit := useSftp
def remoteProperties : AppCall Unit := useSftp
def cancelTransfer : AppCall Unit := useSftp
def planRetryTransfer : AppCall Unit := useSftp
def validateSftpSession : AppCall Unit := useSftp

def closeSftp : AppCall Unit := do
  scope (.sftpGate (← sftpLifecycleGate)) do
    awaiting
    touch .sftpSessions
    maybe awaiting

/-! ## The lifecycle of a session -/

def getSession (host : HostId) : AppCall Unit := do
  mayFail
  let slot ← slot
  touch (.data slot)
  if ← either then
    touch (.data slot)
    return
  lifecycleGuard host do
    check (.data slot)
    maybe do
      clearMonitor
      mayFail
      closeSftp
      awaiting

def prepareDisconnect : AppCall ℕ := do
  mayFail
  touch .rotationPlans
  let slot ← slot
  check (.data slot)
  clearMonitor
  return slot

def finishDisconnect (slot : ℕ) : AppCall Unit := do
  maybe do
    tryCatch closeSftp fun _ => do
      touch (.data slot)
      throw ()
    awaiting
  touch (.data slot)
  maybe awaiting
  mayFail

def disconnectHost (host : HostId) : AppCall Unit :=
  lifecycleGuard host do
    let work ← scope .mutation do
      mayFail
      prepareDisconnect
    finishDisconnect work

def connectHost (host : HostId) : AppCall Unit := do
  let slot ← lifecycleGuard host do
    mayFail
    scope .mutation do
      mayFail
      touch .rotationPlans
      let slot ← slot
      check (.data slot)
      return slot
  clearMonitor
  awaiting
  check (.data slot)

def reconnectHost (host : HostId) : AppCall Unit := do
  disconnectHost host
  connectHost host

def refreshHost : AppCall Unit := do
  mayFail
  let slot ← slot
  check (.data slot)
  awaiting
  check (.data slot)

/-! ## Hosts and their keys -/

/-- What `save_host` does with the metadata. -/
def saveMetadata : AppCall Unit :=
  scope .mutation do
    mayFail
    let slot ← slot
    check (.data slot)
    mayFail
    maybe awaiting
    -- the host is not saved, and a credential that was stored for it is removed
    maybe do
      awaiting
      throw ()
    mayFail
    touch .rotationPlans
    touch (.data slot)
    clearMonitor
    maybe awaiting
    maybe awaiting
    mayFail

def saveHost : Option HostId → AppCall Unit
  | some edited => lifecycleGuard edited saveMetadata
  | none => saveMetadata

def deleteHost (host : HostId) : AppCall Unit :=
  lifecycleGuard host do
    let work ← scope .mutation do
      mayFail
      prepareDisconnect
    finishDisconnect work
    scope .mutation do
      mayFail
      touch .rotationPlans
      touch (.readGates .services)
      touch (.readGates .network)
      touch (.readGates .logs)
      touch (.readGates .containers)
      touch .sessions
    awaiting
    removeMonitor
    awaiting
    mayFail

def trustHostKey (host : HostId) : AppCall Unit :=
  lifecycleGuard host <| scope .mutation do
    mayFail
    scope (.data (← slot)) do
      mayFail
      touch .rotationPlans
      mayFail

def planHostKeyRotation (host : HostId) : AppCall Unit :=
  lifecycleGuard host <| scope .mutation do
    touch .rotationPlans
    mayFail
    scope (.data (← slot)) do
      mayFail
      touch .rotationPlans

def executeHostKeyRotation (host : HostId) : AppCall Unit :=
  lifecycleGuard host <| scope .mutation do
    check .rotationPlans
    mayFail
    check (.data (← slot))
    mayFail

def getHostSshTrust (host : HostId) : AppCall Unit :=
  lifecycleGuard host (scope .mutation mayFail)

/-! ## Reads -/

/-- What a read does with the gate it has taken, and without the mutex for metadata. -/
def releasing {α : Type} (gate : AppLock) (body : AppCall α) : AppCall α :=
  ExceptT.mk (.unlock .mutation (do
    let r ← body.run
    .unlock gate (pure r)))

/-- A read is admitted with the mutex for metadata, which is released once it has its gate. -/
def admitted {α : Type} (kind : ReadKind) (observe : ℕ → AppCall α) : AppCall α :=
  ExceptT.mk (.tryLock .mutation fun
    | true => do
      let found ← (do
        mayFail
        let slot ← slot
        check (.data slot)
        return (slot, ← entry (.readGates kind)) : AppCall (ℕ × ℕ)).run
      match found with
      | .error e => .unlock .mutation (pure (.error e))
      | .ok (slot, gate) =>
        .tryLock (.readGate kind gate) fun
          | true => do
            -- at most four reads of a kind are admitted
            if ← any Bool then
              (releasing (.readGate kind gate) (observe slot)).run
            else
              .unlock (.readGate kind gate) (.unlock .mutation (pure (.error ())))
          | false => .unlock .mutation (pure (.error ()))
    | false => pure (.error ()))

/-- The gate is kept to the end. -/
def observed (kind : ReadKind) : AppCall Unit :=
  admitted kind fun slot => do
    awaiting
    check (.data slot)

def withNetworkAdmission : AppCall Unit := observed .network

def listHostNetwork : AppCall Unit := withNetworkAdmission
def listHostRoutes : AppCall Unit := withNetworkAdmission
def listHostListeningPorts : AppCall Unit := withNetworkAdmission
def listHostDnsConfiguration : AppCall Unit := withNetworkAdmission
def listHostLogs : AppCall Unit := observed .logs
def listHostContainers : AppCall Unit := observed .containers

/-- Here, the gate is released before the services are published. -/
def listHostServices (host : HostId) : AppCall Unit := do
  let slot ← admitted .services fun slot => do
    awaiting
    return slot
  tryLifecycleGuard host (check (.data slot))

def sampleHostMonitor : AppCall Unit := do
  mayFail
  scope (.monitorGate (← entry .monitorGates)) do
    let slot ← slot
    check (.data slot)
    awaiting
    scope (.data slot) do
      mayFail
      touch .monitorBaselines

/-! ## Operations on services -/

def planService (host : HostId) : AppCall Unit := do
  mayFail
  let slot ← slot
  check (.data slot)
  mayFail
  tryScope (.readGate .services (← entry (.readGates .services))) do
    mayFail
    awaiting
    mayFail
  tryLifecycleGuard host do
    check (.data slot)
    mayFail

def discardService (host : HostId) : AppCall Unit :=
  tryLifecycleGuard host do
    check (.data (← slot))
    mayFail

/-- The revalidator of an operation, and what is dispatched while its gate is held. -/
def revalidate (slot : ℕ) : AppCall Unit := do
  mayFail
  check (.readGates .services)
  tryScope (.readGate .services (← ExceptT.lift (any ℕ))) do
    mayFail
    awaiting
    mayFail
    check (.data slot)
    mayFail
    awaiting

def executeService (host : HostId) : AppCall Unit := do
  let slot ← slot
  check (.data slot)
  mayFail
  tryLifecycleGuard host do
    mayFail
    tryCatch (revalidate slot) fun _ => pure ()
  tryCatch (listHostServices host) fun _ => pure ()

def planServiceResetFailed : HostId → AppCall Unit := planService
def planServiceTryRestart : HostId → AppCall Unit := planService
def planServiceReload : HostId → AppCall Unit := planService
def planServiceStart : HostId → AppCall Unit := planService

def discardServiceResetFailed : HostId → AppCall Unit := discardService
def discardServiceTryRestart : HostId → AppCall Unit := discardService
def discardServiceReload : HostId → AppCall Unit := discardService
def discardServiceStart : HostId → AppCall Unit := discardService

def executeServiceResetFailed : HostId → AppCall Unit := executeService
def executeServiceTryRestart : HostId → AppCall Unit := executeService
def executeServiceReload : HostId → AppCall Unit := executeService
def executeServiceStart : HostId → AppCall Unit := executeService

/-! ## The other calls -/

/-- What needs the current connection of a host, for a terminal. -/
def useTerminal : AppCall Unit := do
  mayFail
  check (.data (← slot))
  awaiting

def openTerminal : AppCall Unit := useTerminal
def writeTerminal : AppCall Unit := useTerminal
def resizeTerminal : AppCall Unit := useTerminal

def shutdown : AppCall Unit := do
  mayFail
  scope .mutation do
    touch .rotationPlans
    touch .sessions
    forEach do
      touch (.data (← ExceptT.lift (any ℕ)))
  touch .sftpSessions
  forEach closeSftp
  awaiting
  touch .sftpStartups
  awaiting
  touch .monitorBaselines
  touch .monitorGates
  touch (.readGates .services)
  touch (.readGates .network)
  touch (.readGates .logs)
  touch (.readGates .containers)
  forEach do
    touch (.data (← ExceptT.lift (any ℕ)))

/-- The calls. -/
inductive Request
  | openSftp
  | openRemoteTextFile
  | planRemoteTextSave
  | planUpload
  | planDownload
  | planCreateDirectory
  | planRename
  | planDelete
  | executeFilePlan
  | listRemoteDirectory
  | remoteProperties
  | cancelTransfer
  | planRetryTransfer
  | validateSftpSession
  | closeSftp
  | getSession (host : HostId)
  | disconnectHost (host : HostId)
  | connectHost (host : HostId)
  | reconnectHost (host : HostId)
  | refreshHost
  | saveHost (edited : Option HostId)
  | deleteHost (host : HostId)
  | trustHostKey (host : HostId)
  | planHostKeyRotation (host : HostId)
  | executeHostKeyRotation (host : HostId)
  | getHostSshTrust (host : HostId)
  | listHostNetwork
  | listHostRoutes
  | listHostListeningPorts
  | listHostDnsConfiguration
  | listHostLogs
  | listHostContainers
  | listHostServices (host : HostId)
  | sampleHostMonitor
  | planServiceResetFailed (host : HostId)
  | planServiceTryRestart (host : HostId)
  | planServiceReload (host : HostId)
  | planServiceStart (host : HostId)
  | discardServiceResetFailed (host : HostId)
  | discardServiceTryRestart (host : HostId)
  | discardServiceReload (host : HostId)
  | discardServiceStart (host : HostId)
  | executeServiceResetFailed (host : HostId)
  | executeServiceTryRestart (host : HostId)
  | executeServiceReload (host : HostId)
  | executeServiceStart (host : HostId)
  | openTerminal
  | writeTerminal
  | resizeTerminal
  | shutdown
  deriving DecidableEq, Repr

/-- What a call does. -/
def program : Request → AppCall Unit
  | .openSftp => openSftp
  | .openRemoteTextFile => openRemoteTextFile
  | .planRemoteTextSave => planRemoteTextSave
  | .planUpload => planUpload
  | .planDownload => planDownload
  | .planCreateDirectory => planCreateDirectory
  | .planRename => planRename
  | .planDelete => planDelete
  | .executeFilePlan => executeFilePlan
  | .listRemoteDirectory => listRemoteDirectory
  | .remoteProperties => remoteProperties
  | .cancelTransfer => cancelTransfer
  | .planRetryTransfer => planRetryTransfer
  | .validateSftpSession => validateSftpSession
  | .closeSftp => closeSftp
  | .getSession host => getSession host
  | .disconnectHost host => disconnectHost host
  | .connectHost host => connectHost host
  | .reconnectHost host => reconnectHost host
  | .refreshHost => refreshHost
  | .saveHost edited => saveHost edited
  | .deleteHost host => deleteHost host
  | .trustHostKey host => trustHostKey host
  | .planHostKeyRotation host => planHostKeyRotation host
  | .executeHostKeyRotation host => executeHostKeyRotation host
  | .getHostSshTrust host => getHostSshTrust host
  | .listHostNetwork => listHostNetwork
  | .listHostRoutes => listHostRoutes
  | .listHostListeningPorts => listHostListeningPorts
  | .listHostDnsConfiguration => listHostDnsConfiguration
  | .listHostLogs => listHostLogs
  | .listHostContainers => listHostContainers
  | .listHostServices host => listHostServices host
  | .sampleHostMonitor => sampleHostMonitor
  | .planServiceResetFailed host => planServiceResetFailed host
  | .planServiceTryRestart host => planServiceTryRestart host
  | .planServiceReload host => planServiceReload host
  | .planServiceStart host => planServiceStart host
  | .discardServiceResetFailed host => discardServiceResetFailed host
  | .discardServiceTryRestart host => discardServiceTryRestart host
  | .discardServiceReload host => discardServiceReload host
  | .discardServiceStart host => discardServiceStart host
  | .executeServiceResetFailed host => executeServiceResetFailed host
  | .executeServiceTryRestart host => executeServiceTryRestart host
  | .executeServiceReload host => executeServiceReload host
  | .executeServiceStart host => executeServiceStart host
  | .openTerminal => openTerminal
  | .writeTerminal => writeTerminal
  | .resizeTerminal => resizeTerminal
  | .shutdown => shutdown

/-! ## All calls are ordered -/

section

/-- While it holds locks of ranks below `n`, the call waits only for others, in their order. -/
abbrev Tidy {α : Type} (n : ℕ) (call : AppCall α) : Prop :=
  Rising AppLock.rank (fun _ => False) n call

variable {α : Type} {n : ℕ} {l : AppLock} {host : HostId} {body : AppCall α}

theorem tidy_awaiting : Tidy n awaiting := rising_awaiting (.inr fun _ => not_false)

theorem tidy_touch (hn : n ≤ l.rank) : Tidy n (touch l) := rising_scope hn rising_pure

theorem tidy_check (hn : n ≤ l.rank) : Tidy n (check l) := rising_scope hn rising_mayFail

theorem tidy_entry (hn : n ≤ l.rank) : Tidy n (entry l) :=
  (tidy_touch hn).andThen fun _ => rising_any

theorem tidy_slot (hn : n ≤ 4) : Tidy n slot := tidy_entry hn

theorem tidy_mutation (hn : n ≤ 1) (h : Tidy 2 body) : Tidy n (scope .mutation body) :=
  rising_scope hn h

theorem tidy_data {slot : ℕ} (hn : n ≤ 5) (h : Tidy 6 body) : Tidy n (scope (.data slot) body) :=
  rising_scope hn h

theorem tidy_checkData {slot : ℕ} (hn : n ≤ 5) : Tidy n (check (.data slot)) := tidy_check hn

theorem tidy_touchData {slot : ℕ} (hn : n ≤ 5) : Tidy n (touch (.data slot)) := tidy_touch hn

theorem tidy_lifecycleGuard (h : Tidy 1 body) : Tidy 0 (lifecycleGuard host body) :=
  rising_mayFail.andThen fun _ => rising_scope le_rfl h

theorem tidy_tryLifecycleGuard (h : Tidy 1 body) : Tidy 0 (tryLifecycleGuard host body) :=
  rising_mayFail.andThen fun _ => rising_tryScope le_rfl h

theorem tidy_ownedSftp (hn : n ≤ 4) : Tidy n ownedSftp := by
  refine (tidy_slot hn).andThen fun slot => ?_
  refine (tidy_checkData (hn.trans (by decide))).andThen fun _ => ?_
  exact (tidy_check (hn.trans (by decide))).andThen fun _ => rising_mayFail

/-- The gate of the files of a host. -/
theorem tidy_sftpGate (hn : n ≤ 2) (h : Tidy 3 body) :
    Tidy n (do scope (.sftpGate (← sftpLifecycleGate)) body) :=
  (tidy_entry (hn.trans (by decide))).andThen fun _ => rising_scope hn h

/-- The gate of a read, which is not waited for. -/
theorem tidy_readGate {kind : ReadKind} {gate : ℕ} (hn : n ≤ 2) (h : Tidy 3 body) :
    Tidy n (tryScope (.readGate kind gate) body) :=
  rising_tryScope hn h

/-! ### Files -/

theorem tidy_openSftp : Tidy 0 openSftp := by
  refine rising_mayFail.andThen fun _ => tidy_sftpGate (by decide) ?_
  refine (tidy_slot (by decide)).andThen fun slot => ?_
  refine (tidy_checkData (by decide)).andThen fun _ => (tidy_touch (by decide)).andThen fun _ => ?_
  refine rising_if rising_pure (tidy_awaiting.andThen fun _ => ?_)
  refine (tidy_touchData (by decide)).andThen fun _ => ?_
  refine (rising_maybe (tidy_awaiting.andThen fun _ => rising_throw)).andThen fun _ => ?_
  exact (tidy_touch (by decide)).andThen fun _ => rising_maybe tidy_awaiting

theorem tidy_planFiles : Tidy 0 planFiles := by
  refine rising_mayFail.andThen fun _ => tidy_sftpGate (by decide) ?_
  refine (tidy_ownedSftp (by decide)).andThen fun _ => ?_
  exact (rising_forEach tidy_awaiting).andThen fun _ => rising_mayFail

theorem tidy_executeFilePlan : Tidy 0 executeFilePlan := by
  refine tidy_sftpGate (by decide) ((tidy_ownedSftp (by decide)).andThen fun _ => ?_)
  exact rising_mayFail.andThen fun _ => tidy_awaiting.andThen fun _ => rising_mayFail

theorem tidy_useSftp : Tidy 0 useSftp :=
  (tidy_ownedSftp (by decide)).andThen fun _ => tidy_awaiting

/-- Files are closed with the gate of the host, and without. -/
theorem tidy_closeSftp (hn : n ≤ 1) : Tidy n closeSftp := by
  refine tidy_sftpGate (hn.trans (by decide)) (tidy_awaiting.andThen fun _ => ?_)
  exact (tidy_touch (by decide)).andThen fun _ => rising_maybe tidy_awaiting

/-! ### Sessions -/

theorem tidy_getSession : Tidy 0 (getSession host) := by
  refine rising_mayFail.andThen fun _ => (tidy_slot (by decide)).andThen fun slot => ?_
  refine (tidy_touchData (by decide)).andThen fun _ => rising_if ?_ (tidy_lifecycleGuard ?_)
  · exact (tidy_touchData (by decide)).andThen fun _ => rising_pure
  · refine (tidy_checkData (by decide)).andThen fun _ => rising_maybe ?_
    refine (tidy_touch (by decide)).andThen fun _ => rising_mayFail.andThen fun _ => ?_
    exact (tidy_closeSftp le_rfl).andThen fun _ => tidy_awaiting

theorem tidy_prepareDisconnect : Tidy 2 prepareDisconnect := by
  refine rising_mayFail.andThen fun _ => (tidy_touch (by decide)).andThen fun _ => ?_
  refine (tidy_slot (by decide)).andThen fun slot => (tidy_checkData (by decide)).andThen fun _ => ?_
  exact (tidy_touch (by decide)).andThen fun _ => rising_pure

theorem tidy_finishDisconnect {slot : ℕ} : Tidy 1 (finishDisconnect slot) := by
  refine (rising_maybe ?_).andThen fun _ => (tidy_touchData (by decide)).andThen fun _ => ?_
  · refine (rising_tryCatch (tidy_closeSftp le_rfl) ?_).andThen fun _ => tidy_awaiting
    exact (tidy_touchData (by decide)).andThen fun _ => rising_throw
  · exact (rising_maybe tidy_awaiting).andThen fun _ => rising_mayFail

/-- The part of a disconnect that needs the metadata. -/
theorem tidy_prepared : Tidy 1 (scope .mutation (do mayFail; prepareDisconnect)) :=
  tidy_mutation le_rfl (rising_mayFail.andThen fun _ => tidy_prepareDisconnect)

theorem tidy_disconnectHost : Tidy 0 (disconnectHost host) :=
  tidy_lifecycleGuard (tidy_prepared.andThen fun _ => tidy_finishDisconnect)

theorem tidy_connectHost : Tidy 0 (connectHost host) := by
  refine Rising.andThen (tidy_lifecycleGuard ?_) fun slot => ?_
  · refine rising_mayFail.andThen fun _ => tidy_mutation le_rfl ?_
    refine rising_mayFail.andThen fun _ => (tidy_touch (by decide)).andThen fun _ => ?_
    refine (tidy_slot (by decide)).andThen fun slot => ?_
    exact (tidy_checkData (by decide)).andThen fun _ => rising_pure
  · refine (tidy_touch (by decide)).andThen fun _ => tidy_awaiting.andThen fun _ => ?_
    exact tidy_checkData (by decide)

theorem tidy_refreshHost : Tidy 0 refreshHost := by
  refine rising_mayFail.andThen fun _ => (tidy_slot (by decide)).andThen fun slot => ?_
  refine (tidy_checkData (by decide)).andThen fun _ => tidy_awaiting.andThen fun _ => ?_
  exact tidy_checkData (by decide)

/-! ### Hosts and their keys -/

/-- A host is saved with its gate if it is edited, and without if it is new. -/
theorem tidy_saveMetadata (hn : n ≤ 1) : Tidy n saveMetadata := by
  refine tidy_mutation hn (rising_mayFail.andThen fun _ => ?_)
  refine (tidy_slot (by decide)).andThen fun slot => (tidy_checkData (by decide)).andThen fun _ => ?_
  refine rising_mayFail.andThen fun _ => (rising_maybe tidy_awaiting).andThen fun _ => ?_
  refine (rising_maybe (tidy_awaiting.andThen fun _ => rising_throw)).andThen fun _ => ?_
  refine rising_mayFail.andThen fun _ => (tidy_touch (by decide)).andThen fun _ => ?_
  refine (tidy_touchData (by decide)).andThen fun _ => (tidy_touch (by decide)).andThen fun _ => ?_
  refine (rising_maybe tidy_awaiting).andThen fun _ => ?_
  exact (rising_maybe tidy_awaiting).andThen fun _ => rising_mayFail

theorem tidy_saveHost {edited : Option HostId} : Tidy 0 (saveHost edited) := by
  cases edited with
  | some host => exact tidy_lifecycleGuard (tidy_saveMetadata le_rfl)
  | none => exact tidy_saveMetadata (by decide)

theorem tidy_deleteHost : Tidy 0 (deleteHost host) := by
  refine tidy_lifecycleGuard (tidy_prepared.andThen fun _ => ?_)
  refine tidy_finishDisconnect.andThen fun _ => ?_
  refine (tidy_mutation le_rfl ?_).andThen fun _ => tidy_awaiting.andThen fun _ => ?_
  · refine rising_mayFail.andThen fun _ => (tidy_touch (by decide)).andThen fun _ => ?_
    refine (tidy_touch (by decide)).andThen fun _ => (tidy_touch (by decide)).andThen fun _ => ?_
    refine (tidy_touch (by decide)).andThen fun _ => (tidy_touch (by decide)).andThen fun _ => ?_
    exact tidy_touch (by decide)
  · refine Rising.andThen ?_ fun _ => ?_
    · exact (tidy_touch (by decide)).andThen fun _ => tidy_touch (by decide)
    exact tidy_awaiting.andThen fun _ => rising_mayFail

theorem tidy_trustHostKey : Tidy 0 (trustHostKey host) := by
  refine tidy_lifecycleGuard (tidy_mutation le_rfl (rising_mayFail.andThen fun _ => ?_))
  refine (tidy_slot (by decide)).andThen fun slot => tidy_data (by decide) ?_
  exact rising_mayFail.andThen fun _ => (tidy_touch (by decide)).andThen fun _ => rising_mayFail

theorem tidy_planHostKeyRotation : Tidy 0 (planHostKeyRotation host) := by
  refine tidy_lifecycleGuard (tidy_mutation le_rfl ((tidy_touch (by decide)).andThen fun _ => ?_))
  refine rising_mayFail.andThen fun _ => (tidy_slot (by decide)).andThen fun slot => ?_
  exact tidy_data (by decide) (rising_mayFail.andThen fun _ => tidy_touch le_rfl)

theorem tidy_executeHostKeyRotation : Tidy 0 (executeHostKeyRotation host) := by
  refine tidy_lifecycleGuard (tidy_mutation le_rfl ((tidy_check (by decide)).andThen fun _ => ?_))
  refine rising_mayFail.andThen fun _ => (tidy_slot (by decide)).andThen fun slot => ?_
  exact (tidy_checkData (by decide)).andThen fun _ => rising_mayFail

/-! ### Reads -/

/-- Neither the mutex for metadata nor the gate is waited for. What is waited for with the gate
    comes after it, and the mutex is no longer held then. -/
theorem tidy_admitted {kind : ReadKind} {observe : ℕ → AppCall α}
    (h : ∀ slot, Tidy 3 (observe slot)) : Tidy 0 (admitted kind observe) := by
  have hfind : Tidy 2 (do
      mayFail
      let slot ← slot
      check (.data slot)
      return (slot, ← entry (.readGates kind)) : AppCall (ℕ × ℕ)) := by
    refine rising_mayFail.andThen fun _ => (tidy_slot (by decide)).andThen fun slot => ?_
    refine (tidy_checkData (by decide)).andThen fun _ => ?_
    have hgates : 2 ≤ (AppLock.readGates kind).rank := by simp [AppLock.rank]
    exact (tidy_entry hgates).andThen fun gate => rising_pure
  intro held hheld
  obtain rfl : held = ∅ := Set.eq_empty_of_forall_notMem fun l hl => Nat.not_lt_zero _ (hheld l hl)
  have hmutation : ∀ l ∈ (insert .mutation ∅ : Set AppLock), l.rank < 2 := by
    rintro l (rfl | hl)
    · decide
    · exact absurd hl (Set.notMem_empty l)
  have hdone : (insert .mutation ∅ : Set AppLock) \ {.mutation} = ∅ := by
    ext l
    grind
  refine ⟨ordered_bind.2 ((hfind _ hmutation).mono ?_), rfl⟩
  rintro (e | ⟨slot, gate⟩) _ rfl
  · exact ⟨Set.mem_insert _ _, hdone⟩
  refine ⟨ordered_bind.2 ⟨inferInstance, fun admitted => ?_⟩, Set.mem_insert _ _, hdone⟩
  have hheld : ∀ l ∈ ({.readGate kind gate} : Set AppLock), l.rank < 3 := by
    rintro l rfl
    exact Nat.lt_succ_self 2
  have hreleased : (insert (.readGate kind gate) (insert .mutation ∅) : Set AppLock) \
      {.mutation} = {.readGate kind gate} := by
    ext l
    grind
  have hrefused : (insert (.readGate kind gate) (insert .mutation ∅) : Set AppLock) \
      {.readGate kind gate} = insert .mutation ∅ := by
    ext l
    grind
  cases admitted with
  | true =>
    refine ⟨.inr (Set.mem_insert _ _), ?_⟩
    rw [hreleased]
    refine ordered_bind.2 ((h slot _ hheld).mono ?_)
    rintro r _ rfl
    refine ⟨rfl, ?_⟩
    change ({.readGate kind gate} : Set AppLock) \ {.readGate kind gate} = ∅
    ext l
    grind
  | false =>
    refine ⟨Set.mem_insert _ _, ?_⟩
    rw [hrefused]
    exact ⟨Set.mem_insert _ _, hdone⟩

theorem tidy_observed {kind : ReadKind} : Tidy 0 (observed kind) :=
  tidy_admitted fun _ => tidy_awaiting.andThen fun _ => tidy_checkData (by decide)

theorem tidy_listHostServices : Tidy 0 (listHostServices host) := by
  refine Rising.andThen (tidy_admitted fun slot => ?_) fun slot => ?_
  · exact tidy_awaiting.andThen fun _ => rising_pure
  · exact tidy_tryLifecycleGuard (tidy_checkData (by decide))

theorem tidy_sampleHostMonitor : Tidy 0 sampleHostMonitor := by
  have hsample : Tidy 3 (do
      let slot ← slot
      check (.data slot)
      awaiting
      scope (.data slot) do
        mayFail
        touch .monitorBaselines : AppCall Unit) := by
    refine (tidy_slot (by decide)).andThen fun slot => ?_
    refine (tidy_checkData (by decide)).andThen fun _ => tidy_awaiting.andThen fun _ => ?_
    exact tidy_data (by decide) (rising_mayFail.andThen fun _ => tidy_touch le_rfl)
  refine rising_mayFail.andThen fun _ => (tidy_entry (by decide)).andThen fun gate => ?_
  exact rising_scope (Nat.zero_le _) hsample

/-! ### Operations on services -/

theorem tidy_planService : Tidy 0 (planService host) := by
  refine rising_mayFail.andThen fun _ => (tidy_slot (by decide)).andThen fun slot => ?_
  refine (tidy_checkData (by decide)).andThen fun _ => rising_mayFail.andThen fun _ => ?_
  refine (tidy_entry (by decide)).andThen fun gate => ?_
  refine (tidy_readGate (by decide) ?_).andThen fun _ => tidy_tryLifecycleGuard ?_
  · exact rising_mayFail.andThen fun _ => tidy_awaiting.andThen fun _ => rising_mayFail
  · exact (tidy_checkData (by decide)).andThen fun _ => rising_mayFail

theorem tidy_discardService : Tidy 0 (discardService host) := by
  refine tidy_tryLifecycleGuard ((tidy_slot (by decide)).andThen fun slot => ?_)
  exact (tidy_checkData (by decide)).andThen fun _ => rising_mayFail

theorem tidy_revalidate {slot : ℕ} : Tidy 1 (revalidate slot) := by
  refine rising_mayFail.andThen fun _ => (tidy_check (by decide)).andThen fun _ => ?_
  refine rising_any.andThen fun gate => tidy_readGate (by decide) ?_
  refine rising_mayFail.andThen fun _ => tidy_awaiting.andThen fun _ => ?_
  refine rising_mayFail.andThen fun _ => (tidy_checkData (by decide)).andThen fun _ => ?_
  exact rising_mayFail.andThen fun _ => tidy_awaiting

theorem tidy_executeService : Tidy 0 (executeService host) := by
  refine (tidy_slot (by decide)).andThen fun slot => (tidy_checkData (by decide)).andThen fun _ => ?_
  refine rising_mayFail.andThen fun _ => (tidy_tryLifecycleGuard ?_).andThen fun _ => ?_
  · exact rising_mayFail.andThen fun _ => rising_tryCatch tidy_revalidate rising_pure
  · exact rising_tryCatch tidy_listHostServices rising_pure

/-! ### The other calls -/

theorem tidy_useTerminal : Tidy 0 useTerminal := by
  refine rising_mayFail.andThen fun _ => (tidy_slot (by decide)).andThen fun slot => ?_
  exact (tidy_checkData (by decide)).andThen fun _ => tidy_awaiting

/-- The slots that were found are gone through. -/
theorem tidy_slots (hn : n ≤ 5) : Tidy n (forEach do
    touch (.data (← ExceptT.lift (any ℕ)))) :=
  rising_forEach (rising_any.andThen fun _ => tidy_touchData hn)

theorem tidy_shutdown : Tidy 0 shutdown := by
  refine rising_mayFail.andThen fun _ => (tidy_mutation (by decide) ?_).andThen fun _ => ?_
  · refine (tidy_touch (by decide)).andThen fun _ => (tidy_touch (by decide)).andThen fun _ => ?_
    exact tidy_slots (by decide)
  · refine (tidy_touch (by decide)).andThen fun _ => ?_
    refine (rising_forEach (tidy_closeSftp (by decide))).andThen fun _ => ?_
    refine tidy_awaiting.andThen fun _ => (tidy_touch (by decide)).andThen fun _ => ?_
    refine tidy_awaiting.andThen fun _ => (tidy_touch (by decide)).andThen fun _ => ?_
    refine (tidy_touch (by decide)).andThen fun _ => (tidy_touch (by decide)).andThen fun _ => ?_
    refine (tidy_touch (by decide)).andThen fun _ => (tidy_touch (by decide)).andThen fun _ => ?_
    exact (tidy_touch (by decide)).andThen fun _ => tidy_slots (by decide)

theorem tidy_program (request : Request) : Tidy 0 (program request) := by
  cases request with
  | openSftp => exact tidy_openSftp
  | executeFilePlan => exact tidy_executeFilePlan
  | openRemoteTextFile | planRemoteTextSave | planUpload | planDownload | planCreateDirectory
  | planRename | planDelete => exact tidy_planFiles
  | listRemoteDirectory | remoteProperties | cancelTransfer | planRetryTransfer
  | validateSftpSession => exact tidy_useSftp
  | closeSftp => exact tidy_closeSftp (by decide)
  | getSession host => exact tidy_getSession
  | disconnectHost host => exact tidy_disconnectHost
  | connectHost host => exact tidy_connectHost
  | reconnectHost host => exact tidy_disconnectHost.andThen fun _ => tidy_connectHost
  | refreshHost => exact tidy_refreshHost
  | saveHost edited => exact tidy_saveHost
  | deleteHost host => exact tidy_deleteHost
  | trustHostKey host => exact tidy_trustHostKey
  | planHostKeyRotation host => exact tidy_planHostKeyRotation
  | executeHostKeyRotation host => exact tidy_executeHostKeyRotation
  | getHostSshTrust host => exact tidy_lifecycleGuard (tidy_mutation le_rfl rising_mayFail)
  | listHostNetwork | listHostRoutes | listHostListeningPorts | listHostDnsConfiguration
  | listHostLogs | listHostContainers => exact tidy_observed
  | listHostServices host => exact tidy_listHostServices
  | sampleHostMonitor => exact tidy_sampleHostMonitor
  | planServiceResetFailed host | planServiceTryRestart host | planServiceReload host
  | planServiceStart host => exact tidy_planService
  | discardServiceResetFailed host | discardServiceTryRestart host | discardServiceReload host
  | discardServiceStart host => exact tidy_discardService
  | executeServiceResetFailed host | executeServiceTryRestart host | executeServiceReload host
  | executeServiceStart host => exact tidy_executeService
  | openTerminal | writeTerminal | resizeTerminal => exact tidy_useTerminal
  | shutdown => exact tidy_shutdown

end

/-! ## Interleavings -/

section

variable {ι : Type} [DecidableEq ι]

/-- The task of a call. -/
def task (request : Request) : Locking AppLock Unit := do
  let _ ← (program request).run

/-- The interleavings of any calls. -/
def system (requests : ι → Request) : Machine (Locking.State ι AppLock) (Label ι) :=
  machine fun i p => p = task (requests i)

variable {requests : ι → Request} {s : Locking.State ι AppLock} {ls : List (Label ι)}

theorem inv_of_run (h : (system requests).Run ls s) :
    Inv AppLock.rank (fun _ => False) s := by
  refine Locking.inv_of_run (fun i p hp => ?_) h
  subst hp
  refine Neutral.bind (tidy_program (requests i) ∅ fun l hl => ?_) fun _ => neutral_pure
  exact absurd hl (Set.notMem_empty l)

/-- No calls wait for each other. A call waits for a lock only while all it holds come before it;
    so it waits for the gate of a host only while it holds neither the mutex for metadata nor a
    slot, and for the mutex only while it holds no slot. -/
theorem locks_in_order (h : (system requests).Run ls s) :
    ¬ s.Deadlocked ∧
    (∀ i l l', s.Waits i l → s.holder l' = some i → l'.rank < l.rank) ∧
    (∀ i host slot, s.Waits i (.lifecycle host) → s.holder (.data slot) ≠ some i) ∧
    (∀ i slot, s.Waits i .mutation → s.holder (.data slot) ≠ some i) ∧
    ∀ i host, s.Waits i (.lifecycle host) → s.holder .mutation ≠ some i := by
  have hi := inv_of_run h
  refine ⟨not_deadlocked hi AppLock.rank_lt, fun i l l' hwaits hheld => waits_rank hi hwaits hheld,
    fun i host slot hwaits hheld => ?_, fun i slot hwaits hheld => ?_,
    fun i host hwaits hheld => ?_⟩
  · exact Nat.not_lt_zero _ (waits_rank hi hwaits hheld)
  · have hlt : 5 < 1 := waits_rank hi hwaits hheld
    exact absurd hlt (by decide)
  · exact Nat.not_lt_zero _ (waits_rank hi hwaits hheld)

end

/-- A host is disconnected while another one is added. -/
def twoCalls : Bool → Request
  | false => .disconnectHost ⟨1⟩
  | true => .saveHost none

/-- The first has the gate of its host and waits for the metadata, which the second has. -/
theorem exists_run_waits : ∃ ls s, (system twoCalls).Run ls s ∧ s.Waits false .mutation ∧
    s.holder (.lifecycle ⟨1⟩) = some false ∧ s.holder .mutation = some true := by
  have h : (system twoCalls).Run [] ⟨fun _ => none, fun _ => none⟩ :=
    .nil ⟨fun _ => rfl, fun _ => rfl⟩
  obtain ⟨_, h⟩ := run_start (i := false) h rfl rfl
  obtain ⟨_, h⟩ := run_step h (.choose false)
  obtain ⟨_, h⟩ := run_step h (.lock rfl)
  obtain ⟨_, h⟩ := run_start (i := true) h rfl rfl
  obtain ⟨_, h⟩ := run_step h (.lock rfl)
  exact ⟨_, _, h, ⟨_, rfl⟩, rfl, rfl⟩

theorem locks_in_order_waiting : ∃ ls s, (system twoCalls).Run ls s ∧
    s.Waits false .mutation ∧ s.holder (.lifecycle ⟨1⟩) = some false ∧
    s.holder .mutation = some true ∧ ¬ s.Deadlocked := by
  obtain ⟨ls, s, h, hwaits, hgate, hmutation⟩ := exists_run_waits
  obtain ⟨hdeadlocked, -⟩ := locks_in_order h
  exact ⟨ls, s, h, hwaits, hgate, hmutation, hdeadlocked⟩

end NexusOps.AppLocks
