import NexusOps.Concurrency.Machine
import NexusOps.Model.Basic
import Mathlib.Data.Finset.Basic

/-!
# Updates

The updater of the desktop application (`UpdateService`). It is in one of six states, each of
which carries what the next step needs, and which is taken out and replaced under a lock:

* a check finds an announcement, or that there is none;
* a download takes an announcement, runs as a task in the background, and leaves verified bytes;
* an installation takes the bytes, with the installer of the announcement.

The service is a machine here: a step is one locked section, that of a call with its result. A
call is a sequence of sections with something awaited in between, and may be abandoned there.
What it remembers from one section to the next is part of the state (`checks`, `downloads`).
Ids are random; here, one that is drawn has never been drawn before.
-/

namespace NexusOps.Desktop

open Concurrency Function

/-! ## Data -/

/-- An announcement that may be downloaded once. -/
structure UpdateAnnouncementId where
  uuid : Nat
  deriving DecidableEq, Repr

/-- Bytes and an installer that may be used once. -/
structure VerifiedArtifactId where
  uuid : Nat
  deriving DecidableEq, Repr

inductive UpdatePhase
  | idle
  | checking
  | upToDate
  | updateAnnounced
  | downloading
  | verifying
  | verified
  | installing
  deriving DecidableEq, Repr

/-- What is shown of the updater. -/
structure UpdateOperationSnapshot where
  currentVersion : String
  phase : UpdatePhase
  availableVersion : Option String
  announcementId : Option UpdateAnnouncementId
  verifiedArtifactId : Option VerifiedArtifactId
  installationSupported : Bool
  deriving DecidableEq, Repr

/-- What is to be downloaded. -/
structure PendingAnnouncement where
  version : String
  url : String
  signature : String
  deriving DecidableEq, Repr

inductive DownloadFailure
  | download
  | verification
  | resourceLimit
  | timeout
  | cancelled
  deriving DecidableEq, Repr

structure InstallerIdentity where
  version : String
  target : String
  artifactBasename : Option String
  deriving DecidableEq, Repr

/-- An installer, as it was returned by a check. The number tells installers apart that have the
    same identity. -/
structure InstallerContext where
  number : Nat
  identity : InstallerIdentity
  deriving DecidableEq, Repr

/-- What a check has found. -/
structure CheckedAnnouncement where
  announcement : PendingAnnouncement
  installerContext : InstallerContext
  deriving DecidableEq, Repr

/-- What may be installed. -/
structure InstallAuthority where
  installerContext : InstallerContext
  bytes : List UInt8
  deriving DecidableEq, Repr

/-! ## The platform -/

inductive Architecture
  | x64
  | arm64
  | unsupported
  deriving DecidableEq, Repr

/-- The name of an architecture in the name of an installer. -/
def Architecture.name : Architecture → String
  | x64 => "x64"
  | arm64 => "arm64"
  | unsupported => "unsupported"

/-- What the application has been built for. -/
structure Target where
  windows : Bool
  architecture : Architecture

/-- Updates can be installed by the application. -/
def Target.installationSupported (target : Target) : Bool :=
  target.windows && decide (target.architecture ≠ .unsupported)

/-- Updates cannot be installed by the application. -/
def installUnavailable : AppError :=
  .new .updateInstall "In-app update installation is not available on this platform."

/-- The installer is not the one that is expected. -/
def installFailed : AppError := .new .updateVerification
  ("The verified installer could not be launched. Close and restart NexusOps before " ++
    "continuing.")

/-- The installer is one for this platform, and for its own version. -/
def validateInstallerIdentity (target : Target) (identity : InstallerIdentity) :
    Except AppError Unit :=
  if target.installationSupported = false then .error installUnavailable
  else if identity.target ≠ "windows" then .error installFailed
  else if identity.artifactBasename ≠
      some ("NexusOps_" ++ identity.version ++ "_" ++ target.architecture.name ++ "-setup.exe") then
    .error installFailed
  else .ok ()

namespace UpdateService

/-! ## Errors -/

def conflict : AppError := .new .updateConflict "The update state changed. Check for updates again."

def installConflict : AppError := .new .updateConflict
  "The verified update authority changed. Close and restart NexusOps before continuing."

def cancelled : AppError := .new .cancelled "The update operation was cancelled."

def downloadError : DownloadFailure → AppError
  | .download => .new .updateDownload "The update could not be downloaded."
  | .verification => .new .updateVerification
    "The downloaded update could not be verified and was discarded."
  | .resourceLimit => .new .updateResourceLimit
    "The announced update exceeds the supported download size."
  | .timeout => .new .updateTimeout "The update operation timed out."
  | .cancelled => cancelled

/-! ## State -/

inductive State
  | idle
  | checking (generation : Nat)
  | announced (generation : Nat) (id : UpdateAnnouncementId) (announcement : PendingAnnouncement)
      (installerContext : InstallerContext)
  | downloading (generation : Nat) (id : UpdateAnnouncementId) (version : String)
      (verifying : Bool) (installerContext : InstallerContext)
  | verified (generation : Nat) (verifiedArtifactId : Option VerifiedArtifactId)
      (version : String) (installerContext : InstallerContext) (bytes : List UInt8)
  | installing (generation : Nat) (version : String)

/-- What is under the lock. -/
structure Inner where
  generation : Nat
  shuttingDown : Bool
  state : State

/-- What is shown of a state. -/
def snapshotFor (target : Target) (state : State) (currentVersion : String) :
    UpdateOperationSnapshot :=
  let show' (phase : UpdatePhase) (version : Option String) (id : Option UpdateAnnouncementId)
      (artifact : Option VerifiedArtifactId) : UpdateOperationSnapshot :=
    ⟨currentVersion, phase, version, id, artifact,
      target.installationSupported && artifact.isSome⟩
  match state with
  | .idle => show' .idle none none none
  | .checking _ => show' .checking none none none
  | .announced _ id announcement _ => show' .updateAnnounced (some announcement.version) (some id) none
  | .downloading _ _ version verifying _ =>
    show' (if verifying then .verifying else .downloading) (some version) none none
  | .verified _ artifact version _ _ => show' .verified (some version) none artifact
  | .installing _ version => show' .installing (some version) none none

/-! ## Locked sections -/

namespace Inner

variable (target : Target) (inner : Inner)

/-- Starts a check, unless something else is going on. -/
def beginCheck : Except AppError Nat × Inner :=
  if inner.shuttingDown then (.error cancelled, inner)
  else match inner.state with
    | .checking _ | .downloading .. | .installing .. => (.error conflict, inner)
    | _ =>
      if inner.generation + 1 < 2 ^ 64 then
        (.ok (inner.generation + 1),
          { inner with generation := inner.generation + 1, state := .checking (inner.generation + 1) })
      else (.error conflict, inner)

/-- The check is the one that is going on. -/
def checks (generation : Nat) : Bool :=
  match inner.state with
  | .checking active => active = generation
  | _ => false

/-- Ends a check that has found something. -/
def finishAnnounced (generation : Nat) (currentVersion : String) (checked : CheckedAnnouncement)
    (id : UpdateAnnouncementId) : Except AppError UpdateOperationSnapshot × Inner :=
  if inner.shuttingDown ∨ ¬inner.checks generation then (.error cancelled, inner)
  else
    let state : State := .announced generation id checked.announcement checked.installerContext
    (.ok (snapshotFor target state currentVersion), { inner with state := state })

/-- Ends a check that has found nothing. -/
def finishUpToDate (generation : Nat) (currentVersion : String) :
    Except AppError UpdateOperationSnapshot × Inner :=
  if inner.shuttingDown ∨ ¬inner.checks generation then (.error cancelled, inner)
  else (.ok ⟨currentVersion, .upToDate, none, none, none, false⟩, { inner with state := .idle })

/-- Ends a check that has failed. -/
def failActive (generation : Nat) : Inner :=
  if inner.checks generation then { inner with state := .idle } else inner

/-- Takes the announcement, and starts to download it. -/
def beginDownload (announcementId : UpdateAnnouncementId) : Except AppError (Nat × String) × Inner :=
  if inner.shuttingDown then (.error cancelled, inner)
  else match inner.state with
    | .announced generation id announcement installerContext =>
      if id = announcementId then
        (.ok (generation, announcement.version), { inner with
          state := .downloading generation id announcement.version false installerContext })
      else (.error conflict, inner)
    | _ => (.error conflict, inner)

/-- Ends a download with the result of its task. The id is used if the bytes can be installed. -/
def finishDownload (generation : Nat) (version : String) (announcementId : UpdateAnnouncementId)
    (currentVersion : String) (result : Except DownloadFailure (List UInt8))
    (artifact : VerifiedArtifactId) : Except AppError UpdateOperationSnapshot × Inner :=
  if inner.shuttingDown then (.error cancelled, inner)
  else match inner.state with
    | .downloading active id _ _ installerContext =>
      if active = generation ∧ id = announcementId then
        match result with
        | .error e => (.error (downloadError e), { inner with state := .idle })
        | .ok bytes =>
          if target.installationSupported then
            match validateInstallerIdentity target installerContext.identity with
            | .error _ => (.error (downloadError .verification), { inner with state := .idle })
            | .ok () =>
              let state : State := .verified generation (some artifact) version installerContext bytes
              (.ok (snapshotFor target state currentVersion), { inner with state := state })
          else
            let state : State := .verified generation none version installerContext bytes
            (.ok (snapshotFor target state currentVersion), { inner with state := state })
      else (.error cancelled, inner)
    | _ => (.error cancelled, inner)

/-- Looks whether the bytes can be installed. -/
def validateInstall (artifact : VerifiedArtifactId) : Except AppError Unit :=
  if target.installationSupported = false then .error installUnavailable
  else match inner.state with
    | .verified _ (some active) _ installerContext _ =>
      if active = artifact then validateInstallerIdentity target installerContext.identity
      else .error conflict
    | _ => .error conflict

/-- Takes the bytes, to install them. -/
def consumeInstall (artifact : VerifiedArtifactId) : Except AppError InstallAuthority × Inner :=
  match inner.state with
  | .verified generation (some active) version installerContext bytes =>
    if active = artifact then
      match validateInstallerIdentity target installerContext.identity with
      | .error e => (.error e, { inner with state := .idle })
      | .ok () =>
        (.ok ⟨installerContext, bytes⟩, { inner with state := .installing generation version })
    else (.error installConflict, inner)
  | _ => (.error installConflict, inner)

/-- Ends the service. A download is aborted, and has to be waited for. -/
def beginShutdown : Bool × Inner :=
  match inner.state with
  | .downloading .. => (true, { inner with shuttingDown := true })
  | _ => (false, { inner with shuttingDown := true, state := .idle })

/-- The download that was aborted has ended. -/
def endShutdown : Inner := { inner with state := .idle }

/-- The task in the background has got all bytes. -/
def verify : Inner :=
  match inner.state with
  | .downloading generation id version _ installerContext =>
    { inner with state := .downloading generation id version true installerContext }
  | _ => inner

end Inner

end UpdateService

/-! ## The machine -/

/-- What a download remembers while its task is running. -/
structure BegunDownload where
  generation : Nat
  version : String
  id : UpdateAnnouncementId
  deriving DecidableEq, Repr

/-- The service, with what the calls remember that are going on, and the ids that have been
    used. -/
structure UpdateService where
  inner : UpdateService.Inner
  checks : TaskId → Option Nat
  downloads : TaskId → Option BegunDownload
  shutdowns : Finset TaskId
  started : Finset TaskId
  announcementIds : Finset UpdateAnnouncementId
  artifactIds : Finset VerifiedArtifactId

/-- A locked section, with the call it is one of, its arguments and its result. -/
inductive UpdateEvent
  | beginCheck (t : TaskId) (result : Except AppError Nat)
  | finishAnnounced (t : TaskId) (generation : Nat) (currentVersion : String)
      (checked : CheckedAnnouncement) (id : UpdateAnnouncementId)
      (result : Except AppError UpdateOperationSnapshot)
  | finishUpToDate (t : TaskId) (generation : Nat) (currentVersion : String)
      (result : Except AppError UpdateOperationSnapshot)
  | failActive (t : TaskId) (generation : Nat)
  | beginDownload (t : TaskId) (id : UpdateAnnouncementId)
      (result : Except AppError (Nat × String))
  | finishDownload (t : TaskId) (begun : BegunDownload) (currentVersion : String)
      (download : Except DownloadFailure (List UInt8)) (artifact : VerifiedArtifactId)
      (result : Except AppError UpdateOperationSnapshot)
  | validateInstall (artifact : VerifiedArtifactId) (result : Except AppError Unit)
  | consumeInstall (artifact : VerifiedArtifactId) (result : Except AppError InstallAuthority)
  | beginShutdown (t : TaskId) (downloading : Bool)
  | endShutdown (t : TaskId)
  | verify
  | snapshot (currentVersion : String) (result : UpdateOperationSnapshot)

namespace UpdateService

variable (target : Target)

/-- The service at the start. -/
def new : UpdateService := ⟨⟨0, false, .idle⟩, fun _ => none, fun _ => none, ∅, ∅, ∅, ∅⟩

/-- The section takes the service from `s` to `s'`. The second section of a check or download
    belongs to a call that has done the first one, and not the second. -/
def Performs (s s' : UpdateService) : UpdateEvent → Prop
  | .beginCheck t result => t ∉ s.started ∧ ∃ inner, s.inner.beginCheck = (result, inner) ∧
      s' = { s with
        inner := inner
        started := insert t s.started
        checks := update s.checks t result.toOption }
  | .finishAnnounced t generation currentVersion checked id result =>
      s.checks t = some generation ∧ id ∉ s.announcementIds ∧ ∃ inner,
        s.inner.finishAnnounced target generation currentVersion checked id = (result, inner) ∧
        s' = { s with
          inner := inner
          checks := update s.checks t none
          announcementIds := insert id s.announcementIds }
  | .finishUpToDate t generation currentVersion result =>
      s.checks t = some generation ∧ ∃ inner,
        s.inner.finishUpToDate generation currentVersion = (result, inner) ∧
        s' = { s with inner := inner, checks := update s.checks t none }
  | .failActive t generation => s.checks t = some generation ∧
      s' = { s with
        inner := s.inner.failActive generation
        checks := update s.checks t none }
  | .beginDownload t id result => t ∉ s.started ∧ ∃ inner,
      s.inner.beginDownload id = (result, inner) ∧
      s' = { s with
        inner := inner
        started := insert t s.started
        downloads := update s.downloads t
          (result.toOption.map fun begun => ⟨begun.1, begun.2, id⟩) }
  | .finishDownload t begun currentVersion download artifact result =>
      s.downloads t = some begun ∧ artifact ∉ s.artifactIds ∧ ∃ inner,
        s.inner.finishDownload target begun.generation begun.version begun.id currentVersion download
          artifact = (result, inner) ∧
        s' = { s with
          inner := inner
          downloads := update s.downloads t none
          artifactIds := insert artifact s.artifactIds }
  | .validateInstall artifact result =>
      s.inner.validateInstall target artifact = result ∧ s' = s
  | .consumeInstall artifact result => ∃ inner,
      s.inner.consumeInstall target artifact = (result, inner) ∧ s' = { s with inner := inner }
  | .beginShutdown t downloading => t ∉ s.started ∧ ∃ inner,
      s.inner.beginShutdown = (downloading, inner) ∧
      s' = { s with
        inner := inner
        started := insert t s.started
        shutdowns := if downloading then insert t s.shutdowns else s.shutdowns }
  | .endShutdown t => t ∈ s.shutdowns ∧
      s' = { s with inner := s.inner.endShutdown, shutdowns := s.shutdowns.erase t }
  | .verify => s' = { s with inner := s.inner.verify }
  | .snapshot currentVersion result =>
      snapshotFor target s.inner.state currentVersion = result ∧ s' = s

/-- The service, and the sections that can be run. -/
def machine : Machine UpdateService UpdateEvent where
  init s := s = new
  step s e s' := Performs target s s' e

end UpdateService

end NexusOps.Desktop
