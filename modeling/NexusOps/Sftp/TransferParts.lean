import NexusOps.Concurrency.Obeys
import NexusOps.Sftp.ClientSafety
import NexusOps.Sftp.Transfer

/-!
# Parts of transfers

What the parts of a job have in common, for any protocol of the transfer manager. If the protocol
is kept by every section a job is made of, from every state (`TransferManager.Routine`), then it is
kept by the functions they are put together to. Only the sections that note a commit are left out,
which is what distinguishes the jobs.
-/

namespace NexusOps.Sftp

open Concurrency Protocol

variable {S : System TransferTask TransferManager} {P : Protocol S}

namespace TransferManager

variable (P) in
/-- The sections of a job keep to the protocol, other than those that note a commit. -/
structure Routine (id : TransferJobId) : Prop where
  refl : ∀ s, P.guarantee (.job id) s s
  note : ∀ e : SftpEvent TransferTask, e.task = .job id → P.Obeys (.job id) (note e)
  setGuard : ∀ f, P.Obeys (.job id) (setGuard id f)
  progress : ∀ bytes, P.Obeys (.job id) (progress id bytes)
  markUnconfirmed : P.Obeys (.job id) (markUnconfirmed (.job id) id)
  transferring : P.Obeys (.job id) (setState (.job id) id .transferring)
  enterFinalizing : P.Obeys (.job id) (enterFinalizing id).run
  dropGuard : P.Obeys (.job id) (dropGuard id)

namespace Routine

variable {id : TransferJobId} (h : Routine P id)

include h

/-! ## The client -/

theorem undisturbed : Undisturbed P (.job id) (fun _ => True) fun _ => True where
  stable _ _ _ h := h
  refl := h.refl
  event e he _ s _ := h.note e he s
  dropped s _ := h.note _ rfl s

theorem awaitOrDrop {β : Type} : P.Obeys (.job id) (awaitOrDrop (.job id) β).run :=
  obeys_await (h.note _ rfl)

theorem request {r : SftpRequest} : P.Obeys (.job id) (request (.job id) r).run := by
  refine Obeys.andThen (obeys_lift (h.note _ rfl)) fun _ => Obeys.andThen h.awaitOrDrop fun a => ?_
  exact Obeys.andThen (obeys_lift (h.note _ rfl)) fun _ => obeys_pure

variable {α : Type}

theorem look {f : TransferManager → α} : P.Obeys (.job id) (Fallible.read f : Transfer α).run :=
  obeys_lift (obeys_read h.refl)

variable {path : String}

theorem editorRevision : P.Obeys (.job id) (SftpClient.editorRevision (.job id) path).run :=
  Preserves.obeys (SftpClient.preserves_editorRevision h.undisturbed path)

variable {client : SftpClient}

theorem readEditorBytes :
    P.Obeys (.job id) (SftpClient.readEditorBytes (.job id) client path).run :=
  Preserves.obeys (SftpClient.preserves_readEditorBytes h.undisturbed client path)

variable {staging : String}

theorem preserveEditorMetadata {expected : EditorRevision} :
    P.Obeys (.job id) (SftpClient.preserveEditorMetadata (.job id) staging expected).run :=
  Preserves.obeys (SftpClient.preserves_preserveEditorMetadata h.undisturbed staging expected)

theorem removeOwnedStaging :
    P.Obeys (.job id) (SftpClient.removeOwnedStaging (.job id) path).run := by
  refine Obeys.andThen h.request fun reply => ?_
  split
  · exact Obeys.andThen (obeys_lift (h.note _ rfl)) fun _ => obeys_pure
  · exact Obeys.andThen (obeys_lift (h.note _ rfl)) fun _ => obeys_pure
  · exact Obeys.andThen (obeys_lift (h.note _ rfl)) fun _ => obeys_pure
  all_goals exact obeys_throw

theorem uploadStaged {reader : SftpClient.Reader} {cancelled : TransferManager → Bool} :
    P.Obeys (.job id) (SftpClient.uploadStaged (.job id) client reader staging (markOwned id)
      cancelled (TransferManager.progress id)).run := by
  have hupload : ∀ handle, P.Obeys (.job id) (SftpClient.uploadFile (.job id) client reader
      cancelled (TransferManager.progress id) handle).run :=
    fun handle => Preserves.obeys (SftpClient.preserves_uploadFile h.undisturbed
      (fun bytes s _ => h.progress bytes s) client reader handle)
  have hclose : ∀ handle, P.Obeys (.job id) (SftpClient.closeHandle (.job id) handle).run :=
    fun handle => Preserves.obeys (SftpClient.preserves_closeHandle h.undisturbed handle)
  rw [SftpClient.uploadStaged]
  split
  · exact obeys_pure
  · refine Obeys.andThen h.request fun reply => ?_
    split
    · exact obeys_pure
    · exact obeys_pure
    · next handle _ =>
      refine Obeys.andThen (obeys_lift (h.setGuard _)) fun _ => ?_
      refine Obeys.andThen (hupload handle).attempt fun result => ?_
      refine Obeys.andThen (hclose handle).attempt fun close => ?_
      split
      · exact obeys_pure
      · exact obeys_pure
      · exact obeys_pure

theorem commitReplace {staging destination : String} :
    P.Obeys (.job id) (SftpClient.commitReplace (.job id) client staging destination).run := by
  refine Obeys.andThen obeys_ensure fun _ => Obeys.andThen obeys_ofExcept fun _ => ?_
  refine Obeys.andThen obeys_ofExcept fun _ => Obeys.andThen h.request fun reply => ?_
  split
  · exact obeys_pure
  · exact obeys_throw
  · exact obeys_throw

/-! ## Staging files -/

theorem cleanup : P.Obeys (.job id) (cleanup id).run := by
  refine Obeys.andThen h.look fun guard => ?_
  split
  · refine Obeys.andThen h.removeOwnedStaging.attempt fun result => ?_
    cases result with
    | ok _ => exact obeys_lift (h.setGuard _)
    | error e =>
      refine Obeys.andThen (obeys_lift (h.setGuard _)) fun _ => ?_
      exact Obeys.andThen (obeys_lift h.markUnconfirmed) fun _ => obeys_throw
  · exact obeys_lift (h.setGuard _)

theorem cleanupAndFail {e : AppError} : P.Obeys (.job id) (cleanupAndFail id e : Transfer α).run :=
  Obeys.andThen h.cleanup fun _ => obeys_throw

theorem orCleanup {result : Except AppError α} : P.Obeys (.job id) (orCleanup id result).run := by
  cases result with
  | ok a => exact obeys_pure
  | error e => exact h.cleanupAndFail

theorem ensureOrCleanup {p : Prop} [Decidable p] {e : AppError} :
    P.Obeys (.job id) (ensureOrCleanup id p e).run := by
  rw [TransferManager.ensureOrCleanup]
  split_ifs
  · exact obeys_pure
  · exact h.cleanupAndFail

theorem uploadStaging {reader : SftpClient.Reader} {staging cancelled : String} :
    P.Obeys (.job id) (uploadStaging id client reader staging cancelled).run := by
  refine Obeys.andThen (obeys_lift h.transferring) fun _ => ?_
  refine Obeys.andThen h.uploadStaged fun result => ?_
  split
  · exact obeys_pure
  · exact obeys_throw
  · exact obeys_throw
  · refine Obeys.andThen h.cleanup fun _ => Obeys.andThen h.look fun _ => ?_
    split_ifs
    · exact obeys_throw
    · exact obeys_throw

theorem settleCommit {result : Except AppError Unit} {unknown : String} :
    P.Obeys (.job id) (settleCommit id result unknown).run := by
  cases result with
  | ok _ => exact obeys_lift (h.setGuard _)
  | error e =>
    refine Obeys.andThen h.cleanup.attempt fun result => ?_
    cases result with
    | ok _ => exact obeys_throw
    | error e =>
      dsimp only
      split_ifs
      · exact obeys_throw
      · exact obeys_throw

theorem checkEditorFile [Platform]
    {destination changed contentsChanged : String} {expected : EditorRevision}
    {originalDigest : Digest} :
    P.Obeys (.job id) (checkEditorFile id client destination expected originalDigest changed
      contentsChanged).run := by
  have hrest : P.Obeys (.job id) (do
      let bytes ← .attempt (SftpClient.readEditorBytes (.job id) client destination)
      let bytes ← TransferManager.orCleanup id bytes
      TransferManager.ensureOrCleanup id (Platform.sha256 bytes = originalDigest)
        (.new .conflict contentsChanged) : Transfer Unit).run := by
    refine Obeys.andThen h.readEditorBytes.attempt fun _ => ?_
    exact Obeys.andThen h.orCleanup fun _ => h.ensureOrCleanup
  refine Obeys.andThen h.editorRevision.attempt fun current => ?_
  cases current with
  | error e => exact Obeys.andThen h.cleanupAndFail fun _ => hrest
  | ok revision => exact Obeys.andThen h.ensureOrCleanup fun _ => hrest

end Routine

end TransferManager

end NexusOps.Sftp
