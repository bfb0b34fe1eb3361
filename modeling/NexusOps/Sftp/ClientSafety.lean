import NexusOps.Sftp.Client

/-!
# What the SFTP client does on the way

Most of what the client does for a transfer is to read: neither a file is created, removed
or put at its destination. Whatever is known before, and does not depend on such requests,
is still known after them (`Undisturbed`). The exceptions are creating a staging file,
committing it and removing it.
-/

namespace NexusOps.Sftp

open Concurrency Protocol

/-- The request creates a file, removes it, or puts it at its destination. -/
def SftpRequest.notable : SftpRequest → Bool
  | openExclusive _ _ => true
  | remove _ => true
  | hardlink _ _ => true
  | posixRename _ _ => true
  | _ => false

/-- The event is about such a request. -/
def SftpEvent.notable {ι : Type} : SftpEvent ι → Bool
  | request _ r => r.notable
  | answered _ r _ => r.notable
  | removed _ _ _ => true
  | _ => false

/-! ## Replies -/

/-- A mutation is done only if it is confirmed. -/
theorem confirmed_of_mutationStatus {reply : Reply} {unknown : String}
    (h : mutationStatus reply.intoStatus unknown = .ok ()) : reply = .packet (.status .ok) := by
  unfold mutationStatus at h
  split at h
  · next hstatus => exact (Reply.of_intoStatus_ok hstatus).2
  all_goals nomatch h

/-- A mutation has failed with a known outcome only if it is refused. -/
theorem refused_of_mutationStatus {reply : Reply} {unknown : String} {e : AppError}
    (h : mutationStatus reply.intoStatus unknown = .error e) (he : e.code ≠ .outcomeUnknown) :
    ∃ code, reply = .packet (.status code) ∧ code ≠ .ok := by
  unfold mutationStatus at h
  split at h
  · nomatch h
  · next code hcode hstatus => exact absurd (Reply.of_intoStatus_ok hstatus).1 hcode
  · next code hstatus => exact ⟨code, Reply.of_intoStatus_status hstatus⟩
  · obtain ⟨⟩ := h
    exact absurd rfl he

variable {σ ι α : Type} [HasSftp σ ι] {S : System ι σ} {P : Protocol S} {i : ι} {A D : σ → Prop}

variable (P i) in
/-- What is known does not depend on requests that are not notable; if the task is dropped,
    `D` is known. -/
structure Undisturbed (A D : σ → Prop) : Prop where
  stable : P.Stable i A
  refl : ∀ s, P.guarantee i s s
  event : ∀ e : SftpEvent ι, e.task = i → e.notable = false → ∀ s, A s →
    P.Safe i (fun _ => A) (note e) s
  dropped : ∀ s, A s → P.Safe i (fun _ => D) (note (.dropped i)) s

/-! ## Requests -/

section

variable (h : Undisturbed P i A D)

include h

theorem preserves_awaitOrDrop {β : Type} : P.Preserves i A D (awaitOrDrop i β) :=
  preserves_await h.dropped

theorem preserves_request {r : SftpRequest} (hr : r.notable = false) :
    P.Preserves i A D (request i r) := by
  refine (preserves_lift (h.event (.request i r) rfl hr)).bind fun _ => ?_
  refine (preserves_awaitOrDrop h).bind fun a => ?_
  exact (preserves_lift (h.event (.answered i r a) rfl hr)).bind fun _ => preserves_pure

/-- A section of the task that only reads the state. -/
theorem preserves_readOnly {f : σ → Option (Except (Exit AppError) α × σ)}
    (hf : ∀ s r s', f s = some (r, s') → s' = s ∧ r ≠ .error .dropped) :
    P.Preserves i A D (.act f) := by
  refine fun s hs => safeOr_act h.stable hs fun s₁ r s₂ hs₁ hi hf₁ => ?_
  obtain ⟨rfl, hr⟩ := hf s₁ r s₂ hf₁
  refine ⟨hi, h.refl s₂, ?_⟩
  rcases r with (e | _) | a
  · exact hs₁
  · exact absurd rfl hr
  · exact hs₁

/-- A section that logs an event, unless the task has been cancelled. -/
theorem preserves_unless {e : SftpEvent ι} {cancelled : σ → Bool} {error : AppError} {a : α}
    (htask : e.task = i) (he : e.notable = false) :
    P.Preserves i A D (.act fun s => if cancelled s then some (.error (.error error), s)
      else some (.ok a, record s e)) := by
  refine fun s hs => safeOr_act h.stable hs fun s₁ r s₂ hs₁ hi hf => ?_
  split_ifs at hf
  · obtain ⟨⟩ := hf
    exact ⟨hi, h.refl s₁, hs₁⟩
  · obtain ⟨⟩ := hf
    exact h.event e htask he s₁ hs₁ s₁ .refl hi () _ rfl

theorem preserves_requestUnless {cancelled : σ → Bool} {e : AppError} {r : SftpRequest}
    (hr : r.notable = false) : P.Preserves i A D (requestUnless i cancelled e r) := by
  refine (preserves_unless h (e := .request i r) rfl hr).bind fun _ => ?_
  exact (preserves_awaitOrDrop h).bind fun a => preserves_unless h (e := .answered i r a) rfl hr

end

/-! ## Functions of the client -/

namespace SftpClient

variable (h : Undisturbed P i A D)

include h

theorem preserves_closeHandle (handle : String) : P.Preserves i A D (closeHandle i handle) :=
  (preserves_request h rfl).bind fun _ => preserves_ofExcept

theorem preserves_lstat (path : String) : P.Preserves i A D (lstat i path) :=
  (preserves_request h rfl).bind fun _ => preserves_ofExcept

theorem preserves_stat (path : String) : P.Preserves i A D (stat i path) :=
  preserves_ofExcept.bind fun _ => (preserves_lstat h path).bind fun _ => preserves_ofExcept

theorem preserves_fstat (handle : String) : P.Preserves i A D (fstat i handle) :=
  (preserves_request h rfl).bind fun _ => preserves_ofExcept

theorem preserves_openRead (path : String) : P.Preserves i A D (openRead i path) :=
  (preserves_request h rfl).bind fun _ => preserves_ofExcept

theorem preserves_identity (path : String) : P.Preserves i A D (identity i path) := by
  refine preserves_ofExcept.bind fun _ => (preserves_request h rfl).bind fun reply => ?_
  split
  · exact preserves_pure
  · exact preserves_pure
  · exact preserves_fail

theorem preserves_editorRevision (path : String) : P.Preserves i A D (editorRevision i path) :=
  preserves_ofExcept.bind fun _ => (preserves_lstat h path).bind fun _ => preserves_ofExcept

theorem preserves_readEditorChunk (client : SftpClient) (handle : String) (bytes : List UInt8) :
    P.Preserves i A D (readEditorChunk i client handle bytes) := by
  rw [readEditorChunk]
  split_ifs
  · exact preserves_pure
  · refine (preserves_request h rfl).bind fun reply => ?_
    split
    · exact preserves_pure
    · exact preserves_ensure.bind fun _ => preserves_pure
    · exact preserves_pure
    · exact preserves_fail

theorem preserves_readEditorFile (client : SftpClient) (before : EditorRevision) (handle : String) :
    P.Preserves i A D (readEditorFile i client before handle) := by
  refine (preserves_fstat h handle).bind fun _ => preserves_ensure.bind fun _ => ?_
  refine (Preserves.loop (preserves_readEditorChunk h client handle)).bind fun _ => ?_
  refine preserves_ensure.bind fun _ => (preserves_fstat h handle).bind fun _ => ?_
  exact preserves_ensure.bind fun _ => preserves_pure

theorem preserves_readEditorBytes (client : SftpClient) (path : String) :
    P.Preserves i A D (readEditorBytes i client path) := by
  refine preserves_ofExcept.bind fun _ => (preserves_editorRevision h path).bind fun before => ?_
  refine preserves_ensure.bind fun _ => (preserves_openRead h path).bind fun handle => ?_
  refine (preserves_readEditorFile h client before handle).attempt.bind fun _ => ?_
  refine (preserves_closeHandle h handle).attempt.bind fun _ => ?_
  exact preserves_ofExcept.bind fun _ => preserves_ofExcept.bind fun _ => preserves_pure

theorem preserves_preserveEditorMetadata (staging : String) (expected : EditorRevision) :
    P.Preserves i A D (preserveEditorMetadata i staging expected) := by
  have hrest : P.Preserves i A D (do
      let reply ← request i (.setPermissions staging (permissionBits expected.rawMode))
      .ofExcept (statusOk reply.intoStatus)
      let final ← lstat i staging
      Async.ensure (final.fileType = .file ∧ final.uid = some expected.uid ∧
          final.gid = some expected.gid ∧
          final.permissions.map permissionBits = some (permissionBits expected.rawMode))
        (.new .filePolicy "Remote mode or ownership preservation could not be confirmed.")) :=
    (preserves_request h rfl).bind fun _ => preserves_ofExcept.bind fun _ =>
      (preserves_lstat h staging).bind fun _ => preserves_ensure
  refine preserves_ofExcept.bind fun _ => (preserves_lstat h staging).bind fun current => ?_
  refine preserves_ensure.bind fun _ => ?_
  dsimp only
  split_ifs
  · exact (preserves_request h rfl).bind fun _ => preserves_ofExcept.bind fun _ => hrest
  · exact hrest

theorem preserves_read (reader : Reader) (offset length : Nat) :
    P.Preserves i A D (reader.read i offset length) := by
  cases reader with
  | file =>
    refine (preserves_awaitOrDrop h).bind fun bytes => ?_
    cases bytes with
    | none => exact preserves_fail
    | some bytes => exact preserves_pure
  | memory bytes => exact preserves_pure

variable {cancelled : σ → Bool} {progress : Nat → Proc σ Unit}
  (hprogress : ∀ bytes s, A s → P.Safe i (fun _ => A) (progress bytes) s)

include hprogress

theorem preserves_uploadChunk (client : SftpClient) (reader : Reader) (handle : String)
    (confirmed : Nat) :
    P.Preserves i A D (uploadChunk i client reader cancelled progress handle confirmed) := by
  refine (preserves_readOnly h fun s r s' hf => ?_).bind fun _ => ?_
  · split_ifs at hf
    · obtain ⟨⟩ := hf
      exact ⟨rfl, nofun⟩
    · obtain ⟨⟩ := hf
      exact ⟨rfl, nofun⟩
  · refine (preserves_read h reader _ _).bind fun bytes => ?_
    split_ifs
    · exact preserves_pure
    · refine (preserves_request h rfl).bind fun _ => preserves_ofExcept.bind fun _ => ?_
      refine preserves_ofExcept.bind fun confirmed => ?_
      exact (preserves_lift (hprogress confirmed)).bind fun _ => preserves_pure

theorem preserves_uploadFile (client : SftpClient) (reader : Reader) (handle : String) :
    P.Preserves i A D (uploadFile i client reader cancelled progress handle) := by
  refine (Preserves.loop (preserves_uploadChunk h hprogress client reader handle)).bind
    fun confirmed => ?_
  dsimp only
  split_ifs
  · exact (preserves_request h rfl).bind fun _ => preserves_ofExcept.bind fun _ => preserves_pure
  · exact preserves_pure

omit hprogress in
theorem preserves_writeLocal (data : List UInt8) : P.Preserves i A D (writeLocal i data) := by
  refine (preserves_awaitOrDrop h).bind fun ok => ?_
  split_ifs
  · exact preserves_lift (h.event (.wrote i data) rfl rfl)
  · exact preserves_fail

theorem preserves_downloadChunk (client : SftpClient) (handle : String) (confirmed : Nat) :
    P.Preserves i A D (downloadChunk i client cancelled progress handle confirmed) := by
  refine (preserves_requestUnless h rfl).bind fun reply => ?_
  split
  · exact preserves_pure
  · refine (preserves_writeLocal h _).bind fun _ => preserves_ofExcept.bind fun confirmed => ?_
    exact (preserves_lift (hprogress confirmed)).bind fun _ => preserves_pure
  · exact preserves_pure
  · exact preserves_fail

theorem preserves_download (client : SftpClient) (remote : String) :
    P.Preserves i A D (download i client remote cancelled progress) := by
  refine preserves_ofExcept.bind fun _ => (preserves_stat h remote).bind fun entry => ?_
  refine preserves_ensure.bind fun _ => (preserves_openRead h remote).bind fun handle => ?_
  refine (Preserves.loop (preserves_downloadChunk h hprogress client handle)).attempt.bind fun _ => ?_
  refine (preserves_closeHandle h handle).attempt.bind fun _ => preserves_ofExcept.bind fun _ => ?_
  refine preserves_ofExcept.bind fun _ => (preserves_awaitOrDrop h).bind fun ok => ?_
  split_ifs
  · exact preserves_pure
  · exact preserves_fail

end SftpClient

end NexusOps.Sftp
