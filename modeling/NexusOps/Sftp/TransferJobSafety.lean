import NexusOps.Sftp.TransferSections

/-!
# Safety of jobs

Every job keeps to the protocol: whatever it is answered, and wherever it fails, is
cancelled or is dropped, it has left nothing behind when it ends (`Tidy`), and it ends in a
state that tells what it has done (`Honest`).

Between creating its staging file and committing it, a job owns the file (`Staging`). It
ends with a failure once it no longer does (`Failed`). If it is dropped, what guards the
file hands it over (`Dropped`).
-/

namespace NexusOps.Sftp

open Concurrency Protocol SftpClient TransferEvent

variable {d es : List TransferEvent} {j : TransferJobId} {i : TransferTask}
  {path destination : String}

/-! ## Deeds of a job -/

/-- The only staging file the job has created is this one, and no removal is left
    unanswered. -/
structure Staging (d : List TransferEvent) (j : TransferJobId) (path : String) : Prop where
  settled : Settled d j SftpRequest.Removes
  created : ∀ path', Created d j path' ↔ path' = path

/-- Nothing that is said by the events is about creating a file, or committing it. -/
structure Meanwhile (es : List TransferEvent) (j : TransferJobId) : Prop where
  created : ∀ path, ¬Created es j path
  requested : ∀ i r, r.Commits → .sftp (.request i r) ∉ es
  answered : ∀ i r a, r.Commits → .sftp (.answered i r a) ∉ es

theorem Unapplied.append (h : Unapplied d j) (hes : Meanwhile es j) : Unapplied (d ++ es) j := by
  refine ⟨h.settled.append (followed_of_not ?_), fun i r a hi hr he => ?_⟩
  · rintro e he ⟨i, r, rfl, -, hr⟩
    exact hes.requested i r hr he
  · refine h.unapplied i r a hi hr ((List.mem_append.1 he).resolve_right ?_)
    exact hes.answered i r a hr

theorem Staging.append (h : Staging d j path) (hes : ∀ path, ¬Created es j path)
    (hsettled : Settled es j SftpRequest.Removes) : Staging (d ++ es) j path := by
  refine ⟨h.settled.append hsettled, fun path' => ?_⟩
  rw [created_append, or_iff_left (hes path')]
  exact h.created path'

theorem unapplied_nil : Unapplied [] j :=
  ⟨followed_nil, fun _ _ _ _ _ he => absurd he List.not_mem_nil⟩

theorem tidy_nil : Tidy [] j :=
  ⟨followed_nil, fun _ ⟨_, _, _, he, _⟩ => absurd he List.not_mem_nil⟩

/-- A request, and its answer. -/
abbrev exchange (i : TransferTask) (r : SftpRequest) (a : Answer) : List TransferEvent :=
  [.sftp (.request i r), .sftp (.answered i r a)]

variable {r : SftpRequest} {a : Answer}

theorem settled_exchange {p : SftpRequest → Prop}
    (hi : i.jobId = some j) : Settled (exchange i r a) j p := by
  refine followed_cons.2 ⟨fun _ => ⟨_, List.mem_cons_self, i, i, r, a, rfl, rfl, hi⟩, ?_⟩
  refine followed_of_not fun e he ⟨_, _, heq, _⟩ => ?_
  nomatch (List.mem_singleton.1 he).symm.trans heq

theorem answered_of_mem_exchange {i' : TransferTask} {r r' : SftpRequest} {a a' : Answer}
    (h : .sftp (.answered i' r' a') ∈ exchange i r a) : i' = i ∧ r' = r ∧ a' = a := by
  simpa using h

/-- No file is created but by a request to do so. -/
theorem Staging.exchange (h : Staging d j path)
    (hi : i.jobId = some j) (hr : ∀ path' permissions, r ≠ .openExclusive path' permissions) :
    Staging (d ++ exchange i r a) j path := by
  refine h.append (fun path' ⟨permissions, a', handle, he, _⟩ => ?_) (settled_exchange hi)
  exact hr path' permissions (answered_of_mem_exchange he).2.1.symm

/-- A removal, and what came of it, is neither about creating a file nor about committing
    it. -/
theorem meanwhile_remove {e : TransferEvent}
    (he : ∀ i r, e ≠ .sftp (.request i r)) (he' : ∀ i r a, e ≠ .sftp (.answered i r a)) :
    Meanwhile [.sftp (.request i (.remove path)), .sftp (.answered i (.remove path) a), e] j := by
  refine ⟨fun path' ⟨p, a', handle, hmem, _⟩ => ?_, fun i' r hr hmem => ?_, fun i' r a' hr hmem => ?_⟩
  · simp [Ne.symm (he' _ _ _)] at hmem
  · simp only [List.mem_cons, TransferEvent.sftp.injEq, SftpEvent.request.injEq, reduceCtorEq,
      Ne.symm (he i' r), List.not_mem_nil, or_false, or_self] at hmem
    exact absurd hr (by rw [hmem.2]; exact id)
  · simp only [List.mem_cons, TransferEvent.sftp.injEq, SftpEvent.answered.injEq, reduceCtorEq,
      Ne.symm (he' i' r a'), List.not_mem_nil, or_false, false_or] at hmem
    exact absurd hr (by rw [hmem.2.1]; exact id)

section

variable {a : Answer} {e : TransferEvent}

/-- The only staging file is removed, or on record as one that may have been left behind. -/
theorem tidy_of_gone (hsettled : Settled (d ++ exchange i (.remove path) a) j SftpRequest.Removes)
    (hcreated : ∀ path', Created d j path' ↔ path' = path)
    (he : ∀ i r, e ≠ .sftp (.request i r)) (he' : ∀ i r a, e ≠ .sftp (.answered i r a))
    (hgone : Removed [e] j path ∨ Unconfirmed [e] j) :
    Tidy (d ++ [sftp (.request i (.remove path)), sftp (.answered i (.remove path) a), e]) j := by
  have hes : Meanwhile [.sftp (.request i (.remove path)), .sftp (.answered i (.remove path) a), e] j :=
    meanwhile_remove he he'
  refine ⟨?_, fun path' hpath' => .inr ?_⟩
  · have hnone : Settled [e] j SftpRequest.Removes := followed_of_not fun e' he' ⟨i', r, heq, _⟩ =>
      he i' r ((List.mem_singleton.1 he').symm.trans heq)
    have happend := hsettled.append hnone
    rwa [List.append_assoc] at happend
  · rw [created_append, or_iff_left (hes.created path'), hcreated] at hpath'
    subst hpath'
    refine hgone.imp (fun ⟨i, cleanup, hmem, hi⟩ => ?_) fun ⟨i, hmem, hi⟩ => ?_
    · exact ⟨i, cleanup, by simp [List.mem_singleton.1 hmem], hi⟩
    · exact ⟨i, by simp [List.mem_singleton.1 hmem], hi⟩

/-- The removal is an answer to all that have asked for it. -/
theorem settled_of_removes (hi : i.jobId = some j) (hremoves : ∀ i' path', i'.jobId = some j →
      .sftp (.request i' (.remove path')) ∈ d → path' = path) :
    Settled (d ++ exchange i (.remove path) a) j SftpRequest.Removes := by
  rw [exchange, List.append_cons]
  refine Followed.snoc_of_forall (fun e' he' => ?_) fun ⟨_, _, heq, _⟩ => nomatch heq
  rintro ⟨i', r, rfl, hi', hr⟩
  cases r with
  | remove path' =>
    have hpath : path' = path := by
      rcases List.mem_append.1 he' with he' | he'
      · exact hremoves i' path' hi' he'
      · simp only [List.mem_singleton, TransferEvent.sftp.injEq, SftpEvent.request.injEq,
          SftpRequest.remove.injEq] at he'
        exact he'.2
    rw [hpath]
    exact ⟨i', i, .remove path, a, rfl, rfl, hi⟩
  | _ => exact hr.elim

end

/-- The events are about no request. -/
def Local (es : List TransferEvent) : Prop := ∀ e ∈ es, ∀ e', e ≠ .sftp e'

theorem local_nil : Local [] := fun _ he => absurd he List.not_mem_nil

theorem local_singleton {e : TransferEvent} (he : ∀ e', e ≠ .sftp e') : Local [e] :=
  fun _ hmem => List.mem_singleton.1 hmem ▸ he

theorem Local.meanwhile (h : Local es) : Meanwhile es j :=
  ⟨fun _ ⟨_, _, _, he, _⟩ => h _ he _ rfl, fun _ _ _ he => h _ he _ rfl, fun _ _ _ _ he => h _ he _ rfl⟩

theorem Local.settled {p : SftpRequest → Prop} (h : Local es) : Settled es j p :=
  followed_of_not fun e he ⟨_, _, heq, _⟩ => h e he _ heq

theorem Local.tidy (h : Local d) : Tidy d j :=
  ⟨h.settled, fun path hpath => absurd hpath (h.meanwhile.created path)⟩

theorem Local.unapplied (h : Local d) : Unapplied d j :=
  unapplied_nil.append h.meanwhile

theorem Staging.local (h : Staging d j path) (hes : Local es) : Staging (d ++ es) j path :=
  h.append hes.meanwhile.created hes.settled

/-- A request on its own creates nothing. -/
theorem created_request {path' : String} :
    Created (d ++ [sftp (.request i r)]) j path' ↔ Created d j path' := by
  rw [created_append, or_iff_left]
  rintro ⟨_, _, _, he, _⟩
  nomatch List.mem_singleton.1 he

/-- A request that has not been applied. -/
theorem Unapplied.refused (h : Unapplied d j) (hi : i.jobId = some j)
    (ha : a.applied = false) : Unapplied (d ++ exchange i r a) j := by
  refine ⟨h.settled.append (settled_exchange hi), fun i' r' a' hi' hr' he => ?_⟩
  rcases List.mem_append.1 he with he | he
  · exact h.unapplied i' r' a' hi' hr' he
  · rw [(answered_of_mem_exchange he).2.2]
    exact ha

section

variable {permissions : Nat} {a : Answer}

theorem unapplied_create (hi : i.jobId = some j) :
    Unapplied (exchange i (.openExclusive path permissions) a) j := by
  refine ⟨settled_exchange hi, fun i' r' a' _ hr' he => ?_⟩
  rw [(answered_of_mem_exchange he).2.1] at hr'
  exact hr'.elim

/-- A staging file that was not created. -/
theorem tidy_create (ha : ∀ handle, a.reply ≠ .packet (.handle handle)) :
    Tidy (exchange (.job j) (.openExclusive path permissions) a) j := by
  refine ⟨settled_exchange rfl, fun path' ⟨permissions, a', handle, he, ha'⟩ => ?_⟩
  rw [(answered_of_mem_exchange he).2.2] at ha'
  exact absurd ha' (ha handle)

/-- A staging file that was created. -/
theorem staging_create {handle : String} (ha : a.reply = .packet (.handle handle)) :
    Staging (exchange (.job j) (.openExclusive path permissions) a) j path := by
  refine ⟨settled_exchange rfl, fun path' => ⟨fun ⟨_, _, _, he, _⟩ => ?_, fun heq => ?_⟩⟩
  · exact (SftpRequest.openExclusive.inj (answered_of_mem_exchange he).2.1).1
  · subst heq
    exact ⟨permissions, a, handle, by simp, ha⟩

end

/-- The server has confirmed that the staging file was moved to its destination. -/
theorem committed_posixRename (ha : a.Confirmed) :
    Committed (d ++ exchange (.job j) (.posixRename path destination) a) j path destination :=
  .inl ⟨a, by simp, ha⟩

/-- The server has confirmed that the staging file was linked to its destination, and then
    removed. -/
theorem committed_hardlink {a a' : Answer} (ha : a.Confirmed) (ha' : a'.Confirmed) :
    Committed (d ++ exchange (.job j) (.hardlink path destination) a ++
      exchange (.job j) (.remove path) a') j path destination :=
  .inr ⟨a, a', by simp, ha, by simp, ha'⟩

/-- A staging file that has been committed. -/
theorem Staging.tidy_of_committed (h : Staging d j path) (hd : Committed d j path destination) :
    Tidy d j := by
  refine ⟨h.settled, fun path' hpath' => .inl ⟨destination, ?_⟩⟩
  rw [(h.created path').1 hpath']
  exact hd

variable {action : DestinationAction EntryIdentity}

theorem JobSpec.StagesTo.unique {spec : JobSpec}
    (h : spec.destination = .remote destination action) (destination' : String)
    (hstages : spec.StagesTo destination') : destination' = destination := by
  obtain ⟨-, ⟨action', h'⟩, -⟩ := hstages
  exact (Destination.remote.inj (h'.symm.trans h)).1

namespace TransferManager

variable [Platform] {calls : TaskId → TransferCall} {s : TransferManager} {spec : JobSpec}
  {x : Standing} {g : Option RemoteStagingGuard}

/-- The staging file, once it has been created. -/
abbrev guarded (path : String) : Option RemoteStagingGuard := some ⟨path, true, true⟩

/-- The job has failed, and has left nothing behind. -/
def Failed (s : TransferManager) (j : TransferJobId) (spec : JobSpec) (x : Standing) (e : AppError) :
    Prop :=
  ∃ g d, s.Own j spec x g d ∧ (∀ path, g ≠ guarded path) ∧ Tidy d j ∧
    (e.code ≠ .outcomeUnknown → Unapplied d j)

/-- The staging file has been removed, or the job flagged. Whatever was not applied before
    still is not. -/
def Cleaned (s : TransferManager) (j : TransferJobId) (spec : JobSpec) (x : Standing)
    (d : List TransferEvent) : Prop :=
  ∃ g es, s.Own j spec x g (d ++ es) ∧ (∀ path, g ≠ guarded path) ∧ Tidy (d ++ es) j ∧ Meanwhile es j

variable {e : AppError}

omit [Platform] in
theorem Cleaned.failed (h : s.Cleaned j spec x d)
    (hd : e.code ≠ .outcomeUnknown → Unapplied d j) : s.Failed j spec x e := by
  obtain ⟨g, es, hown, hg, htidy, hes⟩ := h
  exact ⟨g, d ++ es, hown, hg, htidy, fun hcode => (hd hcode).append hes⟩

omit [Platform] in
/-- A job that is dropped while it owns its staging file. -/
theorem Own.dropped (h : s.Own j spec x (guarded path) d)
    (hd : ∀ path', Created d j path' ↔ path' = path)
    (hdropped : .sftp (.dropped (.job j)) ∈ s.log) : s.Dropped j spec x := by
  refine ⟨_, d, h, hdropped, fun path' heq => ?_⟩
  obtain ⟨rfl, -⟩ := RemoteStagingGuard.mk.inj (Option.some.inj heq)
  exact hd

/-! ## Cleaning up -/

theorem safe_disarm (h : s.Own j spec x (guarded path) d) : (protocol calls).Safe (.job j)
    (fun _ s => s.Own j spec x (some ⟨path, false, true⟩) d) (disarm j) s :=
  safe_setGuard h

/-- The staging file is removed; if that cannot be confirmed, the job is flagged. -/
theorem safeAsync_cleanup (h : s.Own j spec x (guarded path) d) (hd : Staging d j path) :
    (protocol calls).SafeAsync (.job j) (fun _ s => s.Cleaned j spec x d)
      (fun _ s => s.Cleaned j spec x d) (fun s => s.Dropped j spec x) (cleanup j) s := by
  have hA : Works calls (.job j) j _ := works_own j spec x (guarded path)
  have hcreated : Created d j path := (hd.created path).2 rfl
  have hclean : ∀ {s : TransferManager} {a e}, (∀ i r, e ≠ .sftp (.request i r)) →
      (∀ i r a, e ≠ .sftp (.answered i r a)) → (Removed [e] j path ∨ Unconfirmed [e] j) →
      s.Own j spec x (some ⟨path, false, true⟩) (d ++ [sftp (.request (.job j) (.remove path)),
        sftp (.answered (.job j) (.remove path) a), e]) → s.Cleaned j spec x d := fun he he' hgone hown =>
    ⟨_, _, hown, nofun, tidy_of_gone (hd.settled.append (settled_exchange rfl)) hd.created he he' hgone, meanwhile_remove he he'⟩
  refine safeOr_bind.2 (safeOr_read (stable_own j spec x _ d) h .refl fun s₁ h₁ _ => ?_)
  rw [h₁.guards]
  refine safeOr_bind.2 (safeAsync_attempt (safeAsync_removeOwnedStaging hA h₁ hcreated
    (fun a c s h => ?_) (fun a e s h => ?_) fun s h => safe_dropped h fun s h hdropped => ?_))
  · refine safeOr_lift.2 (Safe.mono (safe_disarm h) fun _ s h => ?_)
    exact hclean (e := .sftp (.removed (.job j) path c)) (fun _ _ => nofun) (fun _ _ _ => nofun) (.inl ⟨.job j, c, List.mem_singleton_self _, rfl⟩) h
  · refine safeOr_liftThen (safe_disarm h) fun _ s h => ?_
    have hA' : Works calls (.job j) j _ := works_own j spec x (some ⟨path, false, true⟩)
    refine safeOr_liftThen (safe_markUnconfirmed hA' h) fun _ s h => ?_
    rw [List.append_assoc] at h
    exact hclean (e := .unconfirmed (.job j)) (fun _ _ => nofun) (fun _ _ _ => nofun) (.inr ⟨.job j, List.mem_singleton_self _, rfl⟩) h
  · refine h.dropped (fun path' => ?_) hdropped
    rw [created_append, or_iff_left, hd.created]
    rintro ⟨_, _, _, he, _⟩
    nomatch List.mem_singleton.1 he

/-- The job owns its staging file, and has put nothing at its destination. -/
structure Ready (s : TransferManager) (j : TransferJobId) (spec : JobSpec) (x : Standing)
    (path : String) (d : List TransferEvent) : Prop where
  own : s.Own j spec x (guarded path) d
  staging : Staging d j path
  unapplied : Unapplied d j

omit [Platform] in
/-- Nothing has been put there since. -/
theorem Ready.of_own {s' : TransferManager} (h : s.Ready j spec x path d)
    (hown : s'.Own j spec x (guarded path) d) : s'.Ready j spec x path d :=
  ⟨hown, h.staging, h.unapplied⟩

variable (j calls spec x) in
/-- A part of the job with a staging file: it may fail once that is cleaned up, and be
    dropped as long as it is known what is to be cleaned up. -/
abbrev SafePart {α : Type} (Q : α → TransferManager → Prop) (body : Transfer α)
    (s : TransferManager) : Prop :=
  (protocol calls).SafeAsync (.job j) Q (fun e s => s.Failed j spec x e)
    (fun s => s.Dropped j spec x) body s

section

variable {α : Type} {Q : α → TransferManager → Prop}

theorem safePart_cleanupAndFail (h : s.Ready j spec x path d) :
    SafePart j calls spec x Q (cleanupAndFail j e) s := by
  refine safeOr_bind.2 (SafeAsync.mono (safeAsync_cleanup h.own h.staging) (fun _ s hc => ?_)
    (fun _ s hc => hc.failed fun _ => h.unapplied) fun _ hd => hd)
  exact hc.failed fun _ => h.unapplied

theorem safePart_orCleanup {result : Except AppError α} (h : s.Ready j spec x path d)
    (hQ : ∀ a, result = .ok a → Q a s) : SafePart j calls spec x Q (orCleanup j result) s := by
  cases result with
  | ok a => exact hQ a rfl
  | error e => exact safePart_cleanupAndFail h

theorem safePart_ensureOrCleanup {Q : Unit → TransferManager → Prop} {p : Prop} [Decidable p]
    (h : s.Ready j spec x path d) (hQ : p → Q () s) :
    SafePart j calls spec x Q (ensureOrCleanup j p e) s := by
  rw [ensureOrCleanup]
  split_ifs with hp
  · exact hQ hp
  · exact safePart_cleanupAndFail h

end

/-- What the job knows once it has tried to commit. -/
def Committal (s : TransferManager) (j : TransferJobId) (spec : JobSpec) (x : Standing)
    (path destination : String) : Except AppError Unit → Prop
  | .ok () => ∃ d, s.Own j spec x (guarded path) d ∧ Tidy d j ∧ Created d j path ∧
      Committed d j path destination ∧ .finalizing j ∈ d
  | .error e => ∃ d, s.Own j spec x (guarded path) d ∧ Staging d j path ∧
      (e.code ≠ .outcomeUnknown → Unapplied d j)

/-- The job is done: it knows what it has put at its destination. -/
def Succeeded (s : TransferManager) (j : TransferJobId) (spec : JobSpec) (x : Standing)
    (path destination : String) : Prop :=
  ∃ d, s.Own j spec x (some ⟨path, false, true⟩) d ∧ Tidy d j ∧ Created d j path ∧
    Committed d j path destination ∧ .finalizing j ∈ d

theorem safePart_settleCommit {result : Except AppError Unit} {unknown : String}
    (h : s.Committal j spec x path destination result) :
    SafePart j calls spec x (fun _ s => s.Succeeded j spec x path destination)
      (settleCommit j result unknown) s := by
  cases result with
  | ok =>
    obtain ⟨d, hown, hd⟩ := h
    exact safeOr_lift.2 (Safe.mono (safe_disarm hown) fun _ s hown => ⟨d, hown, hd⟩)
  | error e =>
    obtain ⟨d, hown, hstaging, hd⟩ := h
    refine SafeOr.bind (R := fun _ s => s.Cleaned j spec x d)
      (safeAsync_attempt (safeAsync_cleanup hown hstaging)) fun r s hc => ?_
    cases r with
    | ok => exact hc.failed hd
    | error cleanupError =>
      dsimp only
      split_ifs with hcode
      · exact hc.failed fun hne => absurd rfl hne
      · exact hc.failed fun _ => hd hcode

/-! ## Committing -/

/-- What is done with the staging file, unless the job is dropped. -/
theorem Ready.undisturbed (hd : Staging d j path) : Undisturbed (protocol calls) (.job j)
    (fun s => s.Own j spec x (guarded path) d) (fun s => s.Dropped j spec x) :=
  undisturbed_own fun _ h hdropped => h.dropped hd.created hdropped

/-- A request on the staging file, and its answer. -/
theorem safeAsync_stagingRequest {Q : Reply → TransferManager → Prop}
    {F : AppError → TransferManager → Prop} (h : s.Own j spec x (guarded path) d)
    (hd : Staging d j path) (hr : r.notable = true) (hrule : SftpRule d j (.request (.job j) r))
    (hQ : ∀ a s, s.Own j spec x (guarded path)
      (d ++ [sftp (.request (.job j) r), sftp (.answered (.job j) r a)]) → Q a.reply s) :
    (protocol calls).SafeAsync (.job j) Q F (fun s => s.Dropped j spec x) (request (.job j) r) s := by
  have hA : Works calls (.job j) j _ := works_own j spec x (guarded path)
  refine safeAsync_request hA h hr hrule hQ fun s h => safe_dropped h fun s h hdropped => ?_
  exact h.dropped (fun path' => created_request.trans (hd.created path')) hdropped

omit [Platform] in
/-- The job has not tried to commit. -/
theorem Ready.committal_error (h : s.Ready j spec x path d) (e : AppError) (s' : TransferManager)
    (hown : s'.Own j spec x (guarded path) d) : s'.Committal j spec x path destination (.error e) :=
  ⟨d, hown, h.staging, fun _ => h.unapplied⟩

variable (j calls spec x) in
/-- A part of the job that tries to commit. -/
abbrev SafeCommit (path destination : String) (commit : Transfer Unit) (s : TransferManager) : Prop :=
  (protocol calls).SafeAsync (.job j) (fun _ s => s.Committal j spec x path destination (.ok ()))
    (fun e s => s.Committal j spec x path destination (.error e)) (fun s => s.Dropped j spec x)
    commit s

variable {client : SftpClient}

/-- A file is linked to its destination, and the staging file is removed. -/
theorem safeCommit_commitNew (h : s.Ready j spec x path d) (hd : .finalizing j ∈ d) :
    SafeCommit j calls spec x path destination (commitNew (.job j) client path destination) s := by
  refine preserves_ensure.andThen h.own h.committal_error fun _ s hown => ?_
  refine (preserves_identity (Ready.undisturbed h.staging) destination).andThen hown
    h.committal_error fun existing s hown => ?_
  refine preserves_ensure.andThen hown h.committal_error fun _ s hown => ?_
  refine safeOr_bind.2 (safeAsync_stagingRequest hown h.staging rfl hd fun a s hown => ?_)
  have hlinked : Staging (d ++ exchange (.job j) (.hardlink path destination) a) j path :=
    h.staging.exchange rfl nofun
  refine safeOr_bind.2 (safeAsync_ofExcept (fun _ hok => ?_) fun e herr => ?_)
  · have hcreated := (hlinked.created path).2 rfl
    refine safeOr_bind.2 (safeAsync_stagingRequest hown hlinked rfl hcreated fun a' s hown => ?_)
    have hremoved : Staging (d ++ exchange (.job j) (.hardlink path destination) a ++
      exchange (.job j) (.remove path) a') j path := hlinked.exchange rfl nofun
    split
    · next hok' =>
      have hcommitted : Committed _ j path destination :=
        committed_hardlink (d := d) (confirmed_of_mutationStatus hok)
          (confirmed_of_mutationStatus hok')
      exact ⟨_, hown, hremoved.tidy_of_committed hcommitted, (hremoved.created path).2 rfl, hcommitted,
        List.mem_append_left _ (List.mem_append_left _ hd)⟩
    · exact ⟨_, hown, hremoved, fun hne => absurd rfl hne⟩
  · refine ⟨_, hown, hlinked, fun hcode => h.unapplied.refused rfl ?_⟩
    obtain ⟨code, hreply, hcode⟩ := refused_of_mutationStatus herr hcode
    exact a.of_refused code hreply hcode

/-- A file is moved to its destination. -/
theorem safeCommit_commitReplace (h : s.Ready j spec x path d) (hd : .finalizing j ∈ d) :
    SafeCommit j calls spec x path destination (commitReplace (.job j) client path destination) s := by
  refine preserves_ensure.andThen h.own h.committal_error fun _ s hown => ?_
  refine preserves_ofExcept.andThen hown h.committal_error fun _ s hown => ?_
  refine preserves_ofExcept.andThen hown h.committal_error fun _ s hown => ?_
  refine safeOr_bind.2 (safeAsync_stagingRequest hown h.staging rfl hd fun a s hown => ?_)
  have hmoved : Staging (d ++ exchange (.job j) (.posixRename path destination) a) j path :=
    h.staging.exchange rfl nofun
  split
  · next hpacket =>
    have hcommitted : Committed (d ++ exchange (.job j) (.posixRename path destination) a) j path
      destination := committed_posixRename (Reply.of_intoPacket_ok hpacket)
    exact ⟨_, hown, hmoved.tidy_of_committed hcommitted, (hmoved.created path).2 rfl, hcommitted,
      List.mem_append_left _ hd⟩
  · next code hcode hpacket =>
    refine ⟨_, hown, hmoved, fun _ => h.unapplied.refused rfl ?_⟩
    exact a.of_refused code (Reply.of_intoPacket_ok hpacket) hcode
  · exact ⟨_, hown, hmoved, fun hne => absurd rfl hne⟩

/-- The end of a job that tries to commit. -/
theorem safePart_commit {commit : Transfer Unit} {unknown : String}
    (h : SafeCommit j calls spec x path destination commit s) :
    SafePart j calls spec x (fun _ s => s.Succeeded j spec x path destination) (do
      let result ← .attempt commit
      settleCommit j result unknown) s :=
  SafeOr.bind (R := fun r s => s.Committal j spec x path destination r) (safeAsync_attempt h)
    fun _ _ hr => safePart_settleCommit hr

/-- The job starts to be finalized. -/
theorem Ready.safeAsync_enterFinalizing {D : TransferManager → Prop} (h : s.Ready j spec x path d) :
    (protocol calls).SafeAsync (.job j) (fun _ s => s.Ready j spec x path (d ++ [finalizing j]))
      (fun _ s => s.Ready j spec x path d) D (enterFinalizing j) s := by
  have hlocal : Local [.finalizing j] := local_singleton fun _ => nofun
  refine SafeAsync.mono (TransferManager.safeAsync_enterFinalizing h.own) (fun _ s hown => ?_)
    (fun _ s => h.of_own) fun _ hD => hD
  exact ⟨hown, h.staging.local hlocal, h.unapplied.append hlocal.meanwhile⟩

theorem Ready.safe_noteCommit {kind : CommitKind} (h : s.Ready j spec x path d)
    (hd : .finalizing j ∈ d) : (protocol calls).Safe (.job j)
      (fun _ s => s.Ready j spec x path (d ++ [commit j kind])) (noteCommit j kind) s := by
  have hlocal : Local [.commit j kind] := local_singleton fun _ => nofun
  refine Safe.mono (TransferManager.safe_noteCommit h.own hd) fun _ s hown => ?_
  exact ⟨hown, h.staging.local hlocal, h.unapplied.append hlocal.meanwhile⟩

/-- The rest of the job, once it has started to be finalized. -/
theorem safePart_finalize {α : Type} {Q : α → TransferManager → Prop} {k : Unit → Transfer α}
    (h : s.Ready j spec x path d)
    (hk : ∀ s d', s.Ready j spec x path d' → .finalizing j ∈ d' → SafePart j calls spec x Q (k ()) s) :
    SafePart j calls spec x Q (do
      let finalizing ← .attempt (enterFinalizing j)
      k (← orCleanup j finalizing)) s := by
  refine SafeOr.bind (R := fun r s => ∃ d', s.Ready j spec x path d' ∧
    ∀ a, r = .ok a → .finalizing j ∈ d') (safeAsync_attempt (SafeAsync.mono
      h.safeAsync_enterFinalizing (fun _ s hs => ?_) (fun _ s hs => ?_) fun _ h => h)) fun r s hs => ?_
  · exact ⟨_, hs, fun _ _ => List.mem_concat_self⟩
  · exact ⟨_, hs, nofun⟩
  · obtain ⟨d', hs, hd⟩ := hs
    exact safeOr_bind.2 (safePart_orCleanup hs fun a hr => hk s d' hs (hd a hr))

/-! ## Uploads -/

/-- What the job knows once it has tried to write its staging file. -/
def Uploaded (s : TransferManager) (j : TransferJobId) (spec : JobSpec) (x : Standing)
    (path : String) : Except StagedUploadFailure Nat → Prop
  | .ok _ => ∃ d, s.Ready j spec x path d
  | .error (.ownedFailure _) => ∃ d, s.Ready j spec x path d
  | .error (.notCreated e) => s.Failed j spec x e
  | .error (.creationOutcomeUnknown e) => s.Failed j spec x e

/-- The staging file is created, and written. -/
theorem safePart_uploadStaged {reader : Reader}
    (h : s.Own j spec x (some ⟨path, true, false⟩) []) :
    SafePart j calls spec x (fun r s => s.Uploaded j spec x path r)
      (uploadStaged (.job j) client reader path (markOwned j) (fun s => s.cancelled j)
        (progress j)) s := by
  have hA : Works calls (.job j) j _ := works_own j spec x (some ⟨path, true, false⟩)
  rw [uploadStaged]
  split
  · exact ⟨_, _, h, nofun, tidy_nil, fun _ => unapplied_nil⟩
  · refine safeOr_bind.2 (safeAsync_request hA h rfl trivial (fun a s hown => ?_) fun s hown =>
      safe_dropped hown fun s hown hdropped => ⟨_, _, hown, hdropped, nofun⟩)
    rw [List.nil_append] at hown
    have hno : ∀ {e : SftpError}, a.reply.intoHandle = .error e →
        ∀ handle, a.reply ≠ .packet (.handle handle) := by
      intro e he handle hreply
      rw [hreply] at he
      nomatch he
    split
    · next he => exact ⟨_, _, hown, nofun, tidy_create (hno he), fun _ => unapplied_create rfl⟩
    · next he => exact ⟨_, _, hown, nofun, tidy_create (hno he), fun hne => absurd rfl hne⟩
    · next handle he =>
      have hd : Staging (exchange (.job j) (.openExclusive path 0o100600) a) j path :=
        staging_create (Reply.of_intoHandle_ok he)
      refine safeOr_liftThen (safe_setGuard hown) fun _ s hown => ?_
      refine (preserves_uploadFile (Ready.undisturbed hd) (fun _ _ => safe_progress) client
        reader handle).attemptThen hown fun result s hown => ?_
      refine (preserves_closeHandle (Ready.undisturbed hd) handle).attemptThen hown
        fun close s hown => ?_
      have hready : s.Ready j spec x path _ := ⟨hown, hd, unapplied_create rfl⟩
      split
      · exact ⟨_, hready⟩
      · exact ⟨_, hready⟩
      · exact ⟨_, hready⟩

theorem safePart_uploadStaging {reader : Reader} {cancelled : String}
    (h : s.Own j spec x (some ⟨path, true, false⟩) []) :
    SafePart j calls spec x (fun _ s => ∃ d, s.Ready j spec x path d)
      (uploadStaging j client reader path cancelled) s := by
  refine safeOr_liftThen (safe_setState h (.inr rfl) List.not_mem_nil)
    fun _ s hown => ?_
  refine SafeOr.bind (safePart_uploadStaged hown) fun r s hr => ?_
  rcases r with (e | e | e) | streamed
  · exact hr
  · obtain ⟨d, hready⟩ := hr
    refine SafeOr.bind (SafeAsync.mono (safeAsync_cleanup hready.own hready.staging) (fun _ _ h => h)
      (fun _ _ hc => hc.failed fun _ => hready.unapplied) fun _ h => h) fun _ s hc => ?_
    obtain ⟨g, es, hown, hrest⟩ := hc
    refine safeOr_bind.2 (safeOr_read (stable_own j spec x g (d ++ es)) hown .refl fun s hown _ => ?_)
    have hc : s.Cleaned j spec x d := ⟨g, es, hown, hrest⟩
    split_ifs
    · exact hc.failed fun _ => hready.unapplied
    · exact hc.failed fun _ => hready.unapplied
  · exact hr
  · exact hr

/-- The part of an upload with a staging file. -/
theorem safePart_uploadVia {source : LocalItem} (haction : action ≠ .skip)
    (h : s.Own j spec x (some ⟨path, true, false⟩) []) :
    SafePart j calls spec x (fun _ s => s.Succeeded j spec x path destination)
      (uploadVia j client source destination action path) s := by
  refine SafeOr.bind (safePart_uploadStaging h) fun streamed s hs => ?_
  obtain ⟨d, hs⟩ := hs
  refine safeOr_bind.2 (safePart_ensureOrCleanup hs fun _ => ?_)
  refine safeOr_bind.2 (safeOr_ask fun valid => ?_)
  refine safeOr_bind.2 (safePart_orCleanup hs fun _ _ => ?_)
  refine safeOr_bind.2 (safeOr_read (stable_own j spec x _ d) hs.own .refl fun s hown _ => ?_)
  have hs := hs.of_own hown
  refine safeOr_bind.2 (safePart_ensureOrCleanup hs fun _ => ?_)
  refine safePart_finalize hs fun s d' hs hd => ?_
  refine (preserves_identity (Ready.undisturbed hs.staging) destination).attemptThen
    hs.own fun current s hown => ?_
  have hs := hs.of_own hown
  refine safeOr_bind.2 (safePart_orCleanup hs fun current _ => ?_)
  refine safeOr_bind.2 (safePart_ensureOrCleanup hs fun _ => ?_)
  cases action with
  | createNew =>
    refine safeOr_liftThen (hs.safe_noteCommit hd) fun _ s hs => ?_
    exact safePart_commit (safeCommit_commitNew hs (List.mem_append_left _ hd))
  | replaceExisting expected =>
    refine safeOr_liftThen (hs.safe_noteCommit hd) fun _ s hs => ?_
    exact safePart_commit (safeCommit_commitReplace hs (List.mem_append_left _ hd))
  | skip => exact absurd rfl haction

/-! ## Saves of the editor -/

variable {expected : EditorRevision} {originalDigest : Digest}

theorem safePart_checkEditorFile {changed contentsChanged : String} (h : s.Ready j spec x path d) :
    SafePart j calls spec x (fun _ s => s.Ready j spec x path d)
      (checkEditorFile j client destination expected originalDigest changed contentsChanged) s := by
  refine (preserves_editorRevision (Ready.undisturbed h.staging) destination).attemptThen h.own
    fun current s hown => ?_
  have hrest : SafePart j calls spec x (fun _ s => s.Ready j spec x path d) (do
      let bytes ← .attempt (readEditorBytes (.job j) client destination)
      let bytes ← orCleanup j bytes
      ensureOrCleanup j (Platform.sha256 bytes = originalDigest) (.new .conflict contentsChanged)) s := by
    refine (preserves_readEditorBytes (Ready.undisturbed h.staging) client destination).attemptThen
      hown fun bytes s hown => ?_
    refine safeOr_bind.2 (safePart_orCleanup (h.of_own hown) fun bytes _ => ?_)
    exact safePart_ensureOrCleanup (h.of_own hown) fun _ => h.of_own hown
  cases current with
  | error e => exact safeOr_bind.2 (safePart_cleanupAndFail (h.of_own hown))
  | ok revision => exact safeOr_bind.2 (safePart_ensureOrCleanup (h.of_own hown) fun _ => hrest)

/-- The part of a save with a staging file. -/
theorem safePart_saveVia {bytes : List UInt8} (h : s.Own j spec x (some ⟨path, true, false⟩) []) :
    SafePart j calls spec x (fun _ s => s.Succeeded j spec x path destination)
      (saveVia j client bytes expected originalDigest destination path) s := by
  refine SafeOr.bind (safePart_uploadStaging h) fun streamed s hs => ?_
  obtain ⟨d, hs⟩ := hs
  refine safeOr_bind.2 (safePart_ensureOrCleanup hs fun _ => ?_)
  refine (preserves_preserveEditorMetadata (Ready.undisturbed hs.staging) path
    expected).attemptThen hs.own fun preserved s hown => ?_
  have hs := hs.of_own hown
  refine safeOr_bind.2 (safePart_orCleanup hs fun _ _ => ?_)
  refine SafeOr.bind (safePart_checkEditorFile hs) fun _ s hs => ?_
  refine SafeOr.bind (safePart_checkEditorFile hs) fun _ s hs => ?_
  refine safePart_finalize hs fun s d' hs hd => ?_
  refine safeOr_liftThen (hs.safe_noteCommit hd) fun _ s hs => ?_
  exact safePart_commit (safeCommit_commitReplace hs (List.mem_append_left _ hd))

/-! ## Transfers -/

/-- The job knows what has come of it, and has left nothing behind. -/
def Decided (s : TransferManager) (j : TransferJobId) (spec : JobSpec) (x : Standing)
    (outcome : Except AppError Unit) : Prop :=
  ∃ d, s.Own j spec x none d ∧ Ending d j (.job j) spec (outcomeState outcome)

variable (j calls spec x) in
/-- A job, or what is left of it. -/
abbrev SafeJob (body : Transfer Unit) (s : TransferManager) : Prop :=
  (protocol calls).SafeAsync (.job j) (fun _ s => s.Decided j spec x (.ok ()))
    (fun e s => s.Decided j spec x (.error e)) (fun s => s.Over j spec x) body s

omit [Platform] in
/-- A job that has failed. -/
theorem Own.decided_error (h : s.Own j spec x none d) (htidy : Tidy d j)
    (hd : e.code ≠ .outcomeUnknown → Unapplied d j) : s.Decided j spec x (.error e) := by
  refine ⟨d, h, htidy, fun hstate => ?_, fun _ destination _ => ?_⟩
  · rw [outcomeState] at hstate
    split_ifs at hstate
  · rw [outcomeState]
    split_ifs with hcancelled hunknown
    · exact hd (by rw [hcancelled]; decide)
    · trivial
    · exact hd hunknown

omit [Platform] in
/-- A job that has put its staging file at its destination. -/
theorem Own.decided_ok (h : s.Own j spec x none d) (htidy : Tidy d j) (hcreated : Created d j path)
    (hcommitted : Committed d j path destination) (hd : .finalizing j ∈ d)
    (hspec : ∀ destination', spec.StagesTo destination' → destination' = destination) :
    s.Decided j spec x (.ok ()) := by
  refine ⟨d, h, htidy, fun _ => .inr hd, fun _ destination' hstages => ?_⟩
  obtain rfl := hspec destination' hstages
  exact ⟨path, hcreated, hcommitted⟩

/-- The guard is dropped in any case. -/
theorem safeJob_withStagingGuard {body : Transfer Unit} (h : s.Own j spec x none [])
    (hspec : ∀ destination', spec.StagesTo destination' → destination' = destination)
    (hbody : ∀ s, s.Own j spec x (some ⟨path, true, false⟩) [] →
      SafePart j calls spec x (fun _ s => s.Succeeded j spec x path destination) body s) :
    SafeJob j calls spec x (withStagingGuard j path body) s := by
  refine safeOr_liftThen (safe_setGuard h) fun _ s hown => ?_
  refine safeAsync_always (SafeAsync.mono (hbody s hown) (fun _ s hs => ?_) (fun e s hs => ?_)
    fun s hs => safe_dropGuard_dropped hs)
  · obtain ⟨d, hown, htidy, hcreated, hcommitted, hd⟩ := hs
    refine Safe.mono (safe_dropGuard hown nofun) fun _ s hown => ?_
    exact hown.decided_ok htidy hcreated hcommitted hd hspec
  · obtain ⟨g, d, hown, hg, htidy, hd⟩ := hs
    exact Safe.mono (safe_dropGuard hown hg) fun _ s hown => hown.decided_error htidy hd

/-- What a job does without a staging file. -/
theorem undisturbed_local : Undisturbed (protocol calls) (.job j) (fun s => s.Own j spec x none d)
    (fun s => s.Over j spec x) :=
  undisturbed_own fun _ h hdropped => ⟨h.standing, .inr hdropped⟩

variable (j spec x) in
omit [Platform] in
theorem decided_local (hd : Local d) (e : AppError) (s : TransferManager)
    (h : s.Own j spec x none d) : s.Decided j spec x (.error e) :=
  h.decided_error hd.tidy fun _ => hd.unapplied

theorem preserves_askLocal {α : Type} {A D : TransferManager → Prop} :
    (protocol calls).Preserves (.job j) A D (askLocal α) :=
  preserves_ask.bind fun _ => preserves_ofExcept

theorem safeJob_runUpload {source : LocalItem} (h : s.Own j spec x none [])
    (haction : action ≠ .skip)
    (hspec : ∀ destination', spec.StagesTo destination' → destination' = destination) :
    SafeJob j calls spec x (runUpload j client source destination action) s := by
  have hF := decided_local j spec x local_nil
  refine preserves_askLocal.andThen h hF fun _ s hown => ?_
  refine preserves_ask.andThen hown hF fun cloned s hown => ?_
  refine preserves_ensure.andThen hown hF fun _ s hown => ?_
  refine (preserves_awaitOrDrop undisturbed_local).andThen hown hF fun atStart s hown => ?_
  refine preserves_ensure.andThen hown hF fun _ s hown => ?_
  refine preserves_ofExcept.andThen hown hF fun staging s hown => ?_
  exact safeJob_withStagingGuard hown hspec fun s hown => safePart_uploadVia haction hown

theorem safeJob_runEditorSave {bytes : List UInt8} (h : s.Own j spec x none [])
    (hspec : ∀ destination', spec.StagesTo destination' → destination' = destination) :
    SafeJob j calls spec x (runEditorSave j client bytes expected originalDigest destination) s := by
  have hF := decided_local j spec x local_nil
  refine (preserves_editorRevision undisturbed_local destination).andThen h hF
    fun revision s hown => ?_
  refine preserves_ensure.andThen hown hF fun _ s hown => ?_
  refine (preserves_readEditorBytes undisturbed_local client destination).andThen hown hF
    fun contents s hown => ?_
  refine preserves_ensure.andThen hown hF fun _ s hown => ?_
  refine preserves_ofExcept.andThen hown hF fun staging s hown => ?_
  exact safeJob_withStagingGuard hown hspec fun s hown => safePart_saveVia hown

omit [Platform] in
/-- The job has started to be finalized, and needs no staging file. -/
theorem Own.decided_download (hspec : ∀ destination, ¬spec.StagesTo destination) (hd : Local d)
    (hfinalizing : .finalizing j ∈ d) (h : s.Own j spec x none d) : s.Decided j spec x (.ok ()) :=
  ⟨d, h, hd.tidy, fun _ => .inr hfinalizing, fun _ destination hstages =>
    absurd hstages (hspec destination)⟩

/-- The end of a download: the local file is put at its destination. -/
theorem safeJob_persist {action : DestinationAction LocalIdentity}
    (h : s.Own j spec x none [.finalizing j]) (hspec : ∀ destination, ¬spec.StagesTo destination) :
    SafeJob j calls spec x (do
      askLocal Unit
      let current ← askLocal (Option LocalIdentity)
      .ensure (destinationMatches action current = true)
        (.new .conflict "The local destination changed after approval.")
      match action with
      | .replaceExisting _ =>
        .lift (noteCommit j .persist)
        let persisted ← .ask Bool
        .ensure (persisted = true)
          (.new .outcomeUnknown "The local Replace result could not be confirmed.")
      | .createNew =>
        .lift (noteCommit j .persist)
        let persisted ← .ask Bool
        .ensure (persisted = true)
          (.new .conflict "The local destination appeared before finalization.")
      | .skip => return ()) s := by
  have hlocal : Local [.finalizing j] := local_singleton fun _ => nofun
  have hlocal' : Local [.finalizing j, .commit j .persist] :=
    List.forall_mem_cons.2 ⟨fun _ => nofun, local_singleton fun _ => nofun⟩
  have hF := decided_local j spec x hlocal
  have hcommit : ∀ (e : AppError) (s : TransferManager), s.Own j spec x none [.finalizing j] →
      SafeJob j calls spec x (do
        .lift (noteCommit j .persist)
        let persisted ← .ask Bool
        .ensure (persisted = true) e) s := by
    intro e s hown
    refine safeOr_liftThen (safe_noteCommit hown (List.mem_singleton_self _))
      fun _ s hown => ?_
    refine safeOr_bind.2 (safeOr_ask fun persisted => safeOr_ensure (fun _ => ?_) fun _ => ?_)
    · exact hown.decided_download hspec hlocal' List.mem_cons_self
    · exact decided_local j spec x hlocal' e s hown
  refine preserves_askLocal.andThen h hF fun _ s hown => ?_
  refine preserves_askLocal.andThen hown hF fun current s hown => ?_
  refine preserves_ensure.andThen hown hF fun _ s hown => ?_
  cases action with
  | createNew => exact hcommit _ s hown
  | replaceExisting expected => exact hcommit _ s hown
  | skip => exact hown.decided_download hspec hlocal (List.mem_singleton_self _)

theorem safeJob_runDownload {source : RemoteSource}
    {action : DestinationAction LocalIdentity} (h : s.Own j spec x none [])
    (hspec : ∀ destination, ¬spec.StagesTo destination) :
    SafeJob j calls spec x (runDownload j client source action) s := by
  have hF := decided_local j spec x local_nil
  refine (preserves_identity undisturbed_local source.path).andThen h hF
    fun before s hown => ?_
  refine preserves_ensure.andThen hown hF fun _ s hown => ?_
  refine preserves_askLocal.andThen hown hF fun _ s hown => ?_
  refine preserves_ask.andThen hown hF fun created s hown => ?_
  refine preserves_ensure.andThen hown hF fun _ s hown => ?_
  refine safeOr_liftThen (safe_setState hown (.inr rfl) List.not_mem_nil)
    fun _ s hown => ?_
  refine (preserves_download undisturbed_local (fun _ _ => safe_progress) client
    source.path).attemptThen hown fun result s hown => ?_
  cases result with
  | error e =>
    refine safeOr_bind.2 (safeOr_read (stable_own j spec x none []) hown .refl fun s hown _ => ?_)
    split_ifs
    · exact safeOr_bind.2 (hF _ s hown)
    · exact safeOr_bind.2 (hF _ s hown)
  | ok bytes =>
    refine safeOr_bind.2 (safeOr_pure.2 (preserves_ensure.andThen hown hF fun _ s hown => ?_))
    refine (preserves_identity undisturbed_local source.path).andThen hown hF
      fun after s hown => ?_
    refine preserves_ensure.andThen hown hF fun _ s hown => ?_
    refine (preserves_awaitOrDrop undisturbed_local).andThen hown hF fun synced s hown => ?_
    refine preserves_ensure.andThen hown hF fun _ s hown => ?_
    refine safeOr_bind.2 (safeOr_read (stable_own j spec x none []) hown .refl fun s hown _ => ?_)
    refine preserves_ensure.andThen hown hF fun _ s hown => ?_
    refine SafeOr.bind (SafeAsync.mono (safeAsync_enterFinalizing hown) (fun _ _ h => h) hF
      fun _ h => h) fun _ s hown => safeJob_persist hown hspec

theorem safeJob_runTransfer (h : s.Own j spec x none []) :
    SafeJob j calls spec x (runTransfer j spec) s := by
  rw [runTransfer]
  split_ifs with hskips
  · refine ⟨[], h, tidy_nil, fun _ => .inl hskips, fun _ destination hstages => ?_⟩
    exact absurd hskips hstages.1
  · split
    · next hdestination => exact safeJob_runEditorSave h (JobSpec.StagesTo.unique hdestination)
    · next hdestination =>
      refine safeJob_runUpload h (fun haction => hskips ?_) (JobSpec.StagesTo.unique hdestination)
      rw [JobSpec.Skips, hdestination]
      exact haction
    · next hsource _ =>
      exact safeJob_runDownload h fun destination hstages => hstages.2.2 _ hsource
    · exact decided_local j spec x local_nil _ s h

end TransferManager

end NexusOps.Sftp
