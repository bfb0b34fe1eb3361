import NexusOps.Sftp.ClientSafety
import NexusOps.Sftp.TransferScheduler

/-!
# What the tasks of a transfer know

Between two of its sections, a task that works on a job knows where the job stands, what
guards its staging file, and its *deeds* (`deeds`): what has been logged about its staging
file, its commit and its cleanup. Others do not change this (`stable_own`,
`stable_handed`), and what a job must have done to end in some state can be read off its
deeds (`Ending.of_deeds`).
-/

namespace NexusOps.Sftp

open Concurrency Protocol Function TransferEvent

/-! ## Deeds -/

/-- The event is about the staging file of a job, its commit or its cleanup. -/
def TransferEvent.notable : TransferEvent → Bool
  | sftp e => e.notable
  | finalizing _ => true
  | commit _ _ => true
  | unconfirmed _ => true
  | _ => false

/-- What has been logged about the staging file of a job, its commit and its cleanup. -/
def deeds (j : TransferJobId) (log : List TransferEvent) : List TransferEvent :=
  log.filter fun e => decide (e.task.jobId = some j) && e.notable

variable {r : SftpRequest}

section

variable {log es : List TransferEvent} {j : TransferJobId} {e : TransferEvent} {path : String}

theorem mem_deeds : e ∈ deeds j log ↔ e ∈ log ∧ e.task.jobId = some j ∧ e.notable = true := by
  simp [deeds]

theorem deeds_nil : deeds j [] = [] := rfl

theorem deeds_append : deeds j (log ++ es) = deeds j log ++ deeds j es := List.filter_append ..

theorem deeds_eq_nil (h : ∀ e ∈ es, e.task.jobId ≠ some j) : deeds j es = [] :=
  List.filter_eq_nil_iff.2 fun e he => by simp [h e he]

theorem deeds_singleton (hj : e.task.jobId = some j) (he : e.notable = true) : deeds j [e] = [e] := by
  simp [deeds, hj, he]

theorem deeds_singleton_of_not (he : e.notable = false) : deeds j [e] = [] := by
  simp [deeds, he]

theorem Created.of_deeds (h : Created (deeds j log) j path) : Created log j path := by
  obtain ⟨permissions, a, handle, he, ha⟩ := h
  exact ⟨permissions, a, handle, (mem_deeds.1 he).1, ha⟩

theorem created_deeds : Created (deeds j log) j path ↔ Created log j path := by
  refine ⟨.of_deeds, fun ⟨permissions, a, handle, he, ha⟩ => ?_⟩
  exact ⟨permissions, a, handle, mem_deeds.2 ⟨he, rfl, rfl⟩, ha⟩

theorem Removed.of_deeds (h : Removed (deeds j log) j path) : Removed log j path := by
  obtain ⟨i, cleanup, he, hi⟩ := h
  exact ⟨i, cleanup, (mem_deeds.1 he).1, hi⟩

theorem Unconfirmed.of_deeds (h : Unconfirmed (deeds j log) j) : Unconfirmed log j := by
  obtain ⟨i, he, hi⟩ := h
  exact ⟨i, (mem_deeds.1 he).1, hi⟩

theorem Committed.mono {destination : String} (h : Committed es j path destination)
    (hsub : ∀ e ∈ es, e ∈ log) : Committed log j path destination := by
  rcases h with ⟨a, he, ha⟩ | ⟨a, a', he, ha, he', ha'⟩
  · exact .inl ⟨a, hsub _ he, ha⟩
  · exact .inr ⟨a, a', hsub _ he, ha, hsub _ he', ha'⟩

theorem Committed.of_deeds {destination : String}
    (h : Committed (deeds j log) j path destination) : Committed log j path destination :=
  h.mono fun _ he => (mem_deeds.1 he).1

theorem Settled.of_deeds {p : SftpRequest → Prop} (hp : ∀ r, p r → r.notable = true)
    (h : Settled (deeds j log) j p) : Settled log j p := by
  refine Followed.of_filter h fun e _ he => ?_
  obtain ⟨i, r, rfl, hi, hr⟩ := he
  simp [TransferEvent.task, SftpEvent.task, hi, TransferEvent.notable, SftpEvent.notable, hp r hr]

theorem notable_of_removes (h : r.Removes) : r.notable = true := by
  cases r <;> first | rfl | exact h.elim

theorem notable_of_commits (h : r.Commits) : r.notable = true := by
  cases r <;> first | rfl | exact h.elim

theorem Unapplied.of_deeds (h : Unapplied (deeds j log) j) : Unapplied log j := by
  refine ⟨.of_deeds (fun _ => notable_of_commits) h.settled, fun i r a hi hr he => ?_⟩
  exact h.unapplied i r a hi hr (mem_deeds.2 ⟨he, hi, notable_of_commits hr⟩)

theorem Tidy.of_deeds (h : Tidy (deeds j log) j) : Tidy log j := by
  refine ⟨.of_deeds (fun _ => notable_of_removes) h.settled, fun path hpath => ?_⟩
  refine (h.staged path (created_deeds.2 hpath)).imp (fun ⟨d, hd⟩ => ⟨d, hd.of_deeds⟩) ?_
  exact fun h => h.imp .of_deeds .of_deeds

/-- What a job must have done to end can be read off its deeds. -/
theorem Ending.of_deeds {i : TransferTask} {spec : JobSpec} {state : TransferState}
    (h : Ending (deeds j log) j i spec state) : Ending log j i spec state := by
  refine ⟨h.tidy.of_deeds, fun hstate => ?_, fun hi destination hspec => ?_⟩
  · exact (h.completed hstate).imp_right fun he => (mem_deeds.1 he).1
  · have hhonest := h.honest hi destination hspec
    cases state <;> first
      | exact hhonest.of_deeds
      | exact trivial
      | obtain ⟨path, hcreated, hcommitted⟩ := hhonest
        exact ⟨path, hcreated.of_deeds, hcommitted.of_deeds⟩

/-- Requests that are not notable rest on nothing. -/
theorem SftpRule.of_not {e : SftpEvent TransferTask} (he : e.notable = false) :
    SftpRule log j e := by
  unfold SftpRule
  split
  · nomatch he
  · nomatch he
  · nomatch he
  · nomatch he
  · trivial

theorem SftpRule.of_deeds {e : SftpEvent TransferTask} (h : SftpRule (deeds j log) j e) :
    SftpRule log j e := by
  unfold SftpRule at h ⊢
  split
  · exact Created.of_deeds h
  · exact (mem_deeds.1 h).1
  · exact (mem_deeds.1 h).1
  · obtain ⟨a, he, ha⟩ := h
    exact ⟨a, (mem_deeds.1 he).1, ha⟩
  · trivial

end

namespace TransferManager

variable [Platform] {calls : TaskId → TransferCall} {s s' : TransferManager} {i : TransferTask}
  {j : TransferJobId} {spec : JobSpec} {x : Standing} {g : Option RemoteStagingGuard}
  {d : List TransferEvent} {path : String}

/-! ## What is known between two sections -/

omit [Platform] in
/-- What has been logged stays so. -/
theorem Guarantee.mem {e : TransferEvent} (h : Guarantee calls i s s') (he : e ∈ s.log) :
    e ∈ s'.log := by
  obtain ⟨es, hlog, -⟩ := h.log
  exact hlog ▸ List.mem_append_left es he

/-- A step of another task. -/
theorem Guarantee.of_interferes (h : (protocol calls).Interferes i s s') :
    ∃ i', i' ≠ i ∧ Guarantee calls i' s s' :=
  h.2.2.elim False.elim id

theorem stable_mem (e : TransferEvent) : (protocol calls).Stable i fun s => e ∈ s.log := by
  intro s s' h he
  obtain ⟨_, -, hg⟩ := Guarantee.of_interferes h
  exact hg.mem he

theorem stable_finished (j : TransferJobId) :
    (protocol calls).Stable i fun s => Finished s.log j := by
  rintro s s' h ⟨i', state, he, hi'⟩
  exact ⟨i', state, stable_mem _ s s' h he, hi'⟩

variable {i' : TransferTask}

omit [Platform] in
/-- What is logged by another task than the one that works on the job is not about it. -/
theorem Guarantee.deeds (h : Guarantee calls i' s s')
    (hother : i'.jobId = some j → ¬s.Owns i') : deeds j s'.log = deeds j s.log := by
  obtain ⟨es, hlog, hes⟩ := h.log
  have hnil : NexusOps.Sftp.deeds j es = [] := by
    refine deeds_eq_nil fun e he hj => ?_
    obtain ⟨rfl, howns⟩ := hes e he
    exact hother hj howns
  rw [hlog, deeds_append, hnil, List.append_nil]

omit [Platform] in
theorem Guarantee.active (h : Guarantee calls i' s s')
    (hother : i'.jobId = some j → ¬s.Owns i') (hactive : s.Unfinished j) : s'.Unfinished j :=
  (h.unfinished j hactive).resolve_right fun ⟨hj, howns⟩ => hother hj howns

omit [Platform] in
/-- As long as there is no cleanup, only the job itself works on the job. -/
theorem not_owns_of_job (h : s.cleanups j = none) (hi' : i' ≠ .job j)
    (hj : i'.jobId = some j) : ¬s.Owns i' := by
  cases i' with
  | call t => nomatch hj
  | job j' => exact absurd (congrArg TransferTask.job (Option.some.inj hj)) hi'
  | cleanup j' =>
    obtain rfl : j' = j := Option.some.inj hj
    exact fun howns => howns h

omit [Platform] in
/-- Once there is a cleanup, only the cleanup works on the job. -/
theorem not_owns_of_cleanup (h : s.cleanups j ≠ none) (hi' : i' ≠ .cleanup j)
    (hj : i'.jobId = some j) : ¬s.Owns i' := by
  cases i' with
  | call t => nomatch hj
  | job j' =>
    obtain rfl : j' = j := Option.some.inj hj
    exact fun howns => h howns.2
  | cleanup j' => exact absurd (congrArg TransferTask.cleanup (Option.some.inj hj)) hi'

/-- Where a job stands is up to itself. -/
theorem stable_at (j : TransferJobId) (spec : JobSpec) (x : Standing) :
    (protocol calls).Stable (.job j) fun s => s.At j spec x := by
  intro s s' h hat
  obtain ⟨i', hi', hg⟩ := Guarantee.of_interferes h
  have hsame := hg.same j hi'
  refine ⟨?_, hsame.done.trans hat.done, hsame.place.trans hat.place, hsame.global.trans hat.global,
    fun host => (hsame.hosts host).trans (hat.hosts host)⟩
  rcases hg.spawned j with heq | ⟨hnone, -⟩
  · exact heq.trans hat.spawned
  · nomatch hnone.symm.trans hat.spawned

/-- A job that works: where it stands, what guards its staging file, and its deeds. -/
structure Own (s : TransferManager) (j : TransferJobId) (spec : JobSpec) (x : Standing)
    (g : Option RemoteStagingGuard) (d : List TransferEvent) : Prop where
  standing : s.At j spec x
  cleanups : s.cleanups j = none
  unfinished : s.Unfinished j
  guards : s.guards j = g
  deeds : deeds j s.log = d

omit [Platform] in
theorem Own.owns (h : s.Own j spec x g d) : s.Owns (.job j) :=
  ⟨by rw [h.standing.spawned]; exact nofun, h.cleanups⟩

/-- Nobody else works on the job. -/
theorem stable_own (j : TransferJobId) (spec : JobSpec) (x : Standing)
    (g : Option RemoteStagingGuard) (d : List TransferEvent) :
    (protocol calls).Stable (.job j) fun s => s.Own j spec x g d := by
  intro s s' h hown
  have hat := stable_at j spec x s s' h hown.standing
  obtain ⟨i', hi', hg⟩ := Guarantee.of_interferes h
  have hother : i'.jobId = some j → ¬s.Owns i' := not_owns_of_job hown.cleanups hi'
  refine ⟨hat, ?_, hg.active hother hown.unfinished, (hg.same j hi').guards.trans hown.guards,
    (hg.deeds hother).trans hown.deeds⟩
  rcases hg.cleanups j with heq | ⟨-, hjob, -⟩
  · exact heq.trans hown.cleanups
  · exact absurd hjob hi'

/-- A cleanup that works: the path of the staging file it was handed, and the deeds of the
    job. -/
structure Handed (s : TransferManager) (j : TransferJobId) (path : String)
    (d : List TransferEvent) : Prop where
  cleanups : s.cleanups j = some path
  unfinished : s.Unfinished j
  deeds : deeds j s.log = d

omit [Platform] in
theorem Handed.owns (h : s.Handed j path d) : s.Owns (.cleanup j) := by
  change s.cleanups j ≠ none
  rw [h.cleanups]
  exact nofun

theorem stable_handed (j : TransferJobId) (path : String) (d : List TransferEvent) :
    (protocol calls).Stable (.cleanup j) fun s => s.Handed j path d := by
  intro s s' h hhanded
  obtain ⟨i', hi', hg⟩ := Guarantee.of_interferes h
  have hnone : s.cleanups j ≠ none := hhanded.owns
  have hother : i'.jobId = some j → ¬s.Owns i' := not_owns_of_cleanup hnone hi'
  refine ⟨?_, hg.active hother hhanded.unfinished, (hg.deeds hother).trans hhanded.deeds⟩
  rcases hg.cleanups j with heq | ⟨-, rfl, howns⟩
  · exact heq.trans hhanded.cleanups
  · exact absurd howns.2 hnone

/-- A job that has not been started. -/
theorem stable_waiting (j : TransferJobId) :
    (protocol calls).Stable (.job j) fun s => s.Waiting j := by
  intro s s' h hw
  obtain ⟨i', hi', hg⟩ := Guarantee.of_interferes h
  have hsame := hg.same j hi'
  have hother : i'.jobId = some j → ¬s.Owns i' := not_owns_of_job hw.cleanups hi'
  refine ⟨fun hspawned => ?_, ?_, ?_, hsame.place.trans hw.place, fun hj => hw.global (hsame.global.1 hj),
    fun host hj => hw.hosts host ((hsame.hosts host).1 hj), hsame.done.trans hw.done,
    hsame.guards.trans hw.guards⟩
  · rcases hg.spawned j with heq | ⟨-, hactive, -⟩
    · exact hg.active hother (hw.unfinished (heq ▸ hspawned))
    · exact hactive
  · rcases hg.cleanups j with heq | ⟨-, hjob, -⟩
    · exact heq.trans hw.cleanups
    · exact absurd hjob hi'
  · obtain ⟨es, hlog, hes⟩ := hg.log
    intro e he hj
    rw [hlog] at he
    rcases List.mem_append.1 he with he | he
    · exact hw.silent e he hj
    · obtain ⟨rfl, howns⟩ := hes e he
      exact hother hj howns

/-- A cleanup that has not been started. -/
theorem stable_idleCleanup (j : TransferJobId) :
    (protocol calls).Stable (.cleanup j) fun s => s.cleanups j ≠ none → s.Unfinished j := by
  intro s s' h hidle hsome
  obtain ⟨i', hi', hg⟩ := Guarantee.of_interferes h
  rcases hg.cleanups j with heq | ⟨hactive, -⟩
  · rw [heq] at hsome
    obtain ⟨path, hpath⟩ := Option.ne_none_iff_exists'.1 hsome
    exact (stable_handed j path _ s s' h ⟨hpath, hidle hsome, rfl⟩).unfinished
  · exact hactive

/-! ## Sections of a task that works on a job -/

variable (calls i j) in
/-- What a task knows that works on the job, depending on the deeds of the job. -/
structure Works (A : List TransferEvent → TransferManager → Prop) : Prop where
  jobId : i.jobId = some j
  stable : ∀ d, (protocol calls).Stable i (A d)
  owns : ∀ d s, A d s → s.Owns i
  unfinished : ∀ d s, A d s → s.Unfinished j
  deeds : ∀ d s, A d s → deeds j s.log = d
  /-- It depends on nothing else that is changed by working on the job. -/
  keep : ∀ d s s' es, A d s → s'.scheduler = s.scheduler → s'.done = s.done →
    s'.spawned = s.spawned → s'.cleanups = s.cleanups → s'.guards = s.guards → s'.Unfinished j →
      s'.log = s.log ++ es → A (d ++ NexusOps.Sftp.deeds j es) s'

omit [Platform] in
theorem At.keep (h : s.At j spec x) (hscheduler : s'.scheduler = s.scheduler)
    (hdone : s'.done = s.done) (hspawned : s'.spawned = s.spawned) : s'.At j spec x := by
  obtain ⟨h₁, h₂, h₃, h₄, h₅⟩ := h
  refine ⟨?_, ?_, ?_, ?_, ?_⟩
  · rw [hspawned, h₁]
  · rw [hdone, h₂]
  · rw [hscheduler, h₃]
  · rw [hscheduler, h₄]
  · rwa [hscheduler]

omit [Platform] in
/-- A section of the job that leaves where it stands and its guard as they are. -/
theorem Own.keep {es : List TransferEvent} (h : s.Own j spec x g d)
    (hscheduler : s'.scheduler = s.scheduler) (hdone : s'.done = s.done)
    (hspawned : s'.spawned = s.spawned) (hcleanups : s'.cleanups = s.cleanups)
    (hguards : s'.guards = s.guards) (hactive : s'.Unfinished j) (hlog : s'.log = s.log ++ es) :
    s'.Own j spec x g (d ++ NexusOps.Sftp.deeds j es) := by
  refine ⟨h.standing.keep hscheduler hdone hspawned, ?_, hactive, ?_, ?_⟩
  · rw [hcleanups, h.cleanups]
  · rw [hguards, h.guards]
  · rw [hlog, deeds_append, h.deeds]

theorem works_own (j : TransferJobId) (spec : JobSpec) (x : Standing)
    (g : Option RemoteStagingGuard) :
    Works calls (.job j) j fun d s => s.Own j spec x g d where
  jobId := rfl
  stable := stable_own j spec x g
  owns _ _ h := h.owns
  unfinished _ _ h := h.unfinished
  deeds _ _ h := h.deeds
  keep _ _ _ _ h := h.keep

theorem works_handed (j : TransferJobId) (path : String) :
    Works calls (.cleanup j) j fun d s => s.Handed j path d where
  jobId := rfl
  stable := stable_handed j path
  owns _ _ h := h.owns
  unfinished _ _ h := h.unfinished
  deeds _ _ h := h.deeds
  keep d s s' es h _ _ _ hcleanups _ hactive hlog :=
    ⟨by rw [hcleanups, h.cleanups], hactive, by rw [hlog, deeds_append, h.deeds]⟩

variable {D : TransferManager → Prop} {next : TransferState}

section

variable {A : List TransferEvent → TransferManager → Prop} (hA : Works calls i j A)

include hA

/-- A request, an answer, or what came of it. -/
theorem safe_note {e : SftpEvent TransferTask} (h : A d s) (htask : e.task = i)
    (hrule : SftpRule d j e) :
    (protocol calls).Safe i (fun _ => A (d ++ deeds j [sftp e])) (note e) s := by
  refine safe_modify (k := .ret) (hA.stable d) h fun s₁ h₁ hi₁ => ?_
  have hdeeds := hA.deeds d s₁ h₁
  subst htask
  obtain ⟨hinv, hg⟩ : Allowed calls e.task s₁ _ := step_sftp hi₁ hA.jobId (hA.owns d s₁ h₁)
    (hA.unfinished d s₁ h₁) (hdeeds.symm ▸ hrule).of_deeds
  exact ⟨hinv, hg, hA.keep d s₁ _ [.sftp e] h₁ rfl rfl rfl rfl rfl (hA.unfinished d s₁ h₁) rfl⟩

/-- A request that is notable, and its answer. -/
theorem safeAsync_request {Q : Reply → TransferManager → Prop}
    {F : AppError → TransferManager → Prop} (h : A d s)
    (hr : r.notable = true) (hrule : SftpRule d j (.request i r))
    (hQ : ∀ a s, A (d ++ [sftp (.request i r), sftp (.answered i r a)]) s → Q a.reply s)
    (hD : ∀ s, A (d ++ [sftp (.request i r)]) s → (protocol calls).Safe i (fun _ => D)
      (note (.dropped i)) s) : (protocol calls).SafeAsync i Q F D (request i r) s := by
  refine safeOr_liftThen (safe_note hA h rfl hrule) fun _ s h => ?_
  rw [deeds_singleton (e := .sftp (.request i r)) hA.jobId hr] at h
  refine safeOr_bind.2 (safeAsync_await (fun a => ?_) (hD s h))
  refine safeOr_liftThen (safe_note hA h rfl trivial) fun _ s h => ?_
  rw [deeds_singleton (e := .sftp (.answered i r a)) hA.jobId hr, List.append_assoc] at h
  exact hQ a s h

/-- The job is flagged. -/
theorem safe_markUnconfirmed (h : A d s) :
    (protocol calls).Safe i (fun _ => A (d ++ [unconfirmed i])) (markUnconfirmed i j) s := by
  refine safe_modify (k := .ret) (hA.stable d) h fun s₁ h₁ hi₁ => ?_
  have hactive := hA.unfinished d s₁ h₁
  obtain ⟨hinv, hg⟩ : Allowed calls i s₁ _ :=
    step_markUnconfirmed hi₁ hA.jobId (hA.owns d s₁ h₁) hactive
  refine ⟨hinv, hg, ?_⟩
  have hactive' : Unfinished { s₁ with
      state := s₁.state.markUnconfirmed j, log := s₁.log ++ [unconfirmed i] } j := by
    obtain ⟨job, hget, hstate⟩ := hactive
    exact ⟨_, ManagerState.get_update_self hget, hstate⟩
  have hkeep := hA.keep d s₁ { s₁ with
    state := s₁.state.markUnconfirmed j, log := s₁.log ++ [unconfirmed i] } [unconfirmed i] h₁ rfl
    rfl rfl rfl rfl hactive' rfl
  rwa [deeds_singleton (e := .unconfirmed i) hA.jobId rfl] at hkeep

/-- The staging file is removed, if the server has confirmed that it created it. -/
theorem safeAsync_removeOwnedStaging {Q : StagingCleanup → TransferManager → Prop}
    {F : AppError → TransferManager → Prop} (h : A d s) (hcreated : Created d j path)
    (hQ : ∀ a cleanup s, A (d ++ [sftp (.request i (.remove path)),
      sftp (.answered i (.remove path) a), sftp (.removed i path cleanup)]) s → Q cleanup s)
    (hF : ∀ a e s, A (d ++ [sftp (.request i (.remove path)),
      sftp (.answered i (.remove path) a)]) s → F e s)
    (hD : ∀ s, A (d ++ [sftp (.request i (.remove path))]) s → (protocol calls).Safe i (fun _ => D)
      (note (.dropped i)) s) :
    (protocol calls).SafeAsync i Q F D (SftpClient.removeOwnedStaging i path) s := by
  have hremoved : ∀ a cleanup s, A (d ++ [sftp (.request i (.remove path)),
      sftp (.answered i (.remove path) a)]) s → a.reply = .packet (.status cleanup.status) →
      (protocol calls).SafeAsync i Q F D (do
        .lift (note (.removed i path cleanup))
        return cleanup) s := by
    intro a cleanup s h hreply
    refine safeOr_liftThen (safe_note hA h rfl ?_) fun _ s h => ?_
    · exact ⟨a, by simp, hreply⟩
    · rw [deeds_singleton (e := .sftp (.removed i path cleanup)) hA.jobId rfl, List.append_assoc] at h
      exact hQ a cleanup s h
  refine safeOr_bind.2 (safeAsync_request hA h rfl hcreated (fun a s h => ?_) hD)
  split
  · next hstatus => exact hremoved a .removed s h (Reply.of_intoStatus_ok hstatus).2
  · next hstatus => nomatch (Reply.of_intoStatus_ok hstatus).1
  · next hstatus => exact hremoved a .alreadyAbsent s h (Reply.of_intoStatus_status hstatus).1
  · exact hF a _ s h
  · exact hF a _ s h
  · exact hF a _ s h

variable {Q : TransferManager → Prop} (h : A d s) (hterminal : terminal next = true)
  (hending : ∀ s : TransferManager, A d s → s.Inv →
    ∃ spec, Admitted s.log j spec ∧ Ending d j i spec next)
  (hQ : ∀ s s' : TransferManager, A d s → s'.scheduler = s.scheduler → s'.done = s.done →
    s'.spawned = s.spawned → Finished s'.log j → Q s')

include h hterminal hending hQ

/-- The job ends, having left nothing behind. -/
theorem safe_end {f : JobRecord → JobRecord} {u : ManagerState → ManagerState}
    (hu : ∀ m : ManagerState, ∀ job, m.jobs.get j = some job → u m = (m.update j f).trimHistory)
    (hsession : ∀ job, (f job).view.session = job.view.session)
    (hflag : ∀ job, (f job).cleanupUnconfirmed = job.cleanupUnconfirmed)
    (hspec : ∀ job, (f job).activeSpec = none) (hstate : ∀ job, (f job).view.state = next) :
    (protocol calls).Safe i (fun _ => Q) (.modify fun s =>
      { s with state := u s.state, log := s.log ++ s.finishedEvents i j next }) s := by
  refine safe_modify (k := .ret) (hA.stable d) h fun s₁ h₁ hi₁ => ?_
  obtain ⟨job, hget, hactive⟩ := hA.unfinished d s₁ h₁
  obtain ⟨spec, hadmitted, hend⟩ := hending s₁ h₁ hi₁
  have hevents : s₁.finishedEvents i j next = [.finished i next] := by
    rw [finishedEvents, hterminal, hget]
    rfl
  rw [hu s₁.state job hget, hevents]
  obtain ⟨hinv, hg⟩ : Allowed calls i s₁ _ := step_finish hi₁ hA.jobId (hA.owns d s₁ h₁) hget hactive
    (hsession job) (hflag job) (hspec job) (hstate job) hterminal hadmitted
    ((hA.deeds d s₁ h₁).symm ▸ hend).of_deeds
  refine ⟨hinv, hg, hQ s₁ _ h₁ rfl rfl rfl ⟨i, next, ?_, hA.jobId⟩⟩
  exact List.mem_concat_self

theorem safe_setState_terminal :
    (protocol calls).Safe i (fun _ => Q) (setState i j next) s := by
  have hset : ∀ job, JobRecord.setState next job = { job with
      view := { job.view with state := next, retryable := false }, activeSpec := none } := by
    intro job
    rw [JobRecord.setState, if_pos hterminal]
  refine safe_end hA h hterminal hending hQ (f := JobRecord.setState next)
    (u := fun m => m.setState j next) (fun m job hget => ?_) (fun job => ?_) (fun job => ?_)
    (fun job => ?_) fun job => ?_
  · rw [ManagerState.setState, hget]
    simp only [hterminal, if_true]
  · rw [hset]
    rfl
  · rw [hset]
  · rw [hset]
  · rw [hset]

theorem safe_finishWith {error : AppError} :
    (protocol calls).Safe i (fun _ => Q) (.modify fun s => { s with
      state := s.state.finishWith next j error
      log := s.log ++ s.finishedEvents i j next }) s :=
  safe_end hA h hterminal hending hQ (f := JobRecord.finish next error)
    (u := fun m => m.finishWith next j error) (fun _ _ _ => rfl) (fun _ => rfl) (fun _ => rfl)
    (fun _ => rfl) fun _ => rfl

end

/-! ## Sections of a job -/

omit [Platform] in
theorem Own.finalizing_mem (h : s.Own j spec x g d) : .finalizing j ∈ s.log ↔ .finalizing j ∈ d := by
  rw [← h.deeds, mem_deeds]
  exact (and_iff_left ⟨rfl, rfl⟩).symm

/-- The record of the job is changed, and the job has not ended. -/
theorem safe_update {f : JobRecord → JobRecord} {p : TransferManager → TransferManager}
    (h : s.Own j spec x g d)
    (hp : ∀ s : TransferManager, ∀ job, s.state.jobs.get j = some job →
      p s = { s with state := s.state.update j f })
    (hu : ∀ s : TransferManager, ∀ job, s.Own j spec x g d → s.Inv → s.state.jobs.get j = some job →
      terminal job.view.state = false → Update (.job j) j s.log [] job (f job)) :
    (protocol calls).Safe (.job j) (fun _ s => s.Own j spec x g d) (.modify p) s := by
  refine safe_modify (k := .ret) (stable_own j spec x g d) h fun s₁ h₁ hi₁ => ?_
  obtain ⟨job, hget, hactive⟩ := h₁.unfinished
  have hupdate := hu s₁ job h₁ hi₁ hget hactive
  rw [hp s₁ job hget]
  obtain ⟨hinv, hg⟩ : Allowed calls (.job j) s₁ _ :=
    step_update hi₁ rfl h₁.owns hget hactive hupdate
  refine ⟨hinv, hg, ?_⟩
  have hactive' : terminal (f job).view.state = false := by
    by_contra hcon
    exact absurd (hupdate.ended (by simpa using hcon)) List.not_mem_nil
  have hkeep : Own { s₁ with state := s₁.state.update j f } j spec x g (d ++ deeds j []) :=
    h₁.keep rfl rfl rfl rfl rfl ⟨f job, ManagerState.get_update_self hget, hactive'⟩
      (List.append_nil _).symm
  rw [deeds_nil, List.append_nil] at hkeep
  exact hkeep

/-- The job goes on. -/
theorem safe_setState (h : s.Own j spec x g d)
    (hnext : next = .preparing ∨ next = .transferring) (hd : .finalizing j ∉ d) :
    (protocol calls).Safe (.job j) (fun _ s => s.Own j spec x g d)
      (setState (.job j) j next) s := by
  have hactive : terminal next = false := by rcases hnext with rfl | rfl <;> rfl
  have hrequested : next ≠ .cancelRequested := by rcases hnext with rfl | rfl <;> exact nofun
  refine safe_update (f := JobRecord.setState next) h (fun s job hget => ?_)
    fun s job hown hi hget _ => ?_
  · rw [finishedEvents, hactive, Bool.false_and, if_neg Bool.false_ne_true, List.append_nil,
      ManagerState.setState, hget]
    simp only [hactive, Bool.false_eq_true, if_false]
  · rw [JobRecord.setState, hactive, if_neg Bool.false_ne_true]
    exact .of_active rfl rfl rfl (.inr (.inr ⟨rfl, .inr (.inl ⟨rfl, hnext⟩)⟩)) (fun heq => absurd heq hrequested) hactive fun he =>
      absurd (hown.finalizing_mem.1 he) hd

/-- The job notes its progress. -/
theorem safe_progress {bytes : Nat} (h : s.Own j spec x g d) :
    (protocol calls).Safe (.job j) (fun _ s => s.Own j spec x g d) (progress j bytes) s := by
  refine safe_update
    (f := fun job => { job with view := { job.view with confirmedBytes := bytes } }) h
    (fun _ _ _ => rfl) fun s job hown hi hget hactive => ?_
  refine .of_active rfl rfl rfl (.inl rfl) id hactive fun he => ?_
  refine (hi.records.finalizing j job he hget).resolve_right fun hterminal => ?_
  nomatch hactive.symm.trans hterminal

/-- The job starts to be finalized, unless it was cancelled. -/
theorem safeAsync_enterFinalizing (h : s.Own j spec x g d) :
    (protocol calls).SafeAsync (.job j) (fun _ s => s.Own j spec x g (d ++ [finalizing j]))
      (fun _ s => s.Own j spec x g d) D (enterFinalizing j) s := by
  refine safeOr_act (stable_own j spec x g d) h fun s₁ r s₂ h₁ hi₁ hf => ?_
  obtain ⟨job, hget, hactive⟩ := h₁.unfinished
  rw [ManagerState.enterFinalizing, hget] at hf
  simp only at hf
  split_ifs at hf with hcancelled
  · obtain ⟨⟩ := hf
    exact ⟨hi₁, .refl s₁, h₁⟩
  · obtain ⟨⟩ := hf
    rw [not_or] at hcancelled
    obtain ⟨hinv, hg⟩ : Allowed calls (.job j) s₁ _ :=
      step_enterFinalizing hi₁ h₁.owns hget hactive (by simpa using hcancelled.1) hcancelled.2
    refine ⟨hinv, hg, ?_⟩
    have hkeep : Own { s₁ with
        state := s₁.state.update j fun job => { job with view := { job.view with state := .finalizing } }
        log := s₁.log ++ [finalizing j] } j spec x g (d ++ deeds j [finalizing j]) :=
      h₁.keep rfl rfl rfl rfl rfl ⟨_, ManagerState.get_update_self hget, rfl⟩ rfl
    rw [deeds_singleton rfl rfl] at hkeep
    exact hkeep

/-- The job is committed, after it has started to be finalized. -/
theorem safe_noteCommit {kind : CommitKind} (h : s.Own j spec x g d) (hd : .finalizing j ∈ d) :
    (protocol calls).Safe (.job j) (fun _ s => s.Own j spec x g (d ++ [commit j kind]))
      (noteCommit j kind) s := by
  refine safe_modify (k := .ret) (stable_own j spec x g d) h fun s₁ h₁ hi₁ => ?_
  obtain ⟨hinv, hg⟩ : Allowed calls (.job j) s₁ _ :=
    step_log (e := .commit j kind) hi₁ trivial id h₁.owns (h₁.finalizing_mem.2 hd)
  refine ⟨hinv, hg, ?_⟩
  have hkeep : Own { s₁ with log := s₁.log ++ [commit j kind] } j spec x g
      (d ++ deeds j [commit j kind]) := h₁.keep rfl rfl rfl rfl rfl h₁.unfinished rfl
  rw [deeds_singleton rfl rfl] at hkeep
  exact hkeep

omit [Platform] in
theorem Own.setGuard (h : s.Own j spec x g d) (g' : Option RemoteStagingGuard) :
    Own { s with guards := update s.guards j g' } j spec x g' d :=
  ⟨h.standing.keep rfl rfl rfl, h.cleanups, h.unfinished, update_self .., h.deeds⟩

/-- The job changes its guard. -/
theorem safe_setGuard {f : Option RemoteStagingGuard → Option RemoteStagingGuard}
    (h : s.Own j spec x g d) :
    (protocol calls).Safe (.job j) (fun _ s => s.Own j spec x (f g) d) (setGuard j f) s := by
  refine safe_modify (k := .ret) (stable_own j spec x g d) h fun s₁ h₁ hi₁ => ?_
  obtain ⟨hinv, hguarantee⟩ : Allowed calls (.job j) s₁ _ := step_guards hi₁ (f (s₁.guards j))
  refine ⟨hinv, hguarantee, ?_⟩
  rw [h₁.guards]
  exact h₁.setGuard (f g)

/-! ## The end of a job -/

/-- The job has ended or has been dropped, and still stands somewhere. -/
structure Over (s : TransferManager) (j : TransferJobId) (spec : JobSpec) (x : Standing) : Prop where
  standing : s.At j spec x
  ended : Finished s.log j ∨ .sftp (.dropped (.job j)) ∈ s.log

theorem stable_over (j : TransferJobId) (spec : JobSpec) (x : Standing) :
    (protocol calls).Stable (.job j) fun s => s.Over j spec x := fun s s' h hover =>
  ⟨stable_at j spec x s s' h hover.standing,
    hover.ended.imp (stable_finished j s s' h) (stable_mem _ s s' h)⟩

/-- What comes of the job. -/
def outcomeState : Except AppError Unit → TransferState
  | .ok () => .completed
  | .error e =>
    if e.code = .cancelled then .cancelled
    else if e.code = .outcomeUnknown then .outcomeUnknown
    else .failed

/-- The job ends in the state that its outcome calls for. -/
theorem safe_finish {outcome : Except AppError Unit} (h : s.Own j spec x g d)
    (hending : Ending d j (.job j) spec (outcomeState outcome)) :
    (protocol calls).Safe (.job j) (fun _ s => s.Over j spec x) (finish j outcome) s := by
  have hA : Works calls (.job j) j _ := works_own j spec x g
  have hadmitted : ∀ s : TransferManager, s.Own j spec x g d → s.Inv →
      ∃ spec, Admitted s.log j spec ∧ Ending d j (.job j) spec (outcomeState outcome) :=
    fun s hown hi => ⟨spec, hi.tickets.spawned j spec hown.standing.spawned, hending⟩
  have hover : ∀ s s' : TransferManager, s.Own j spec x g d → s'.scheduler = s.scheduler →
      s'.done = s.done → s'.spawned = s.spawned → Finished s'.log j → s'.Over j spec x := by
    intro s s' hown hscheduler hdone hspawned hfinished
    exact ⟨hown.standing.keep hscheduler hdone hspawned, .inl hfinished⟩
  cases outcome with
  | ok => exact safe_setState_terminal hA h rfl hadmitted hover
  | error e =>
    rw [finish]
    rw [outcomeState] at hadmitted
    split_ifs at hadmitted ⊢
    · exact safe_setState_terminal hA h rfl hadmitted hover
    · exact safe_finishWith hA h rfl hadmitted hover
    · exact safe_finishWith hA h rfl hadmitted hover

/-- A job that is dropped. -/
theorem safe_dropped (h : s.Own j spec x g d)
    (hD : ∀ s : TransferManager, s.Own j spec x g d → .sftp (.dropped (.job j)) ∈ s.log → D s) :
    (protocol calls).Safe (.job j) (fun _ => D) (note (.dropped (.job j))) s := by
  refine safe_modify (k := .ret) (stable_own j spec x g d) h fun s₁ h₁ hi₁ => ?_
  obtain ⟨hinv, hg⟩ : Allowed calls (.job j) s₁ _ :=
    step_sftp (e := .dropped (.job j)) hi₁ rfl h₁.owns h₁.unfinished trivial
  refine ⟨hinv, hg, hD _ ?_ List.mem_concat_self⟩
  have hkeep : Own (record s₁ (.dropped (.job j))) j spec x g
      (d ++ deeds j [sftp (.dropped (.job j))]) :=
    h₁.keep rfl rfl rfl rfl rfl h₁.unfinished rfl
  rwa [deeds_singleton_of_not rfl, List.append_nil] at hkeep

/-- What a job knows does not depend on requests that are not notable. -/
theorem undisturbed_own
    (hD : ∀ s : TransferManager, s.Own j spec x g d → .sftp (.dropped (.job j)) ∈ s.log → D s) :
    Undisturbed (protocol calls) (.job j) (fun s => s.Own j spec x g d) D where
  stable := stable_own j spec x g d
  refl := .refl
  event e htask he s h := by
    have hA : Works calls (.job j) j _ := works_own j spec x g
    have hsafe := safe_note hA h htask (.of_not he)
    rwa [deeds_singleton_of_not (e := .sftp e) he, List.append_nil] at hsafe
  dropped s h := safe_dropped h hD

/-- A job that has been dropped, with what guards its staging file. -/
def Dropped (s : TransferManager) (j : TransferJobId) (spec : JobSpec) (x : Standing) : Prop :=
  ∃ g d, s.Own j spec x g d ∧ .sftp (.dropped (.job j)) ∈ s.log ∧
    ∀ path, g = some ⟨path, true, true⟩ → ∀ path', Created d j path' ↔ path' = path

/-- The guard of a staging file that need not be removed is dropped. -/
theorem safe_dropGuard (h : s.Own j spec x g d) (hg : ∀ path, g ≠ some ⟨path, true, true⟩) :
    (protocol calls).Safe (.job j) (fun _ s => s.Own j spec x none d) (dropGuard j) s := by
  refine safe_act (stable_own j spec x g d) h fun s₁ guard s₂ h₁ hi₁ hf => ?_
  obtain ⟨⟩ := hf
  obtain ⟨hinv, hguarantee⟩ : Allowed calls (.job j) s₁ _ := step_guards hi₁ none
  refine ⟨hinv, hguarantee, ?_⟩
  have hown := h₁.setGuard none
  rw [h₁.guards]
  split
  · next _ path => exact absurd rfl (hg path)
  · exact hown

/-- A job that has been dropped drops its guard: if need be, the staging file is handed
    over to a cleanup. -/
theorem safe_dropGuard_dropped (h : s.Dropped j spec x) :
    (protocol calls).Safe (.job j) (fun _ s => s.Over j spec x) (dropGuard j) s := by
  obtain ⟨g, d, hown, hdropped, hguarded⟩ := h
  refine safe_act ((stable_own j spec x g d).and (stable_mem _)) ⟨hown, hdropped⟩
    fun s₁ guard s₂ ⟨h₁, hdropped₁⟩ hi₁ hf => ?_
  obtain ⟨⟩ := hf
  obtain ⟨hinv, hguarantee⟩ : Allowed calls (.job j) s₁ _ := step_guards hi₁ none
  refine ⟨hinv, hguarantee, ?_⟩
  have hown' := h₁.setGuard none
  rw [h₁.guards]
  split
  · refine safe_modify ((stable_own j spec x none d).and (stable_mem _)) ⟨hown', hdropped₁⟩
      fun s₂ ⟨h₂, hdropped₂⟩ hi₂ => ?_
    obtain ⟨hinv₂, hguarantee₂⟩ : Allowed calls (.job j) s₂ _ :=
      step_cleanupTasks hi₂ fun j' hj' => Finset.mem_insert.trans (or_iff_right fun heq =>
        hj' (congrArg some heq.symm))
    refine ⟨hinv₂, hguarantee₂, ?_⟩
    have hown₂ : Own { s₂ with state := { s₂.state with
        cleanupTasks := insert j s₂.state.cleanupTasks } } j spec x none d :=
      ⟨h₂.standing.keep rfl rfl rfl, h₂.cleanups, h₂.unfinished, h₂.guards, h₂.deeds⟩
    refine safe_modify (k := .ret) ((stable_own j spec x none d).and (stable_mem _))
      ⟨hown₂, hdropped₂⟩ fun s₃ ⟨h₃, hdropped₃⟩ hi₃ => ?_
    obtain ⟨hinv₃, hguarantee₃⟩ : Allowed calls (.job j) s₃ _ :=
      step_handOver hi₃ h₃.owns h₃.unfinished hdropped₃ fun path' => by
        rw [← created_deeds, h₃.deeds]
        exact hguarded _ rfl path'
    exact ⟨hinv₃, hguarantee₃, h₃.standing.keep rfl rfl rfl, .inr hdropped₃⟩
  · exact ⟨hown'.standing, .inr hdropped₁⟩

end TransferManager

end NexusOps.Sftp
