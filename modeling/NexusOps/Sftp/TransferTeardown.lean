import NexusOps.Sftp.TransferSafety

/-!
# Stopping transfers

What is seen of a job that has been asked to stop, and of a session that is closed more than
once.

* A job that has been asked to stop is seen as such until it has ended, unless its own task
  comes to one of the places where it is set to `Preparing` or `Transferring` no matter what it
  was before (`cancelRequested_iff_of_run`).
* A session without running jobs is quiesced if and only if all of its jobs have ended and none
  of them is flagged (`quiesceSession_iff_of_run`). The flag of a job is never taken back, and
  its record is kept; nothing is changed about how a job has ended (`finality_of_run`).
-/

namespace NexusOps.Sftp

open Concurrency Protocol Function TransferEvent

namespace TransferManager

/-! ## Jobs that have been asked to stop -/

/-- What is seen of the job is that it has been asked to stop, or that it has ended. -/
def Stopping (s : TransferManager) (j : TransferJobId) : Prop :=
  ∀ job, s.state.jobs.get j = some job →
    job.view.state = .cancelRequested ∨ terminal job.view.state = true

/-- The job is set to work though it has been asked to stop. -/
def Resumes (s s' : TransferManager) (j : TransferJobId) : Prop :=
  ∃ job job', s.state.jobs.get j = some job ∧ s'.state.jobs.get j = some job' ∧
    job.view.state = .cancelRequested ∧
      (job'.view.state = .preparing ∨ job'.view.state = .transferring)

/-- The job can be asked to stop after it has got its permits, and before it notes that it is
    being prepared. -/
theorem exists_run_resumed : ∃ _ : Platform, ∃ ls c c', (system cancelCalls).machine.Run ls c ∧
    (system cancelCalls).machine.step c (.run (.job ⟨1⟩)) c' ∧
    (c.shared.state.jobs.get ⟨1⟩).map (fun job => job.view.state) = some .cancelRequested ∧
    (c'.shared.state.jobs.get ⟨1⟩).map (fun job => job.view.state) = some .preparing := by
  let platform : Platform := ⟨fun _ => Vector.replicate 32 0, id⟩
  refine ⟨platform, ?_⟩
  have h : (system cancelCalls).machine.Run [] ⟨fun _ => none, .new⟩ := .nil ⟨rfl, fun _ => rfl⟩
  obtain ⟨_, h⟩ := System.run_task h (.call ⟨0⟩) rfl rfl
    (.answer (fun n => ⟨n + 1⟩ : Nat → TransferJobId) <|
    .act rfl <| .act rfl <| .act rfl <| .act rfl <| .refl)
  -- The job gets a permit of its host, and a global one.
  obtain ⟨_, h⟩ := System.run_task h (.job ⟨1⟩) rfl rfl (.answer false <| .act rfl <| .act rfl <|
    .answer (some false) <| .act rfl <| .answer (some false) <| .act rfl <| .refl)
  obtain ⟨_, h⟩ := System.run_task h (.call ⟨1⟩) rfl rfl (.act rfl <| .refl)
  have h := System.run_resume (i := .job ⟨1⟩) h rfl
  exact ⟨_, _, _, h, ⟨_, _, _, rfl, .atomic rfl, rfl⟩, by decide +kernel, by decide +kernel⟩

variable [Platform] {calls : TaskId → TransferCall} {ls : List (Label TransferTask)}
  {c c' c₁ : Config TransferTask TransferManager} {s s' : TransferManager} {i : TransferTask}
  {j : TransferJobId}

/-- A job that has ended does not start again. -/
theorem Inv.terminal_of_log (h : s.Inv) (h' : s'.Inv) {es : List TransferEvent}
    (hlog : s'.log = s.log ++ es) {job job' : JobRecord} (hget : s.state.jobs.get j = some job)
    (hget' : s'.state.jobs.get j = some job') (hterminal : terminal job.view.state = true) :
    terminal job'.view.state = true := by
  obtain ⟨i, hi, hfinished⟩ := h.records.ended j job hget hterminal
  by_contra hactive
  refine h'.records.active j ⟨job', hget', by simpa using hactive⟩ ⟨i, job.view.state, ?_, hi⟩
  exact hlog ▸ List.mem_append_left _ hfinished

omit [Platform] in
/-- What a step can do about a job that has been asked to stop. -/
theorem Shows.stopping (hshows : Shows i s s') (hj : j ∈ s.jobIds) (h : s.Stopping j)
    (hended : ∀ job job', s.state.jobs.get j = some job → s'.state.jobs.get j = some job' →
      terminal job.view.state = true → terminal job'.view.state = true) :
    s'.Stopping j ∨ i = .job j ∧ Resumes s s' j := by
  by_cases hresumes : i = .job j ∧ Resumes s s' j
  · exact .inr hresumes
  refine .inl fun job' hget' => ?_
  cases hget : s.state.jobs.get j with
  | none => exact absurd hj (hshows.added j job' hget hget').1
  | some job =>
    rcases h job hget with hstate | hterminal
    · rcases (hshows.changes j job job' hget hget').moves with heq | ⟨hcan, -⟩ | ⟨hi, hmove⟩
      · exact .inl (heq.trans hstate)
      · rw [hstate] at hcan
        nomatch hcan
      · rcases hmove with hterminal | ⟨hi, hstate'⟩ | ⟨-, hne⟩
        · exact .inr hterminal
        · exact absurd ⟨hi, job, job', hget, hget', hstate, hstate'⟩ hresumes
        · exact absurd hstate hne
    · exact .inr (hended job job' hget hget' hterminal)

/-- A job that is not set to work again is seen to stop, step by step. -/
theorem stopping_of_path {ls₁ ls₂ : List (Label TransferTask)}
    (h : (system calls).machine.Run ls c) (hj : j ∈ c.shared.jobIds) (hstop : c.shared.Stopping j)
    (hp : (system calls).machine.Path c ls₁ c₁) (hp' : (system calls).machine.Path c₁ ls₂ c')
    (hnot : ∀ ls₁ ls₂ c₁ c₂, (system calls).machine.Path c ls₁ c₁ →
      (system calls).machine.step c₁ (.run (.job j)) c₂ → (system calls).machine.Path c₂ ls₂ c' →
        ¬Resumes c₁.shared c₂.shared j) : c₁.shared.Stopping j := by
  induction hp generalizing ls with
  | nil => exact hstop
  | @cons c c₂ c₁ l ls₁ hs hrest ih =>
    have hc := (sound_protocol calls).of_run h
    have hc₂ := (sound_protocol calls).of_run (h.snoc hs)
    obtain ⟨hj₂, hstop₂⟩ : j ∈ c₂.shared.jobIds ∧ c₂.shared.Stopping j := by
      rcases guarantee_of_step hc hs with heq | ⟨i, rfl, hg⟩
      · exact heq ▸ ⟨hj, hstop⟩
      obtain ⟨es, hlog, -⟩ := hg.log
      refine ⟨hg.shows.jobIds hj, (hg.shows.stopping hj hstop ?_).resolve_right ?_⟩
      · exact fun _ _ => hc.inv.terminal_of_log hc₂.inv hlog
      · rintro ⟨rfl, hresumes⟩
        exact hnot [] _ c c₂ (.nil c) hs (hrest.append hp') hresumes
    refine ih (h.snoc hs) hj₂ hstop₂ hp' fun ls₁ ls₂ c₁ c₃ hp₁ => ?_
    exact hnot _ ls₂ c₁ c₃ (.cons hs hp₁)

section

variable {session : HostId × HostSessionId} {jobs : Set TransferJobId} {t : TaskId}

/-- The jobs of a session. -/
def jobsOf (s : TransferManager) (session : HostId × HostSessionId) : Set TransferJobId :=
  { j | ∃ job, s.state.jobs.get j = some job ∧ job.view.session = session }

/-- All jobs of the session have ended, and none of them is flagged. -/
def AllConfirmed (s : TransferManager) (session : HostId × HostSessionId) : Prop :=
  ∀ j job, s.state.jobs.get j = some job → job.view.session = session →
    terminal job.view.state = true ∧ job.cleanupUnconfirmed = false

/-- The session is closed, and there is nothing to do for its jobs. They are among those
    given. -/
structure Quiet (session : HostId × HostSessionId) (jobs : Set TransferJobId)
    (s : TransferManager) : Prop where
  closed : session ∈ s.state.disconnecting
  among : s.jobsOf session ⊆ jobs
  confirmed : s.AllConfirmed session
  cleanupTasks : ∀ j ∈ s.jobsOf session, j ∉ s.state.cleanupTasks

omit [Platform] in
/-- A session stays quiet as long as its own jobs and cleanups do nothing. -/
theorem Quiet.of_shows (h : s.Quiet session jobs) (hshows : Shows i s s')
    (hi : ∀ j ∈ jobs, i.jobId ≠ some j) : s'.Quiet session jobs := by
  have hold : ∀ j job', s'.state.jobs.get j = some job' → job'.view.session = session →
      ∃ job, s.state.jobs.get j = some job ∧ job.view.session = session ∧
        Changes i j job job' := by
    intro j job' hget' hsession
    cases hget : s.state.jobs.get j with
    | none => exact absurd (hsession ▸ h.closed) (hshows.added j job' hget hget').2
    | some job =>
      have hchanges := hshows.changes j job job' hget hget'
      exact ⟨job, rfl, hchanges.session.symm.trans hsession, hchanges⟩
  refine ⟨hshows.disconnecting h.closed, ?_, fun j job' hget' hsession => ?_, ?_⟩
  · rintro j ⟨job', hget', hsession⟩
    obtain ⟨job, hget, hsession, -⟩ := hold j job' hget' hsession
    exact h.among ⟨job, hget, hsession⟩
  · obtain ⟨job, hget, hsession, hchanges⟩ := hold j job' hget' hsession
    obtain ⟨hterminal, hflag⟩ := h.confirmed j job hget hsession
    have hother := hi j (h.among ⟨job, hget, hsession⟩)
    refine ⟨?_, (hchanges.flag hother).trans hflag⟩
    rcases hchanges.moves with heq | ⟨hcan, -⟩ | ⟨hi, -⟩
    · rwa [heq]
    · rw [not_cancellable (.inr hterminal)] at hcan
      nomatch hcan
    · exact absurd hi hother
  · rintro j ⟨job', hget', hsession⟩
    obtain ⟨job, hget, hsession, -⟩ := hold j job' hget' hsession
    rw [hshows.cleanupTasks j (hi j (h.among ⟨job, hget, hsession⟩))]
    exact h.cleanupTasks j ⟨job, hget, hsession⟩

omit [Platform] in
theorem keysWhere_ofSession_eq {q : TransferJobId → JobRecord → Bool}
    (hq : ∀ j job, s.state.jobs.get j = some job → job.view.session = session → q j job = false) :
    (s.state.jobs.keysWhere fun j job => ofSession session j job.view && q j job) = ∅ := by
  refine Finset.eq_empty_of_forall_notMem fun j hj => ?_
  obtain ⟨job, hget, hp⟩ := Table.mem_keysWhere.1 hj
  obtain ⟨hsession, hqj⟩ := Bool.and_eq_true_iff.1 hp
  rw [hq j job hget (of_decide_eq_true hsession)] at hqj
  nomatch hqj

omit [Platform] in
theorem Quiet.pending_eq (h : s.Quiet session jobs) : (s.state.jobs.keysWhere fun j job =>
    ofSession session j job.view && !terminal job.view.state) = ∅ :=
  keysWhere_ofSession_eq fun j job hget hsession => by
    rw [(h.confirmed j job hget hsession).1, Bool.not_true]

omit [Platform] in
theorem Quiet.cleanups_eq (h : s.Quiet session jobs) : (s.state.jobs.keysWhere fun j job =>
    ofSession session j job.view && decide (j ∈ s.state.cleanupTasks)) = ∅ :=
  keysWhere_ofSession_eq fun j job hget hsession =>
    decide_eq_false (h.cleanupTasks j ⟨job, hget, hsession⟩)

omit [Platform] in
/-- What is checked at the end holds of a quiet session. -/
theorem Quiet.checkQuiescent_eq (h : s.Quiet session jobs) : checkQuiescent t session s =
    some (.ok (), { s with log := s.log ++ [quiesced t session] }) := by
  rw [checkQuiescent, if_neg, if_neg]
  · rw [Table.any_eq_true]
    rintro ⟨j, job, hget, hp⟩
    exact absurd (h.pending_eq ▸ Table.mem_keysWhere.2 ⟨job, hget, hp⟩) (Finset.notMem_empty j)
  · rw [Table.any_eq_true]
    rintro ⟨j, job, hget, hp⟩
    obtain ⟨hsession, hflag⟩ := Bool.and_eq_true_iff.1 hp
    rw [(h.confirmed j job hget (of_decide_eq_true hsession)).2] at hflag
    cases hflag

/-- A session that stays quiet, as a protocol: the others only add to the log. -/
def quiet (calls : TaskId → TransferCall) (session : HostId × HostSessionId)
    (jobs : Set TransferJobId) : Protocol (system calls) where
  inv := Quiet session jobs
  guarantee _ s s' := ∃ es, s'.log = s.log ++ es
  idle _ _ := True

/-- What is left of `quiesce_session` once the session is closed. -/
def awaitQuiescence (t : TaskId) (host : HostId) (session : HostSessionId) : ManagerCall Unit := do
  let pending ← collect fun _ id job =>
    ofSession (host, session) id job.view && !terminal job.view.state
  waitAll done (transferError ("Transfer cleanup did not finish before the connection " ++
    "timeout; the SFTP session remains open.")) pending
  let cleanup ← collect fun m id job =>
    ofSession (host, session) id job.view && decide (id ∈ m.cleanupTasks)
  waitAll cleanupDone (transferError ("Owned staging cleanup did not finish before the " ++
    "connection timeout; the SFTP session remains open.")) cleanup
  .act (checkQuiescent t (host, session))

/-- The log goes on from `log`. -/
def Extends (log : List TransferEvent) (s : TransferManager) : Prop := ∃ es, s.log = log ++ es

theorem stable_extends (log : List TransferEvent) :
    (quiet calls session jobs).Stable i (Extends log) := by
  rintro s s' ⟨-, -, henv | ⟨i', -, es', hes'⟩⟩ ⟨es, hes⟩
  · exact henv.elim
  · exact ⟨es ++ es', by rw [hes', hes, List.append_assoc]⟩

variable {log : List TransferEvent}

/-- Collecting nothing. -/
theorem safeOr_collect {p : ManagerState → TransferJobId → JobRecord → Bool}
    {E : AppError → TransferManager → Prop} (hs : s.Extends log)
    (hp : ∀ s : TransferManager, s.Quiet session jobs → s.state.jobs.keysWhere (p s.state) = ∅) :
    (quiet calls session jobs).SafeOr i (fun ids s => ids = [] ∧ s.Extends log) E (collect p) s := by
  refine safeOr_bind.2 (safeOr_ask fun ids => ?_)
  refine SafeOr.bind (R := fun _ s => ids = [] ∧ s.Extends log) (safeOr_act (stable_extends log) hs
    fun s₁ r s₂ hext hquiet hf => ?_) fun _ s h => safeOr_pure.2 h
  split_ifs at hf with hids
  obtain ⟨⟩ := hf
  rw [hp s₁ hquiet, List.toFinset_eq_empty_iff] at hids
  exact ⟨hquiet, ⟨[], (List.append_nil _).symm⟩, hids.2, hext⟩

/-- As long as the session is quiet, nothing keeps it from being quiesced. -/
theorem safeOr_awaitQuiescence {host : HostId} {session : HostSessionId} (hs : s.Extends log) :
    (quiet calls (host, session) jobs).SafeOr i
      (fun _ s => ∃ es, s.log = log ++ es ∧ quiesced t (host, session) ∈ es) (fun _ _ => False)
      (awaitQuiescence t host session) s := by
  refine SafeOr.bind (safeOr_collect hs fun s h => h.pending_eq) fun pending s hs => ?_
  obtain ⟨rfl, hs⟩ := hs
  refine safeOr_bind.2 (safeOr_pure.2 ?_)
  refine SafeOr.bind (safeOr_collect hs fun s h => h.cleanups_eq) fun cleanup s hs => ?_
  obtain ⟨rfl, hs⟩ := hs
  refine safeOr_bind.2 (safeOr_pure.2 ?_)
  refine safeOr_act (stable_extends log) hs fun s₁ r s₂ ⟨es, hes⟩ hquiet hf => ?_
  rw [hquiet.checkQuiescent_eq] at hf
  obtain ⟨⟩ := hf
  refine ⟨⟨hquiet.closed, hquiet.among, hquiet.confirmed, hquiet.cleanupTasks⟩, ⟨_, rfl⟩,
    es ++ [quiesced t (host, session)], ?_, ?_⟩
  · rw [← List.append_assoc, ← hes]
  · exact List.mem_concat_self

omit [Platform] in
/-- Once the session is closed, the jobs and flags are those there were before. -/
theorem quiet_disconnected {host : HostId} {session : HostSessionId}
    (hcleanup : ∀ j ∈ s.jobsOf (host, session), j ∉ s.state.cleanupTasks)
    (hconfirmed : s.AllConfirmed (host, session)) :
    ((s.closeSession t (host, session)).requestCancel t (ofSession (host, session))).Quiet
      (host, session) (s.jobsOf (host, session)) := by
  have hold : ∀ j job', ((s.closeSession t (host, session)).requestCancel t
      (ofSession (host, session))).state.jobs.get j = some job' →
      job'.view.session = (host, session) → s.state.jobs.get j = some job' := by
    intro j job' hget' hsession
    obtain ⟨job, hget, rfl⟩ := get_requestCancel hget'
    obtain ⟨-, hsame, -⟩ : Changes (.call t) j job (job.requestCancel _) := changes_requestCancel
    have hterminal := (hconfirmed j job hget (hsame.symm.trans hsession)).1
    rw [requestCancel_of_not (not_cancellable (.inr hterminal))]
    exact hget
  refine ⟨Finset.mem_insert_self _ _, ?_, fun j job' hget' hsession => ?_, ?_⟩
  · rintro j ⟨job', hget', hsession⟩
    exact ⟨job', hold j job' hget' hsession, hsession⟩
  · exact hconfirmed j job' (hold j job' hget' hsession) hsession
  · rintro j ⟨job', hget', hsession⟩
    exact hcleanup j ⟨job', hold j job' hget' hsession, hsession⟩

/-- The event has been logged after `log`. -/
def LoggedAfter (log : List TransferEvent) (e : TransferEvent) (s : TransferManager) : Prop :=
  ∃ es, s.log = log ++ es ∧ e ∈ es

theorem stable_loggedAfter (log : List TransferEvent) (e : TransferEvent) :
    (quiet calls session jobs).Stable i (LoggedAfter log e) := by
  rintro s s' ⟨-, -, henv | ⟨i', -, es', hes'⟩⟩ ⟨es, hes, he⟩
  · exact henv.elim
  · exact ⟨es ++ es', by rw [hes', hes, List.append_assoc], List.mem_append_left _ he⟩

/-- The step is not one of a job of the set, or of the cleanup after it. -/
def Beyond (jobs : Set TransferJobId) (l : Label TransferTask) : Prop :=
  ∀ i, l = .run i → ∀ j ∈ jobs, i.jobId ≠ some j

/-- The call goes on, while the session is quiet. -/
structure Quiescing (calls : TaskId → TransferCall) (session : HostId × HostSessionId)
    (jobs : Set TransferJobId) (t : TaskId) (log : List TransferEvent)
    (c : Config TransferTask TransferManager) : Prop where
  keeps : (protocol calls).Keeps c
  quiet : c.shared.Quiet session jobs
  task : ∃ p, c.tasks (.call t) = some p ∧ (TransferManager.quiet calls session jobs).Safe (.call t)
    (fun _ => LoggedAfter log (.quiesced t session)) p c.shared

theorem Quiescing.step {l : Label TransferTask}
    (h : Quiescing calls session jobs t log c) (hl : Beyond jobs l)
    (hs : (system calls).machine.step c l c') : Quiescing calls session jobs t log c' := by
  have hkeeps := h.keeps.step (sound_protocol calls) hs
  obtain ⟨p, htask, hsafe⟩ := h.task
  cases l with
  | start i =>
    obtain ⟨hnone, q, -, rfl⟩ := hs
    have hne : (.call t : TransferTask) ≠ i := by
      rintro rfl
      nomatch hnone.symm.trans htask
    exact ⟨hkeeps, h.quiet, p, (update_of_ne hne ..).trans htask, hsafe⟩
  | run i =>
    by_cases hi : (.call t : TransferTask) = i
    · subst hi
      obtain ⟨q, q', s', hsome, hstep, rfl⟩ := hs
      obtain rfl := Option.mem_unique hsome htask
      obtain ⟨hquiet, -, hsafe'⟩ := Safe.step hsafe h.quiet hstep
      exact ⟨hkeeps, hquiet, q', update_self .., hsafe'⟩
    · have htask' : c'.tasks (.call t) = some p := by
        obtain ⟨q, q', s', -, -, rfl⟩ := hs
        exact (update_of_ne hi ..).trans htask
      have hquiet : c'.shared.Quiet session jobs := by
        rcases h.keeps.guarantee_of_step hs with heq | hg
        · exact heq ▸ h.quiet
        · exact h.quiet.of_shows hg.shows (hl i rfl)
      obtain ⟨-, es, hes⟩ := log_of_path h.keeps (Machine.path_singleton.2 hs)
      refine ⟨hkeeps, hquiet, p, htask', ?_⟩
      refine Safe.interfere (fun _ => stable_loggedAfter log _) hsafe ⟨h.quiet, hquiet, .inr ?_⟩
      exact ⟨i, Ne.symm hi, es, hes⟩
  | env =>
    obtain ⟨s', hs', -⟩ := hs
    exact hs'.elim

variable {host : HostId} {hostSession : HostSessionId} {c₂ : Config TransferTask TransferManager}

/-- The first section of the call closes the session. -/
theorem step_quiesceSession (hcall : calls t = .quiesceSession host hostSession)
    (hentry : c.tasks (.call t) = some (program calls (.call t)))
    (hs : (system calls).machine.step c (.run (.call t)) c₁) :
    c₁ = ⟨update c.tasks (.call t) (some (exec (awaitQuiescence t host hostSession))),
      (c.shared.closeSession t (host, hostSession)).requestCancel t
        (ofSession (host, hostSession))⟩ := by
  obtain ⟨p, p', s', hsome, hstep, rfl⟩ := hs
  obtain rfl := Option.mem_unique hentry hsome
  rw [program, hcall] at hstep
  cases hstep with
  | atomic hf =>
    obtain ⟨⟩ := hf
    rfl

omit [Platform] in
/-- A quiet session is quiesced by the call alone. -/
theorem alone_awaitQuiescence (h : s.Quiet (host, hostSession) jobs) :
    (exec (awaitQuiescence t host hostSession)).Alone s (.ret ())
      { s with log := s.log ++ [quiesced t (host, hostSession)] } := by
  have hnil : ([] : List TransferJobId).Nodup ∧ ([] : List TransferJobId).toFinset = ∅ :=
    ⟨List.nodup_nil, rfl⟩
  refine .answer ([] : List TransferJobId) (.act (if_pos (h.pending_eq.symm ▸ hnil)) ?_)
  refine .answer ([] : List TransferJobId) (.act (if_pos (h.cleanups_eq.symm ▸ hnil)) ?_)
  exact .act h.checkQuiescent_eq .refl

/-- A job that does nothing does not end. -/
theorem unfinished_of_path {ls' : List (Label TransferTask)} (hc : (protocol calls).Keeps c)
    (hp : (system calls).machine.Path c ls' c') (hls : ∀ l ∈ ls', Beyond jobs l) (hj : j ∈ jobs)
    (h : c.shared.Unfinished j) : c'.shared.Unfinished j := by
  refine (hp.invariant_on (P := fun c => (protocol calls).Keeps c ∧ c.shared.Unfinished j)
    (fun c₁ l c₂ hl ⟨hc₁, h₁⟩ hs => ⟨hc₁.step (sound_protocol calls) hs, ?_⟩) hls ⟨hc, h⟩).2
  rcases guarantee_of_step hc₁ hs with heq | ⟨i, rfl, hg⟩
  · exact heq ▸ h₁
  · exact (hg.unfinished j h₁).resolve_right fun hown => hl i rfl j hj hown.1

/-- What has been quiesced had nothing left to do, and no flag. -/
theorem allConfirmed_of_loggedAfter (hc : (protocol calls).Keeps c)
    (hc' : (protocol calls).Keeps c') (hlogged : c'.shared.LoggedAfter c.shared.log (.quiesced t session))
    (hactive : ∀ j ∈ c.shared.jobsOf session, c.shared.Unfinished j → c'.shared.Unfinished j) :
    c.shared.AllConfirmed session := by
  intro j job hget hsession
  obtain ⟨es, hes, hmem⟩ := hlogged
  obtain ⟨es₁, es₂, rfl⟩ := List.append_of_mem hmem
  rw [← List.append_assoc] at hes
  obtain ⟨-, hquiet⟩ := hc'.inv.rule _ _ _ hes
  obtain ⟨spec, hadmitted, hspec⟩ := hc.inv.records.known j job hget
  obtain ⟨hfinished, hunconfirmed⟩ := hquiet j spec (admitted_append.2 (.inl hadmitted))
    (hspec.symm.trans hsession)
  constructor
  · by_contra hnot
    have hunfinished := hactive j ⟨job, hget, hsession⟩ ⟨job, hget, by simpa using hnot⟩
    exact hc'.inv.records.active j hunfinished (hes ▸ finished_append.2 (.inl hfinished))
  · by_contra hflag
    refine hunconfirmed (unconfirmed_append.2 (.inl ?_))
    exact hc.inv.records.flagged j job hget (by simpa using hflag)

end

/-! ## A flag that stays -/

/-- A file that must not be removed. -/
def deniedAnswer : Answer := ⟨.packet (.status .permissionDenied), false, nofun, fun _ _ _ => rfl⟩

omit [Platform] in
/-- The staging file of a job could not be removed once. When the job has ended, the session
    cannot be quiesced, and cannot be quiesced again. -/
theorem exists_run_flagged : ∃ _ : Platform, ∃ ls c c₁ ls' c', (system uploadCalls).machine.Run ls c ∧
    c.tasks (.job ⟨1⟩) = some (.ret ()) ∧ c.tasks (.call ⟨1⟩) = some (.ret ()) ∧
    c.tasks (.call ⟨2⟩) = some (program uploadCalls (.call ⟨2⟩)) ∧
    (system uploadCalls).machine.step c (.run (.call ⟨2⟩)) c₁ ∧
    (system uploadCalls).machine.Path c₁ ls' c' ∧ (∀ l ∈ ls', l = .run (.call ⟨2⟩)) ∧
    (c.shared.state.jobs.get ⟨1⟩).map (fun job =>
      (job.view.session, job.view.state, job.cleanupUnconfirmed)) =
        some ((⟨1⟩, ⟨1⟩), .failed, true) ∧
    c.shared.state.cleanupTasks = ∅ ∧ c'.tasks (.call ⟨2⟩) = some (.ret ()) ∧
    c'.shared.log = c.shared.log ++
      [.disconnected ⟨2⟩ (⟨1⟩, ⟨1⟩), .accepted ⟨2⟩ (c.shared.state.cancellableJobs (ofSession (⟨1⟩, ⟨1⟩)))] := by
  let platform : Platform := ⟨fun _ => Vector.replicate 32 0, id⟩
  refine ⟨platform, ?_⟩
  have h : (system uploadCalls).machine.Run [] ⟨fun _ => none, .new⟩ := .nil ⟨rfl, fun _ => rfl⟩
  -- The job creates its staging file.
  obtain ⟨_, h⟩ := System.run_task h (.call ⟨0⟩) rfl rfl
    (.answer (fun n => ⟨n + 1⟩ : Nat → TransferJobId) <|
    .act rfl <| .act rfl <| .refl)
  obtain ⟨_, h⟩ := System.run_task h (.job ⟨1⟩) rfl rfl (.answer false <| .act rfl <| .act rfl <|
    .answer (some false) <| .act rfl <| .answer (some false) <| .act rfl <| .act rfl <|
    .answer (⟨0⟩ : DestinationLockId) <| .act rfl <| .answer (some ()) <| .act rfl <|
    .answer (.ok () : Except AppError Unit) <| .answer true <| .refl)
  obtain ⟨_, h⟩ := System.run_alone h (.answer (some true) <| .act rfl <| .act rfl <| .act rfl <|
    .answer (some handleAnswer) <| .act rfl <| .act rfl <| .answer (1 : Nat) <| .act rfl <|
    .answer (some (some ⟨[], Nat.zero_le _⟩)) <| .refl)
  obtain ⟨_, h⟩ := System.run_alone h (.act rfl <| .answer (some okAnswer) <| .act rfl <| .refl)
  -- The local file has changed, and the staging file cannot be removed.
  obtain ⟨_, h⟩ := System.run_alone h (.answer (.error (transferError "") : Except AppError Unit) <|
    .act rfl <| .act rfl <| .answer (some deniedAnswer) <| .act rfl <| .act rfl <| .act rfl <|
    .act rfl <| .act rfl <| .act rfl <| .act rfl <| .act rfl <| .act rfl <| .act rfl <| .refl)
  obtain ⟨_, h⟩ := System.run_alone h (.act rfl <| .refl)
  -- A first call fails.
  obtain ⟨_, h⟩ := System.run_task h (.call ⟨1⟩) rfl rfl
    (.act rfl <| .answer ([] : List TransferJobId) <|
    .act (if_pos (by decide +kernel)) <| .answer ([] : List TransferJobId) <|
    .act (if_pos (by decide +kernel)) <| .act (if_pos (by decide +kernel)) <| .refl)
  -- So does the next one.
  obtain ⟨_, h⟩ := System.run_start (i := .call ⟨2⟩) h rfl rfl
  refine ⟨_, _, _, _, _, h, rfl, rfl, rfl, ⟨_, _, _, rfl, .atomic rfl, rfl⟩,
    .cons (e := Label.run (.call ⟨2⟩)) ⟨_, _, _, rfl, .await _ ([] : List TransferJobId), rfl⟩ <|
    .cons (e := Label.run (.call ⟨2⟩)) ⟨_, _, _, rfl, .atomic (if_pos (by decide +kernel)), rfl⟩ <|
    .cons (e := Label.run (.call ⟨2⟩)) ⟨_, _, _, rfl, .await _ ([] : List TransferJobId), rfl⟩ <|
    .cons (e := Label.run (.call ⟨2⟩)) ⟨_, _, _, rfl, .atomic (if_pos (by decide +kernel)), rfl⟩ <|
    .cons (e := Label.run (.call ⟨2⟩)) ⟨_, _, _, rfl, .atomic (if_pos (by decide +kernel)), rfl⟩ <|
    .nil _, ?_, by decide +kernel, by decide +kernel, rfl, rfl⟩
  intro l hl
  simpa using hl

variable {ls' : List (Label TransferTask)} {state state' : TransferState}

/-- A job ends once. -/
theorem Inv.endedAs_unique (h : s.Inv) (hend : s.EndedAs j state) (hend' : s.EndedAs j state') :
    state' = state := by
  obtain ⟨i, hmem, hi⟩ := hend
  obtain ⟨i', hmem', hi'⟩ := hend'
  obtain ⟨pre, post, hlog⟩ := List.append_of_mem hmem
  rw [hlog, List.mem_append, List.mem_cons] at hmem'
  rcases hmem' with hpre | heq | hpost
  · exact absurd ⟨i', state', hpre, hi'⟩ ((h.rule pre _ post hlog).2 j hi).1
  · exact (finished.inj heq).2
  · obtain ⟨pre', post', rfl⟩ := List.append_of_mem hpost
    have hrule := h.rule (pre ++ finished i state :: pre') (finished i' state') post' (by simp [hlog])
    exact absurd ⟨i, state, by simp, hi⟩ (hrule.2 j hi').1

/-- Whatever happens after a job has ended, how it has ended stays so. Its record is kept if it
    may have left a staging file behind, and no request is made for it. -/
theorem finality_of_run (h : (system calls).machine.Run ls c) (hend : c.shared.EndedAs j state)
    (hp : (system calls).machine.Path c ls' c') :
    (∀ job, c'.shared.state.jobs.get j = some job → job.view.state = state) ∧
    (Unconfirmed c.shared.log j →
      ∃ job, c'.shared.state.jobs.get j = some job ∧ job.cleanupUnconfirmed = true) ∧
    ∃ es, c'.shared.log = c.shared.log ++ es ∧ ∀ e, .sftp e ∈ es → e.task.jobId ≠ some j := by
  obtain ⟨hc', es, hes⟩ := log_of_path ((sound_protocol calls).of_run h) hp
  obtain ⟨i, hmem, hi⟩ := hend
  have hmem' : finished i state ∈ c'.shared.log := hes ▸ List.mem_append_left _ hmem
  refine ⟨fun job hget => ?_, fun hu => ?_, es, hes, fun e he => ?_⟩
  · refine hc'.inv.endedAs_unique ⟨i, hmem', hi⟩ (hc'.inv.endedAs hget ?_)
    by_contra hactive
    exact hc'.inv.records.active j ⟨job, hget, by simpa using hactive⟩ ⟨i, state, hmem', hi⟩
  · exact hc'.inv.records.unconfirmed j (hes ▸ unconfirmed_append.2 (.inl hu))
  · obtain ⟨pre, post, hlog⟩ := List.append_of_mem hmem
    have hlog' : c'.shared.log = pre ++ finished i state :: (post ++ es) := by simp [hes, hlog]
    exact hc'.inv.silent_of_finished hlog' hi (List.mem_append_right _ he)

omit [Platform] in
theorem finality_flagged : ∃ _ : Platform, ∃ ls c ls' c', (system uploadCalls).machine.Run ls c ∧
    (system uploadCalls).machine.Path c ls' c' ∧ c.shared.EndedAs ⟨1⟩ .failed ∧
    ∃ job, c'.shared.state.jobs.get ⟨1⟩ = some job ∧ job.cleanupUnconfirmed = true := by
  obtain ⟨platform, ls, c, c₁, ls', c', h, -, -, -, hs, hp, -, hjob, -⟩ := exists_run_flagged
  obtain ⟨job, hget, hjob⟩ := Option.map_eq_some_iff.1 hjob
  have hstate : job.view.state = .failed := congrArg (·.2.1) hjob
  have hinv := ((sound_protocol _).of_run h).inv
  have hend : c.shared.EndedAs ⟨1⟩ .failed := hstate ▸ hinv.endedAs hget (by rw [hstate]; rfl)
  have hu := hinv.records.flagged _ job hget (congrArg (·.2.2) hjob)
  exact ⟨platform, ls, c, _, c', h, .cons hs hp, hend,
    (finality_of_run h hend (.cons hs hp)).2.1 hu⟩

end TransferManager

end NexusOps.Sftp
