import NexusOps.Sftp.TransferTaskSafety

/-!
# Safety of transfers

What holds of every run of the transfer manager, its jobs and the cleanups after them:

* `cancellation_of_run`: a job that was asked to stop in time is not committed;
* `outcome_of_run`: a job ends in a state that tells what it has done;
* `staging_of_run`: a job only removes the staging file it has created, and has not left it
  behind when it has ended;
* `quiescence_of_run`: nothing is left to do for a session that has been quiesced;
* `records_of_run`: what is kept of the jobs is in order;
* `exclusion_of_run`: there are not too many transfers at a time;
* `progress_of_run`: some job can always go on.
-/

namespace NexusOps.Sftp

open Concurrency Protocol ManagerState TransferEvent

section

variable {pre post : List TransferEvent} {j : TransferJobId}

/-- Events without a request for the job. -/
theorem Settled.of_silent {p : SftpRequest → Prop} (h : Settled pre j p)
    (hpost : ∀ e, sftp e ∈ post → e.task.jobId ≠ some j) : Settled (pre ++ post) j p := by
  refine h.append (followed_of_not ?_)
  rintro e he ⟨i, r, rfl, hi, -⟩
  exact hpost _ he hi

theorem Unapplied.of_silent (h : Unapplied pre j)
    (hpost : ∀ e, sftp e ∈ post → e.task.jobId ≠ some j) : Unapplied (pre ++ post) j := by
  refine ⟨h.settled.of_silent hpost, fun i r a hi hr he => ?_⟩
  exact h.unapplied i r a hi hr ((List.mem_append.1 he).resolve_right fun he => hpost _ he hi)

end

namespace TransferManager

/-! ## Two runs -/

/-- An upload of an empty file. -/
def uploadSpec : JobSpec where
  client := ⟨⟨⟨1⟩, ⟨1⟩, ⟨1⟩⟩, [("hardlink@openssh.com", "1")], 1, 1⟩
  source := .localFile ⟨0⟩
  destination := .remote "/a" .createNew

/-- A call that enqueues three jobs for a host, and others that ask the first two to stop. -/
def cancelCalls : TaskId → TransferCall
  | ⟨0⟩ => .enqueueBatch [uploadSpec, uploadSpec, uploadSpec]
  | ⟨n + 1⟩ => .cancel ⟨n + 1⟩ ⟨1⟩ ⟨1⟩ ⟨1⟩

/-- The first two jobs end before they give back the permits of their host. -/
theorem exists_run_cancel : ∃ _ : Platform,
    (∃ ls c c', (system cancelCalls).machine.Run ls c ∧
      (system cancelCalls).machine.step c (.run (.call ⟨1⟩)) c' ∧
      (c.shared.state.jobs.get ⟨1⟩).map (fun job => job.view.state) = some .queued ∧
      (c'.shared.state.jobs.get ⟨1⟩).map (fun job => job.view.state) = some .cancelRequested) ∧
    ∃ ls c, (system cancelCalls).machine.Run ls c ∧ c.shared.spawned ⟨3⟩ = some uploadSpec ∧
      (c.shared.state.jobs.keysWhere fun _ job => !terminal job.view.state) = {⟨3⟩} ∧
      c.shared.cancelled ⟨3⟩ = false ∧ c.shared.scheduler.place ⟨3⟩ = .awaitingHost ∧
      c.shared.scheduler.hosts ⟨1⟩ = {⟨1⟩, ⟨2⟩} ∧ .sftp (.dropped (.job ⟨3⟩)) ∉ c.shared.log := by
  let platform : Platform := ⟨fun _ => Vector.replicate 32 0, id⟩
  refine ⟨platform, ?_⟩
  have h : (system cancelCalls).machine.Run [] ⟨fun _ => none, .new⟩ := .nil ⟨rfl, fun _ => rfl⟩
  obtain ⟨_, h⟩ := System.run_task h (.call ⟨0⟩) rfl rfl
    (.answer (fun n => ⟨n + 1⟩ : Nat → TransferJobId) <|
    .act rfl <| .act rfl <| .act rfl <| .act rfl <| .refl)
  -- Two jobs get the permits of their host.
  obtain ⟨_, h⟩ := System.run_task h (.job ⟨1⟩) rfl rfl (.answer false <| .act rfl <| .act rfl <|
    .answer (some false) <| .act rfl <| .answer (some false) <| .refl)
  obtain ⟨_, h⟩ := System.run_task h (.job ⟨2⟩) rfl rfl (.answer false <| .act rfl <| .act rfl <|
    .answer (some false) <| .act rfl <| .answer (some false) <| .refl)
  -- The third has to wait for them.
  obtain ⟨_, h⟩ := System.run_task h (.job ⟨3⟩) rfl rfl
    (.answer false <| .act rfl <| .act rfl <| .refl)
  obtain ⟨_, h⟩ := System.run_start (i := .call ⟨1⟩) h rfl rfl
  refine ⟨⟨_, _, _, h, ⟨_, _, _, rfl, .atomic rfl, rfl⟩, by decide +kernel, by decide +kernel⟩, ?_⟩
  obtain ⟨_, h⟩ := System.run_alone h (.act rfl <| .refl)
  obtain ⟨_, h⟩ := System.run_task h (.call ⟨2⟩) rfl rfl (.act rfl <| .refl)
  -- They note that they have been cancelled, before they give back their permits.
  have h := System.run_resume (i := .job ⟨1⟩) h rfl
  obtain ⟨_, h⟩ := System.run_alone h (.act rfl <| .act rfl <| .refl)
  have h := System.run_resume (i := .job ⟨2⟩) h rfl
  obtain ⟨_, h⟩ := System.run_alone h (.act rfl <| .act rfl <| .refl)
  exact ⟨_, _, h, by decide +kernel, by decide +kernel, rfl, rfl, by decide +kernel, by decide +kernel⟩

/-- A request that has been applied. -/
def okAnswer : Answer where
  reply := .packet (.status .ok)
  applied := true
  of_confirmed _ := rfl
  of_refused code h hne := absurd (by simpa using h.symm) hne

/-- A file that has been opened. -/
def handleAnswer : Answer := ⟨.packet (.handle ""), true, nofun, nofun⟩

/-- A file that there is not. -/
def absentAnswer : Answer := ⟨.packet (.status .noSuchFile), false, nofun, fun _ _ _ => rfl⟩

/-- A call that enqueues it, and others that wait for it to end. -/
def uploadCalls : TaskId → TransferCall
  | ⟨0⟩ => .enqueueBatch [uploadSpec]
  | _ => .quiesceSession ⟨1⟩ ⟨1⟩

/-- Its staging file. -/
def uploadedFile : String := "/.nexusops-00000000000000000000000000000001.part"

/-- The upload runs to its end, and then the session is quiesced. -/
theorem exists_run_upload : ∃ _ : Platform,
    (∃ ls c, (system uploadCalls).machine.Run ls c ∧
      c.shared.scheduler.place ⟨1⟩ = .transferring ⟨0⟩) ∧
    (∃ ls c, (system uploadCalls).machine.Run ls c ∧
      (c.shared.state.jobs.get ⟨1⟩).map (fun job => job.view.state) = some .completed ∧
      .admitted ⟨0⟩ [(⟨1⟩, uploadSpec)] ∈ c.shared.log ∧
      .sftp (.answered (.job ⟨1⟩) (.openExclusive uploadedFile 0o100600) handleAnswer) ∈
        c.shared.log ∧
      .sftp (.dropped (.job ⟨1⟩)) ∉ c.shared.log) ∧
    (∃ ls c c', (system uploadCalls).machine.Run ls c ∧
      (system uploadCalls).machine.step c (.run (.call ⟨1⟩)) c' ∧
      c'.shared.log = c.shared.log ++ [quiesced ⟨1⟩ (⟨1⟩, ⟨1⟩)] ∧
      .admitted ⟨0⟩ [(⟨1⟩, uploadSpec)] ∈ c'.shared.log) := by
  let platform : Platform := ⟨fun _ => Vector.replicate 32 0, id⟩
  refine ⟨platform, ?_⟩
  have h : (system uploadCalls).machine.Run [] ⟨fun _ => none, .new⟩ := .nil ⟨rfl, fun _ => rfl⟩
  -- The batch is enqueued, and its job gets its permits and its lock.
  obtain ⟨_, h⟩ := System.run_task h (.call ⟨0⟩) rfl rfl
    (.answer (fun n => ⟨n + 1⟩ : Nat → TransferJobId) <|
    .act rfl <| .act rfl <| .refl)
  obtain ⟨_, h⟩ := System.run_task h (.job ⟨1⟩) rfl rfl (.answer false <| .act rfl <| .act rfl <|
    .answer (some false) <| .act rfl <| .answer (some false) <| .act rfl <| .act rfl <|
    .answer (⟨0⟩ : DestinationLockId) <| .act rfl <| .answer (some ()) <| .act rfl <| .refl)
  refine ⟨⟨_, _, h, rfl⟩, ?_⟩
  -- The staging file is created, written and closed.
  obtain ⟨_, h⟩ := System.run_alone h (.answer (.ok () : Except AppError Unit) <| .answer true <|
    .answer (some true) <| .act rfl <| .act rfl <| .act rfl <| .answer (some handleAnswer) <|
    .act rfl <| .act rfl <| .answer (1 : Nat) <| .act rfl <|
    .answer (some (some ⟨[], Nat.zero_le _⟩)) <| .refl)
  obtain ⟨_, h⟩ := System.run_alone h (.act rfl <| .answer (some okAnswer) <| .act rfl <|
    .answer (.ok () : Except AppError Unit) <| .refl)
  -- There is nothing in the way, and it is linked and removed.
  obtain ⟨_, h⟩ := System.run_alone h (.act rfl <| .act rfl <| .act rfl <|
    .answer (some absentAnswer) <| .act rfl <| .act rfl <| .act rfl <|
    .answer (some absentAnswer) <| .act rfl <| .act rfl <| .answer (some okAnswer) <| .act rfl <|
    .act rfl <| .answer (some okAnswer) <| .refl)
  obtain ⟨_, h⟩ := System.run_alone h (.act rfl <| .act rfl <| .act rfl <| .act rfl <| .act rfl <|
    .act rfl <| .act rfl <| .act rfl <| .act rfl <| .act rfl <| .refl)
  refine ⟨⟨_, _, h, by decide +kernel, by decide +kernel, by decide +kernel, by decide +kernel⟩, ?_⟩
  -- The session is quiesced.
  obtain ⟨_, h⟩ := System.run_task h (.call ⟨1⟩) rfl rfl
    (.act rfl <| .answer ([] : List TransferJobId) <| .act rfl <|
    .answer ([] : List TransferJobId) <| .act rfl <| .refl)
  exact ⟨_, _, _, h, ⟨_, _, _, rfl, .atomic rfl, rfl⟩, rfl, by decide +kernel⟩

variable [Platform] {calls : TaskId → TransferCall} {ls ls' : List (Label TransferTask)}
  {c c' : Config TransferTask TransferManager} {s : TransferManager} {j : TransferJobId}
  {spec : JobSpec} {t : TaskId} {session : HostId × HostSessionId}

/-! ## Runs -/

/-- A step of the system is one of a task, or leaves the state as it is. -/
theorem guarantee_of_step {l : Label TransferTask} (hc : (protocol calls).Keeps c)
    (hs : (system calls).machine.step c l c') :
    c'.shared = c.shared ∨ ∃ i, l = .run i ∧ Guarantee calls i c.shared c'.shared := by
  cases l with
  | start i =>
    obtain ⟨-, p, -, rfl⟩ := hs
    exact .inl rfl
  | run i => exact (hc.guarantee_of_step hs).imp_right fun hg => ⟨i, rfl, hg⟩
  | env =>
    obtain ⟨s', hs', -⟩ := hs
    exact hs'.elim

/-- What has been logged stays so. -/
theorem log_of_path (hc : (protocol calls).Keeps c) (h : (system calls).machine.Path c ls c') :
    (protocol calls).Keeps c' ∧ ∃ es, c'.shared.log = c.shared.log ++ es := by
  refine h.invariant (P := fun c' => (protocol calls).Keeps c' ∧
    ∃ es, c'.shared.log = c.shared.log ++ es) (fun c₁ l c₂ ⟨hc₁, es, hes⟩ hs => ?_)
    ⟨hc, [], (List.append_nil _).symm⟩
  refine ⟨hc₁.step (sound_protocol calls) hs, ?_⟩
  rcases guarantee_of_step hc₁ hs with heq | ⟨i, -, hg⟩
  · exact ⟨es, heq ▸ hes⟩
  · obtain ⟨es', hes', -⟩ := hg.log
    exact ⟨es ++ es', by rw [hes', hes, List.append_assoc]⟩

/-! ## Cancellation -/

/-- Nothing has been committed for the job, and it is not completed, unless there was
    nothing to do. -/
structure NeverCommitted (s : TransferManager) (j : TransferJobId) : Prop where
  commit : ∀ kind, .commit j kind ∉ s.log
  request : ∀ i r, i.jobId = some j → r.Commits → .sftp (.request i r) ∉ s.log
  completed : ∀ job spec, s.state.jobs.get j = some job → job.view.state = .completed →
    Admitted s.log j spec → spec.Skips

/-- A job that has been asked to stop never starts to be finalized. -/
theorem Inv.not_finalizing (h : s.Inv) (haccepted : Accepted s.log j) : .finalizing j ∉ s.log := by
  intro hfinalizing
  obtain ⟨pre, post, hlog⟩ := List.append_of_mem hfinalizing
  obtain ⟨t, jobs, hmem, hj⟩ := haccepted
  -- Whichever came first rules out the other.
  rw [hlog] at hmem
  rcases List.mem_append.1 hmem with hpre | hpost
  · exact h.rule pre _ post hlog ⟨t, jobs, hpre, hj⟩
  · obtain ⟨pre', post', hpost'⟩ := List.append_of_mem
      ((List.mem_cons.1 hpost).resolve_left nofun)
    refine h.rule (pre ++ finalizing j :: pre') (accepted t jobs) post' ?_ j hj (by simp)
    rw [hlog, hpost']
    simp

theorem Inv.neverCommitted (h : s.Inv) (haccepted : Accepted s.log j) : s.NeverCommitted j := by
  have hnot := h.not_finalizing haccepted
  refine ⟨fun kind hmem => ?_, fun i r hi hr hmem => ?_, fun job spec hget hstate hadmitted => ?_⟩
  · obtain ⟨pre, post, hlog⟩ := List.append_of_mem hmem
    have hpre : .finalizing j ∈ pre := h.rule pre _ post hlog
    exact hnot (hlog ▸ List.mem_append_left _ hpre)
  · obtain ⟨pre, post, hlog⟩ := List.append_of_mem hmem
    have hrule := (h.rule pre _ post hlog j hi).2.2
    have hpre : .finalizing j ∈ pre := by
      cases r with
      | hardlink => exact hrule
      | posixRename => exact hrule
      | _ => exact hr.elim
    exact hnot (hlog ▸ List.mem_append_left _ hpre)
  · obtain ⟨i, hi, hfin⟩ := h.records.ended j job hget (by rw [hstate]; rfl)
    obtain ⟨pre, post, hlog⟩ := List.append_of_mem hfin
    obtain ⟨-, hrule⟩ := h.rule pre _ post hlog
    obtain ⟨-, spec', ⟨t', ht'⟩, hending⟩ := hrule j hi
    obtain ⟨t, ht⟩ := hadmitted
    obtain ⟨-, rfl⟩ := h.records.unique j t t' spec spec' ht
      (hlog ▸ admittedBy_append.2 (.inl ht'))
    refine (hending.completed hstate).resolve_right fun hpre => ?_
    exact hnot (hlog ▸ List.mem_append_left _ hpre)

/-- A call that stops jobs: if it has asked a job to stop that was not being finalized,
    nothing is ever committed for that job. Otherwise the job is not affected. -/
theorem cancellation_of_run (h : (system calls).machine.Run ls c)
    (hs : (system calls).machine.step c (.run (.call t)) c') (hcall : (calls t).Stops)
    {job : JobRecord} (hget : c.shared.state.jobs.get j = some job) :
    (cancellable job.view.state = true → ∀ job', c'.shared.state.jobs.get j = some job' →
      job'.view.state = .cancelRequested → ∀ ls' c'', (system calls).machine.Path c' ls' c'' →
        c''.shared.NeverCommitted j) ∧
    (job.view.state = .finalizing ∨ terminal job.view.state = true →
      c'.shared.state.jobs.get j = some job ∧ c'.shared.cancelled j = c.shared.cancelled j) := by
  have hc := (sound_protocol calls).of_run h
  have hc' := (sound_protocol calls).of_run (h.snoc hs)
  rcases guarantee_of_step hc hs with heq | ⟨i, hi, hg⟩
  · refine ⟨fun hcan job' hget' hstate => ?_, fun _ => ⟨heq ▸ hget, by rw [heq]⟩⟩
    rw [heq, hget] at hget'
    rw [Option.some.inj hget', hstate] at hcan
    nomatch hcan
  · obtain rfl := Label.run.inj hi
    refine ⟨fun hcan job' hget' hstate ls' c'' hp => ?_, hg.calm t j job rfl hcall hget⟩
    have hbefore : job.view.state ≠ .cancelRequested := by
      intro heq
      rw [heq] at hcan
      nomatch hcan
    have haccepted := hg.moved j job job' hget hget' hbefore hstate
    obtain ⟨hc'', es, hes⟩ := log_of_path hc' hp
    exact hc''.inv.neverCommitted (hes ▸ accepted_append.2 (.inl haccepted))

omit [Platform] in
theorem cancellation_queued : ∃ _ : Platform, ∃ ls c c', (system cancelCalls).machine.Run ls c ∧
    (system cancelCalls).machine.step c (.run (.call ⟨1⟩)) c' ∧ c'.shared.NeverCommitted ⟨1⟩ := by
  obtain ⟨platform, ⟨ls, c, c', h, hs, hbefore, hafter⟩, -⟩ := exists_run_cancel
  obtain ⟨job, hget, hqueued⟩ := Option.map_eq_some_iff.1 hbefore
  obtain ⟨job', hget', hrequested⟩ := Option.map_eq_some_iff.1 hafter
  refine ⟨platform, ls, c, c', h, hs, ?_⟩
  exact (cancellation_of_run h hs trivial hget).1 (by rw [hqueued]; rfl) job' hget' hrequested
    [] c' (.nil c')

/-! ## Outcomes -/

section

variable {pre post : List TransferEvent} {i : TransferTask} {state : TransferState}

/-- The job has been set to a state in which it has ended. -/
def EndedAs (s : TransferManager) (j : TransferJobId) (state : TransferState) : Prop :=
  ∃ i, .finished i state ∈ s.log ∧ i.jobId = some j

/-- After a job has ended, there is no request for it. -/
theorem Inv.silent_of_finished (h : s.Inv) (hlog : s.log = pre ++ finished i state :: post)
    (hi : i.jobId = some j) {e : SftpEvent TransferTask} (he : .sftp e ∈ post) :
    e.task.jobId ≠ some j := by
  intro hj
  obtain ⟨pre', post', hpost⟩ := List.append_of_mem he
  refine (h.rule (pre ++ finished i state :: pre') (sftp e) post' ?_ j hj).2.1
    ⟨i, state, by simp, hi⟩
  rw [hlog, hpost]
  simp

/-- What is known of a job that has ended, from when it did. -/
theorem Inv.ending (h : s.Inv) (hend : s.EndedAs j state) (hadmitted : Admitted s.log j spec) :
    terminal state = true ∧ ∃ i pre post, i.jobId = some j ∧
      s.log = pre ++ finished i state :: post ∧ Ending pre j i spec state := by
  obtain ⟨i, hmem, hi⟩ := hend
  obtain ⟨pre, post, hlog⟩ := List.append_of_mem hmem
  obtain ⟨hterminal, hrule⟩ := h.rule pre _ post hlog
  obtain ⟨-, spec', ⟨t', ht'⟩, hending⟩ := hrule j hi
  obtain ⟨t, ht⟩ := hadmitted
  obtain ⟨-, rfl⟩ := h.records.unique j t t' spec spec' ht (hlog ▸ admittedBy_append.2 (.inl ht'))
  exact ⟨hterminal, i, pre, post, hi, hlog, hending⟩

theorem Inv.endedAs (h : s.Inv) {job : JobRecord} (hget : s.state.jobs.get j = some job)
    (hterminal : terminal job.view.state = true) : s.EndedAs j job.view.state := by
  obtain ⟨i, hi, hfin⟩ := h.records.ended j job hget hterminal
  exact ⟨i, hfin, hi⟩

/-- A job that has run to its end has ended as its outcome was: it is completed only if the
    server has confirmed its commit, and neither failed nor cancelled unless nothing was put
    at its destination. -/
theorem outcome_of_run (h : (system calls).machine.Run ls c) {destination : String}
    (hadmitted : Admitted c.shared.log j spec) (hspec : spec.StagesTo destination)
    (hwhole : .sftp (.dropped (.job j)) ∉ c.shared.log) :
    (∀ job, c.shared.state.jobs.get j = some job → terminal job.view.state = true →
      c.shared.EndedAs j job.view.state) ∧
    ∀ state, c.shared.EndedAs j state →
      (state = .completed ∧ ∃ path, Created c.shared.log j path ∧
        Committed c.shared.log j path destination) ∨
      ((state = .failed ∨ state = .cancelled) ∧ Unapplied c.shared.log j) ∨
      state = .outcomeUnknown := by
  have hinv := ((sound_protocol calls).of_run h).inv
  refine ⟨fun job => hinv.endedAs, fun state hend => ?_⟩
  obtain ⟨hterminal, i, pre, post, hi, hlog, hending⟩ := hinv.ending hend hadmitted
  -- Only a job that was dropped is ended by a cleanup.
  have hjob : i = .job j := by
    cases i with
    | call t => nomatch hi
    | job j' => exact congrArg TransferTask.job (Option.some.inj hi)
    | cleanup j' =>
      obtain rfl : j' = j := Option.some.inj hi
      have howned := (hinv.tickets.owned j' (.finished (.cleanup j') state) (by simp [hlog])).2 rfl
      obtain ⟨path, hpath⟩ := Option.ne_none_iff_exists'.1 howned
      exact absurd (hinv.tickets.cleanups j' path hpath).2.1 hwhole
  have hhonest := hending.honest hjob destination hspec
  have hsilent : ∀ e, .sftp e ∈ .finished i state :: post → e.task.jobId ≠ some j := fun e he =>
    hinv.silent_of_finished hlog hi ((List.mem_cons.1 he).resolve_left nofun)
  rw [hlog]
  cases state with
  | completed =>
    obtain ⟨path, hcreated, hcommitted⟩ := hhonest
    exact .inl ⟨rfl, path, created_append.2 (.inl hcreated),
      hcommitted.mono fun e he => List.mem_append_left _ he⟩
  | failed => exact .inr (.inl ⟨.inl rfl, Unapplied.of_silent hhonest hsilent⟩)
  | cancelled => exact .inr (.inl ⟨.inr rfl, Unapplied.of_silent hhonest hsilent⟩)
  | outcomeUnknown => exact .inr (.inr rfl)
  | _ => nomatch hterminal

omit [Platform] in
theorem outcome_uploaded : ∃ _ : Platform, ∃ ls c, (system uploadCalls).machine.Run ls c ∧
    c.shared.EndedAs ⟨1⟩ .completed ∧
    ∃ path, Created c.shared.log ⟨1⟩ path ∧ Committed c.shared.log ⟨1⟩ path "/a" := by
  obtain ⟨platform, -, ⟨ls, c, h, hstate, hadmitted, -, hwhole⟩, -⟩ := exists_run_upload
  obtain ⟨job, hget, hcompleted⟩ := Option.map_eq_some_iff.1 hstate
  have hspec : uploadSpec.StagesTo "/a" := ⟨nofun, ⟨_, rfl⟩, nofun⟩
  obtain ⟨hend, hout⟩ := outcome_of_run h ⟨⟨0⟩, _, hadmitted, List.mem_singleton_self _⟩ hspec hwhole
  have hended := hend job hget (by rw [hcompleted]; rfl)
  rw [hcompleted] at hended
  refine ⟨platform, ls, c, h, hended, ?_⟩
  rcases hout _ hended with ⟨-, hcommitted⟩ | ⟨hstate | hstate, -⟩ | hstate
  · exact hcommitted
  · nomatch hstate
  · nomatch hstate
  · nomatch hstate

end

/-! ## Staging files -/

/-- A job only removes the staging file it has created. Once it has ended, the file has
    been committed or removed, or the job is flagged. -/
theorem staging_of_run (h : (system calls).machine.Run ls c)
    (hadmitted : Admitted c.shared.log j spec) :
    (∀ i path pre post, i.jobId = some j →
      c.shared.log = pre ++ sftp (.request i (.remove path)) :: post → Created pre j path) ∧
    ((∀ job, c.shared.state.jobs.get j = some job → terminal job.view.state = true) →
      ∀ path, Created c.shared.log j path →
        (∃ destination, Committed c.shared.log j path destination) ∨ Removed c.shared.log j path ∨
          ∃ job, c.shared.state.jobs.get j = some job ∧ job.cleanupUnconfirmed = true) := by
  have hinv := ((sound_protocol calls).of_run h).inv
  refine ⟨fun i path pre post hi hlog => (hinv.rule pre _ post hlog j hi).2.2,
    fun hterminal path hpath => ?_⟩
  have hfinished : ∃ state, c.shared.EndedAs j state := by
    rcases hinv.records.kept j spec hadmitted with ⟨i, state, hfin, hi⟩ | ⟨job, hget⟩
    · exact ⟨state, i, hfin, hi⟩
    · exact ⟨_, hinv.endedAs hget (hterminal job hget)⟩
  obtain ⟨state, hend⟩ := hfinished
  obtain ⟨-, i, pre, post, hi, hlog, hending⟩ := hinv.ending hend hadmitted
  have hcreated : Created pre j path := by
    rw [hlog, created_append] at hpath
    refine hpath.resolve_right fun ⟨_, _, _, he, _⟩ => ?_
    exact hinv.silent_of_finished hlog hi ((List.mem_cons.1 he).resolve_left nofun) rfl
  have hsub : ∀ e ∈ pre, e ∈ c.shared.log := fun e he => hlog ▸ List.mem_append_left _ he
  rcases hending.tidy.staged path hcreated with ⟨destination, hd⟩ | ⟨i', cleanup, he, hi'⟩ | hu
  · exact .inl ⟨destination, hd.mono hsub⟩
  · exact .inr (.inl ⟨i', cleanup, hsub _ he, hi'⟩)
  · refine .inr (.inr (hinv.records.unconfirmed j ?_))
    obtain ⟨i', he, hi'⟩ := hu
    exact ⟨i', hsub _ he, hi'⟩

omit [Platform] in
theorem staging_uploaded : ∃ _ : Platform, ∃ ls c, (system uploadCalls).machine.Run ls c ∧
    Created c.shared.log ⟨1⟩ uploadedFile ∧
    ((∃ destination, Committed c.shared.log ⟨1⟩ uploadedFile destination) ∨
      Removed c.shared.log ⟨1⟩ uploadedFile ∨
      ∃ job, c.shared.state.jobs.get ⟨1⟩ = some job ∧ job.cleanupUnconfirmed = true) := by
  obtain ⟨platform, -, ⟨ls, c, h, hstate, hadmitted, hanswer, -⟩, -⟩ := exists_run_upload
  have hcreated : Created c.shared.log ⟨1⟩ uploadedFile := ⟨_, _, _, hanswer, rfl⟩
  refine ⟨platform, ls, c, h, hcreated, ?_⟩
  refine (staging_of_run h ⟨⟨0⟩, _, hadmitted, List.mem_singleton_self _⟩).2 (fun job hget => ?_)
    uploadedFile hcreated
  rw [hget] at hstate
  have hcompleted : job.view.state = .completed := Option.some.inj hstate
  rw [hcompleted]
  rfl

/-! ## Quiescence -/

/-- There is nothing left to do for the session. -/
structure Quiescent (s : TransferManager) (session : HostId × HostSessionId) : Prop where
  records : ∀ j job, s.state.jobs.get j = some job → job.view.session = session →
    terminal job.view.state = true ∧ job.cleanupUnconfirmed = false
  removals : ∀ j spec, Admitted s.log j spec → spec.session = session →
    Finished s.log j ∧ ¬Unconfirmed s.log j ∧ Settled s.log j SftpRequest.Removes

/-- What a step does to the records of the jobs: once the history has been trimmed, it is
    short enough or cannot be shortened, and jobs are added as whole batches. -/
structure RecordStep (calls : TaskId → TransferCall) (s s' : TransferManager) : Prop where
  trimmed : ∀ e, s'.log = s.log ++ [e] → e.Trims → s'.state.Trimmed
  added : ∀ j, s.state.jobs.get j = none → s'.state.jobs.get j ≠ none →
    ∃ t jobs, s'.log = s.log ++ [admitted t jobs]
  admits : ∀ t jobs, s'.log = s.log ++ [admitted t jobs] → Admits calls t jobs s s'

/-- The records of the jobs are in order. Trimming ends by itself, and removes the oldest of
    those that may be removed. -/
theorem records_of_run (h : (system calls).machine.Run ls c) :
    c.shared.state.Ok ∧
    (∀ l c', (system calls).machine.step c l c' → RecordStep calls c.shared c'.shared) ∧
    ∀ m : ManagerState, m.order.Nodup → (∀ id ∈ m.jobs.keys, id ∈ m.order) →
      (∀ n, m.order.length ≤ n → m.trimHistory = ManagerState.trimLoop n m) ∧
      m.trimHistory.Trimmed ∧
      ∃ k, ManagerState.Forgets m m.trimHistory ((m.order.filter m.eligible).take k) := by
  have hc := (sound_protocol calls).of_run h
  refine ⟨hc.inv.ok, fun l c' hs => ?_, fun m hnodup hlisted => ⟨fun n hn => ?_, ?_, ?_⟩⟩
  · rcases guarantee_of_step hc hs with heq | ⟨i, -, hg⟩
    · rw [heq]
      exact ⟨fun e he => absurd he (by simp), fun j hnone hsome => absurd hnone hsome,
        fun t jobs he => absurd he (by simp)⟩
    · exact ⟨hg.trimmed, hg.added, hg.admits⟩
  · exact (trimLoop_eq_trimHistory hn).symm
  · exact trimLoop_trimmed _ le_rfl hlisted
  · exact trimLoop_forgets _ hnodup

omit [Platform] in
theorem records_uploaded : ∃ _ : Platform, ∃ ls c, (system uploadCalls).machine.Run ls c ∧
    c.shared.state.jobs.get ⟨1⟩ ≠ none ∧ c.shared.state.Ok := by
  obtain ⟨platform, -, ⟨ls, c, h, hstate, -⟩, -⟩ := exists_run_upload
  obtain ⟨job, hget, -⟩ := Option.map_eq_some_iff.1 hstate
  exact ⟨platform, ls, c, h, by simp [hget], (records_of_run h).1⟩

/-! ## Exclusion -/

/-- The job is inside `run_transfer`. -/
def Inside (s : TransferManager) (j : TransferJobId) : Prop :=
  ∃ lock, s.scheduler.place j = .transferring lock

/-- A job inside `run_transfer` holds both permits, and the lock of its destination. -/
theorem Inv.of_inside (h : s.Inv) (hj : s.Inside j) (hspec : s.spawned j = some spec) :
    j ∈ s.scheduler.global ∧ j ∈ s.scheduler.hosts spec.client.info.hostId ∧
      ∃ lock l, s.scheduler.destinations (destinationKey spec) = some lock ∧
        s.scheduler.locks lock = some l ∧ l.holder = some j := by
  obtain ⟨lock, hplace⟩ := hj
  obtain ⟨-, spec', hspec', hin⟩ := h.scheduled.placed j (by rw [hplace]; exact nofun)
  obtain rfl := Option.mem_unique hspec hspec'
  obtain ⟨hglobal, hhost, l, hl, hholder⟩ := hin.inside lock hplace
  exact ⟨hglobal, hhost, lock, l, (hin.locked lock (by rw [hplace]; rfl)).1, hl, hholder⟩

/-- The job waits for a permit or a lock that is not to be had, and has not been
    cancelled. -/
def Blocked (s : TransferManager) (j : TransferJobId) : Prop :=
  s.cancelled j = false ∧ match s.scheduler.place j with
    | .awaitingHost => ∃ spec, s.spawned j = some spec ∧
        HOST_ACTIVE ≤ (s.scheduler.hosts spec.client.info.hostId).card
    | .awaitingGlobal => GLOBAL_ACTIVE ≤ s.scheduler.global.card
    | .awaitingDestination lock => ∃ l, s.scheduler.locks lock = some l ∧ l.holder ≠ none
    | _ => False

/-- A job that holds a permit, and is not held up by others. -/
structure Runs (s : TransferManager) (j : TransferJobId) : Prop where
  spawned : s.spawned j ≠ none
  done : s.done j = false
  free : ¬s.Blocked j
  permit : j ∈ s.scheduler.global ∨ ∃ host, j ∈ s.scheduler.hosts host

/-- The holder of a lock is inside `run_transfer`. -/
theorem Inv.runs_of_holder (h : s.Inv) {lock : DestinationLockId} {l : DestinationLock}
    (hl : s.scheduler.locks lock = some l) (hj : l.holder = some j) : s.Runs j := by
  obtain ⟨hdone, hspawned, hplace⟩ := h.scheduled.holder lock l j hl hj
  obtain ⟨spec, hspec⟩ := Option.ne_none_iff_exists'.1 hspawned
  refine ⟨hspawned, hdone, fun hblocked => ?_, .inl (h.of_inside ⟨lock, hplace⟩ hspec).1⟩
  rw [Blocked, hplace] at hblocked
  exact hblocked.2

omit [Platform] in
/-- What a job is blocked by. -/
theorem Blocked.cases (h : s.Blocked j) :
    s.scheduler.place j = .awaitingHost ∧ (∃ host j', j' ∈ s.scheduler.hosts host) ∨
    s.scheduler.place j = .awaitingGlobal ∧ (∃ j', j' ∈ s.scheduler.global) ∨
    ∃ lock l j', s.scheduler.locks lock = some l ∧ l.holder = some j' := by
  obtain ⟨-, h⟩ := h
  split at h
  · next hplace =>
    obtain ⟨spec, -, hcard⟩ := h
    obtain ⟨j', hj'⟩ := Finset.card_pos.1 (Nat.lt_of_lt_of_le (by decide) hcard)
    exact .inl ⟨hplace, _, j', hj'⟩
  · next hplace =>
    obtain ⟨j', hj'⟩ := Finset.card_pos.1 (Nat.lt_of_lt_of_le (by decide) h)
    exact .inr (.inl ⟨hplace, j', hj'⟩)
  · obtain ⟨l, hl, hholder⟩ := h
    obtain ⟨j', hj'⟩ := Option.ne_none_iff_exists'.1 hholder
    exact .inr (.inr ⟨_, l, j', hl, hj'⟩)
  · exact h.elim

/-- A job with a permit of the manager can only wait for a lock. -/
theorem Inv.runs_of_global (h : s.Inv) (hj : j ∈ s.scheduler.global) : ∃ j', s.Runs j' := by
  obtain ⟨hdone, hspawned, hhost, hglobal⟩ := h.scheduled.global j hj
  by_cases hblocked : s.Blocked j
  · rcases hblocked.cases with ⟨hplace, -⟩ | ⟨hplace, -⟩ | ⟨lock, l, j', hl, hj'⟩
    · exact absurd hplace hhost
    · exact absurd hplace hglobal
    · exact ⟨j', h.runs_of_holder hl hj'⟩
  · exact ⟨j, hspawned, hdone, hblocked, .inl hj⟩

/-- A job with a permit of its host can only wait for one of the manager, or for a lock. -/
theorem Inv.runs_of_host (h : s.Inv) {host : HostId} (hj : j ∈ s.scheduler.hosts host) :
    ∃ j', s.Runs j' := by
  obtain ⟨hdone, hspawned, hhost⟩ := h.scheduled.hosts host j hj
  by_cases hblocked : s.Blocked j
  · rcases hblocked.cases with ⟨hplace, -⟩ | ⟨-, j', hj'⟩ | ⟨lock, l, j', hl, hj'⟩
    · exact absurd hplace hhost
    · exact h.runs_of_global hj'
    · exact ⟨j', h.runs_of_holder hl hj'⟩
  · exact ⟨j, hspawned, hdone, hblocked, .inr ⟨host, hj⟩⟩

/-- A job is only blocked by jobs that can go on. -/
theorem Inv.runs_of_blocked (h : s.Inv) (hblocked : s.Blocked j) : ∃ j', s.Runs j' := by
  rcases hblocked.cases with ⟨-, host, j', hj'⟩ | ⟨-, j', hj'⟩ | ⟨lock, l, j', hl, hj'⟩
  · exact h.runs_of_host hj'
  · exact h.runs_of_global hj'
  · exact ⟨j', h.runs_of_holder hl hj'⟩

/-- As long as a job has not ended, and has not been dropped, some job is not blocked: one
    that has not ended either, or one that still holds a permit. -/
theorem progress_of_run (h : (system calls).machine.Run ls c) (hspawned : c.shared.spawned j ≠ none)
    (hactive : c.shared.Unfinished j) (hwhole : .sftp (.dropped (.job j)) ∉ c.shared.log) :
    ∃ j', c.shared.spawned j' ≠ none ∧ c.shared.done j' = false ∧ ¬c.shared.Blocked j' ∧
      (c.shared.Unfinished j' ∨ j' ∈ c.shared.scheduler.global ∨
        ∃ host, j' ∈ c.shared.scheduler.hosts host) := by
  have hinv := ((sound_protocol calls).of_run h).inv
  by_cases hblocked : c.shared.Blocked j
  · obtain ⟨j', hj'⟩ := hinv.runs_of_blocked hblocked
    exact ⟨j', hj'.spawned, hj'.done, hj'.free, .inr hj'.permit⟩
  · refine ⟨j, hspawned, ?_, hblocked, .inl hactive⟩
    by_contra hdone
    rcases hinv.tickets.done j (by simpa using hdone) with hfin | hdropped
    · exact hinv.records.active j hactive hfin
    · exact hwhole hdropped

section

omit [Platform]

/-- The job that waits for its host in the run of `cancelCalls`. -/
theorem exists_run_waiting : ∃ _ : Platform, ∃ ls c, (system cancelCalls).machine.Run ls c ∧
    c.shared.spawned ⟨3⟩ ≠ none ∧ c.shared.Unfinished ⟨3⟩ ∧ c.shared.Blocked ⟨3⟩ ∧
    .sftp (.dropped (.job ⟨3⟩)) ∉ c.shared.log ∧ ∀ j, c.shared.Unfinished j → j = ⟨3⟩ := by
  obtain ⟨platform, -, ls, c, h, hspawned, hactive, hcancelled, hplace, hhosts, hwhole⟩ :=
    exists_run_cancel
  have hiff : ∀ j, c.shared.Unfinished j ↔ j = ⟨3⟩ := fun j => by
    rw [← Finset.mem_singleton, ← hactive, Table.mem_keysWhere]
    simp [Unfinished]
  refine ⟨platform, ls, c, h, by simp [hspawned], (hiff _).2 rfl, ⟨hcancelled, ?_⟩, hwhole,
    fun j => (hiff j).1⟩
  have hhost : uploadSpec.client.info.hostId = ⟨1⟩ := rfl
  rw [hplace]
  exact ⟨uploadSpec, hspawned, by rw [hhost, hhosts]; decide⟩

theorem progress_waiting : ∃ _ : Platform, ∃ ls c, (system cancelCalls).machine.Run ls c ∧
    c.shared.Blocked ⟨3⟩ ∧ ∃ j, c.shared.spawned j ≠ none ∧ ¬c.shared.Blocked j := by
  obtain ⟨platform, ls, c, h, hspawned, hactive, hblocked, hwhole, -⟩ := exists_run_waiting
  obtain ⟨j, hj, -, hfree, -⟩ := progress_of_run h hspawned hactive hwhole
  exact ⟨platform, ls, c, h, hblocked, j, hj, hfree⟩

/-- All jobs that have not ended may be blocked for a moment: by jobs that have, and are
    about to give back their permits. -/
theorem all_unfinished_blocked : ∃ _ : Platform, ∃ ls c, (system cancelCalls).machine.Run ls c ∧
    (∃ j, c.shared.spawned j ≠ none ∧ c.shared.Unfinished j) ∧
    ∀ j, c.shared.Unfinished j → c.shared.Blocked j := by
  obtain ⟨platform, ls, c, h, hspawned, hactive, hblocked, -, honly⟩ := exists_run_waiting
  exact ⟨platform, ls, c, h, ⟨⟨3⟩, hspawned, hactive⟩, fun j hj => honly j hj ▸ hblocked⟩

end

end TransferManager

end NexusOps.Sftp
