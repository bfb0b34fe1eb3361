import NexusOps.Sftp.TransferProtocol

/-!
# Steps of transfers

What the sections of the jobs, the cleanups and the calls do, in terms of the protocol:
each of them keeps the invariant, and is within the guarantee of the task.

Most sections change one part of the state only. Those that change a record of a job are
cases of one lemma (`step_record`), as are those that change permits and locks
(`step_schedule`).
-/

namespace NexusOps.Sftp

open Concurrency Function ManagerState TransferEvent

variable {log es : List TransferEvent} {i : TransferTask} {j : TransferJobId} {path : String}

/-! ## Histories -/

section

theorem admittedBy_append {t : TaskId} {spec : JobSpec} : AdmittedBy (log ++ es) j t spec ↔
    AdmittedBy log j t spec ∨ AdmittedBy es j t spec := by
  simp only [AdmittedBy, List.mem_append, or_and_right, exists_or]

theorem admitted_append {spec : JobSpec} : Admitted (log ++ es) j spec ↔
    Admitted log j spec ∨ Admitted es j spec := by
  simp only [Admitted, admittedBy_append, exists_or]

theorem accepted_append : Accepted (log ++ es) j ↔ Accepted log j ∨ Accepted es j := by
  simp only [Accepted, List.mem_append, or_and_right, exists_or]

theorem finished_append : Finished (log ++ es) j ↔ Finished log j ∨ Finished es j := by
  simp only [Finished, List.mem_append, or_and_right, exists_or]

theorem unconfirmed_append : Unconfirmed (log ++ es) j ↔ Unconfirmed log j ∨ Unconfirmed es j := by
  simp only [Unconfirmed, List.mem_append, or_and_right, exists_or]

theorem created_append : Created (log ++ es) j path ↔ Created log j path ∨ Created es j path := by
  simp only [Created, List.mem_append, or_and_right, exists_or]

end

/-- The event does not concern the records of the jobs. -/
def TransferEvent.Quiet : TransferEvent → Prop
  | sftp _ => True
  | rejected _ => True
  | quiesced _ _ => True
  | commit _ _ => True
  | _ => False

/-- The event concerns the record of the job. -/
def TransferEvent.Concerns (j : TransferJobId) : TransferEvent → Prop
  | admitted _ jobs => j ∈ jobs.map Prod.fst
  | finished i _ => i.jobId = some j
  | unconfirmed i => i.jobId = some j
  | finalizing j' => j' = j
  | _ => False

/-- What the task of a job logs concerns this job only. -/
theorem TransferEvent.Concerns.eq {e : TransferEvent} {j' : TransferJobId} (h : e.Concerns j')
    (hj : e.task.jobId = some j) : j' = j := by
  cases e with
  | finished i state => exact Option.mem_unique h hj
  | unconfirmed i => exact Option.mem_unique h hj
  | finalizing j'' => exact h.symm.trans (Option.some.inj hj)
  | admitted t jobs => nomatch hj
  | _ => exact h.elim

namespace TransferManager

variable {s s' : TransferManager} {calls : TaskId → TransferCall}

/-! ## Records -/

theorem Changes.refl {job : JobRecord} : Changes i j job job := ⟨.inl rfl, rfl, fun _ => rfl⟩

/-- The record of a job agrees with the log. -/
structure RecordOk (log : List TransferEvent) (ids : Finset TransferJobId) (j : TransferJobId)
    (record : Option JobRecord) : Prop where
  known : ∀ job, record = some job → ∃ spec, Admitted log j spec ∧ job.view.session = spec.session
  kept : ∀ spec, Admitted log j spec → Finished log j ∨ ∃ job, record = some job
  ended : ∀ job, record = some job → terminal job.view.state = true →
    ∃ i, i.jobId = some j ∧ .finished i job.view.state ∈ log
  active : ∀ job, record = some job → terminal job.view.state = false → ¬Finished log j
  finalizing : ∀ job, .finalizing j ∈ log → record = some job →
    job.view.state = .finalizing ∨ terminal job.view.state = true
  unconfirmed : Unconfirmed log j → ∃ job, record = some job ∧ job.cleanupUnconfirmed = true
  used : ∀ spec, Admitted log j spec → j ∈ ids
  unique : ∀ t t' spec spec', AdmittedBy log j t spec → AdmittedBy log j t' spec' →
    t = t' ∧ spec = spec'
  flagged : ∀ job, record = some job → job.cleanupUnconfirmed = true → Unconfirmed log j

theorem Records.record (h : s.Records) (j : TransferJobId) :
    RecordOk s.log s.jobIds j (s.state.jobs.get j) :=
  ⟨h.known j, h.kept j, h.ended j, fun job hget hactive => h.active j ⟨job, hget, hactive⟩,
    h.finalizing j, h.unconfirmed j, h.used j, h.unique j, h.flagged j⟩

theorem Records.of_each (h : ∀ j, RecordOk s.log s.jobIds j (s.state.jobs.get j))
    (haccepted : ∀ j, Accepted s.log j → s.cancelled j = true)
    (hdisconnecting : ∀ t session, .disconnected t session ∈ s.log →
      session ∈ s.state.disconnecting) : s.Records :=
  ⟨fun j => (h j).known, fun j => (h j).kept, fun j => (h j).ended,
    fun j ⟨job, hget, hactive⟩ => (h j).active job hget hactive, haccepted,
    fun j => (h j).finalizing, fun j => (h j).unconfirmed, hdisconnecting, fun j => (h j).used,
    fun j => (h j).unique, fun j => (h j).flagged⟩

section

variable {ids : Finset TransferJobId} {record : Option JobRecord} {job : JobRecord}

/-- What does not concern the record may be logged. -/
theorem RecordOk.append (h : RecordOk log ids j record) (hes : ∀ e ∈ es, ¬e.Concerns j) :
    RecordOk (log ++ es) ids j record := by
  have hmem : ∀ e, e.Concerns j → (e ∈ log ++ es ↔ e ∈ log) := fun e he => by
    rw [List.mem_append]
    exact or_iff_left fun he' => hes e he' he
  have hadmitted : ∀ t spec, AdmittedBy (log ++ es) j t spec ↔ AdmittedBy log j t spec :=
    fun t spec => exists_congr fun jobs => and_congr_left fun hj =>
      hmem (.admitted t jobs) (List.mem_map_of_mem hj)
  have hfinished : Finished (log ++ es) j ↔ Finished log j :=
    exists_congr fun i => exists_congr fun state => and_congr_left (hmem (.finished i state))
  have hunconfirmed : Unconfirmed (log ++ es) j ↔ Unconfirmed log j :=
    exists_congr fun i => and_congr_left (hmem (.unconfirmed i))
  obtain ⟨h₁, h₂, h₃, h₄, h₅, h₆, h₇, h₈, h₉⟩ := h
  constructor <;> (try simp only [Admitted, hadmitted, hfinished, hunconfirmed]) <;> try assumption
  · intro job hjob hterminal
    obtain ⟨i, hi, hfin⟩ := h₃ job hjob hterminal
    exact ⟨i, hi, List.mem_append_left es hfin⟩
  · exact fun job hj => h₅ job ((hmem (.finalizing j) rfl).1 hj)

/-- A job is forgotten that has ended, and has left nothing behind. -/
theorem RecordOk.forget (h : RecordOk log ids j (some job)) (hterminal : terminal job.view.state = true)
    (hconfirmed : job.cleanupUnconfirmed = false) : RecordOk log ids j none := by
  obtain ⟨i, hi, hfin⟩ := h.ended job rfl hterminal
  have hnone : ∀ {p : Prop} {job : JobRecord}, none = some job → p := nofun
  refine ⟨fun _ => hnone, fun _ _ => .inl ⟨i, _, hfin, hi⟩, fun _ => hnone, fun _ => hnone,
    fun _ _ => hnone, fun hj => ?_, h.used, h.unique, fun _ => hnone⟩
  obtain ⟨_, ⟨⟩, hflag⟩ := h.unconfirmed hj
  nomatch hconfirmed.symm.trans hflag

end

/-- A step that leaves the records as they are. -/
theorem Records.of_quiet (h : s.Records) (hes : ∀ e ∈ es, e.Quiet) (hlog : s'.log = s.log ++ es)
    (hjobs : s'.state.jobs = s.state.jobs) (hcancelled : s'.cancelled = s.cancelled)
    (hdisconnecting : s'.state.disconnecting = s.state.disconnecting)
    (hids : s'.jobIds = s.jobIds) : s'.Records := by
  refine .of_each (fun j => ?_) (fun j ⟨t, jobs, he, hj⟩ => ?_) fun t session he => ?_
  · rw [hlog, hjobs, hids]
    refine (h.record j).append fun e he hj => ?_
    have hquiet := hes e he
    cases e <;> first | exact hj.elim | exact hquiet.elim
  · rw [hlog] at he
    rw [hcancelled]
    exact h.accepted j ⟨t, jobs, (List.mem_append.1 he).resolve_right fun he => hes _ he, hj⟩
  · rw [hlog] at he
    rw [hdisconnecting]
    exact h.disconnecting t session ((List.mem_append.1 he).resolve_right fun he => hes _ he)

theorem Records.congr (h : s.Records) (hlog : s'.log = s.log)
    (hjobs : s'.state.jobs = s.state.jobs) (hcancelled : s'.cancelled = s.cancelled)
    (hdisconnecting : s'.state.disconnecting = s.state.disconnecting)
    (hids : s'.jobIds = s.jobIds) : s'.Records :=
  h.of_quiet (fun _ he => absurd he List.not_mem_nil) (hlog.trans (List.append_nil _).symm) hjobs hcancelled hdisconnecting hids

/-- A part of the history is forgotten: only jobs that have ended, and that have left
    nothing behind. -/
structure Retains (m m' : ManagerState) : Prop where
  get : ∀ j, m'.jobs.get j = m.jobs.get j ∨ m'.jobs.get j = none ∧ ∃ job,
    m.jobs.get j = some job ∧ terminal job.view.state = true ∧ job.cleanupUnconfirmed = false
  disconnecting : m'.disconnecting = m.disconnecting
  cleanupTasks : m'.cleanupTasks = m.cleanupTasks

theorem Retains.refl (m : ManagerState) : Retains m m := ⟨fun _ => .inl rfl, rfl, rfl⟩

theorem retains_trimHistory {m : ManagerState} (h : m.Ok) : Retains m m.trimHistory := by
  obtain ⟨⟨k, hk⟩, -⟩ := trimHistory_spec h
  refine ⟨fun j => ?_, hk.disconnecting, hk.cleanupTasks⟩
  rcases get_trimHistory h j with heq | ⟨hnone, heligible⟩
  · exact .inl heq
  · obtain ⟨job, hget, hterminal, hconfirmed, -⟩ := eligible_iff.1 heligible
    exact .inr ⟨hnone, job, hget, hterminal, hconfirmed⟩

theorem Retains.of_get {m m' : ManagerState} {job : JobRecord} (h : Retains m m')
    (hget : m'.jobs.get j = some job) : m.jobs.get j = some job := by
  rcases h.get j with heq | ⟨hnone, -⟩
  · exact heq ▸ hget
  · rw [hnone] at hget
    nomatch hget

/-- A job that has not ended is not forgotten. -/
theorem Retains.get_of_active {m m' : ManagerState} {job : JobRecord} (h : Retains m m')
    (hget : m.jobs.get j = some job) (hactive : terminal job.view.state = false) :
    m'.jobs.get j = some job := by
  rcases h.get j with heq | ⟨-, job', hget', hterminal, -⟩
  · exact heq.trans hget
  · rw [hget] at hget'
    rw [← Option.some.inj hget', hactive] at hterminal
    nomatch hterminal

/-- A part of the history is forgotten. -/
theorem Records.retain {m : ManagerState} (h : s.Records) (hm : Retains s.state m) :
    { s with state := m }.Records := by
  refine .of_each (fun j => ?_) h.accepted fun t session ht => ?_
  · have hj := h.record j
    change RecordOk s.log s.jobIds j (m.jobs.get j)
    rcases hm.get j with heq | ⟨hnone, job, hget, hterminal, hconfirmed⟩
    · rwa [heq]
    · rw [hget] at hj
      rw [hnone]
      exact hj.forget hterminal hconfirmed
  · change session ∈ m.disconnecting
    rw [hm.disconnecting]
    exact h.disconnecting t session ht

/-- What a section does to the record of a job it works on, and what it logs. -/
structure Update (i : TransferTask) (j : TransferJobId) (log es : List TransferEvent)
    (job job' : JobRecord) : Prop where
  session : job'.view.session = job.view.session
  flagged : job.cleanupUnconfirmed = true → job'.cleanupUnconfirmed = true
  specs : job.activeSpec.isSome = true → (job'.activeSpec.isSome = true ↔
    terminal job'.view.state = false)
  moves : Moves i j job.view.state job'.view.state
  moved : job'.view.state = .cancelRequested → job.view.state = .cancelRequested
  admitted : ∀ j t spec, ¬AdmittedBy es j t spec
  accepted : ∀ j, ¬Accepted es j
  disconnected : ∀ t session, .disconnected t session ∉ es
  others : ∀ e ∈ es, e.task = i
  ended : terminal job'.view.state = true → .finished i job'.view.state ∈ es
  active : Finished es j → terminal job'.view.state = true
  finalizing : finalizing j ∈ log ++ es →
    job'.view.state = .finalizing ∨ terminal job'.view.state = true
  unconfirmed : Unconfirmed es j → job'.cleanupUnconfirmed = true
  unflagged : job.cleanupUnconfirmed = false → job'.cleanupUnconfirmed = true → Unconfirmed es j

section

variable {f : JobRecord → JobRecord} {job : JobRecord}

theorem RecordOk.update {ids : Finset TransferJobId} {job' : JobRecord}
    (h : RecordOk log ids j (some job)) (hactive : terminal job.view.state = false)
    (hi : i.jobId = some j) (hu : Update i j log es job job') :
    RecordOk (log ++ es) ids j (some job') := by
  have hadmittedBy : ∀ {t spec}, AdmittedBy (log ++ es) j t spec → AdmittedBy log j t spec :=
    fun hspec => (admittedBy_append.1 hspec).resolve_right (hu.admitted j _ _)
  refine ⟨?_, fun _ _ => .inr ⟨job', rfl⟩, ?_, ?_, ?_, fun hj => ⟨job', rfl, ?_⟩,
    fun spec ⟨t, ht⟩ => h.used spec ⟨t, hadmittedBy ht⟩,
    fun t t' spec spec' ht ht' => h.unique t t' spec spec' (hadmittedBy ht) (hadmittedBy ht'), ?_⟩
  · rintro _ ⟨⟩
    obtain ⟨spec, hspec, hsession⟩ := h.known job rfl
    exact ⟨spec, admitted_append.2 (.inl hspec), hu.session.trans hsession⟩
  · rintro _ ⟨⟩ hterminal
    exact ⟨i, hi, List.mem_append_right _ (hu.ended hterminal)⟩
  · rintro _ ⟨⟩ hactive' hfin
    rcases finished_append.1 hfin with hold | hnew
    · exact h.active job rfl hactive hold
    · nomatch hactive'.symm.trans (hu.active hnew)
  · rintro _ hj ⟨⟩
    exact hu.finalizing hj
  · rcases unconfirmed_append.1 hj with hold | hnew
    · obtain ⟨_, ⟨⟩, hflag⟩ := h.unconfirmed hold
      exact hu.flagged hflag
    · exact hu.unconfirmed hnew
  · rintro _ ⟨⟩ hflag
    refine unconfirmed_append.2 ?_
    cases hold : job.cleanupUnconfirmed with
    | true => exact .inl (h.flagged job rfl hold)
    | false => exact .inr (hu.unflagged hold hflag)

/-- A section that changes the record of a job. -/
theorem Records.update (h : s.Records) (hget : s.state.jobs.get j = some job)
    (hactive : terminal job.view.state = false) (hi : i.jobId = some j)
    (hu : Update i j s.log es job (f job)) :
    { s with state := s.state.update j f, log := s.log ++ es }.Records := by
  refine .of_each (fun j' => ?_)
    (fun j' hj' => h.accepted j' ((accepted_append.1 hj').resolve_right (hu.accepted j')))
    fun t session ht => ?_
  · have hj' := h.record j'
    change RecordOk _ _ _ ((s.state.update j f).jobs.get j')
    by_cases heq : j' = j
    · subst heq
      rw [hget] at hj'
      rw [get_update_self hget]
      exact hj'.update hactive hi hu
    · rw [get_update_of_ne heq]
      refine hj'.append fun e he hconcerns => heq (hconcerns.eq ?_)
      rw [hu.others e he, hi]
  · have hold := (List.mem_append.1 ht).resolve_right (hu.disconnected t session)
    change session ∈ (s.state.update j f).disconnecting
    rw [update_of_get hget]
    exact h.disconnecting t session hold

theorem Update.ok (hu : Update i j log es job (f job)) (h : s.state.Ok)
    (hget : s.state.jobs.get j = some job) (hactive : terminal job.view.state = false) :
    (s.state.update j f).Ok := by
  refine h.update (fun job' hget' _ => ?_) fun job' hget' => ?_
  · rwa [← Option.mem_unique hget hget']
  · rw [← Option.mem_unique hget hget']
    exact hu.specs ((h.specs j job hget).2 hactive)

/-- The record of a job is changed, and the job has not ended. -/
theorem Update.of_active {job' : JobRecord} (hsession : job'.view.session = job.view.session)
    (hflag : job'.cleanupUnconfirmed = job.cleanupUnconfirmed)
    (hspec : job'.activeSpec = job.activeSpec)
    (hmoves : Moves i j job.view.state job'.view.state)
    (hmoved : job'.view.state = .cancelRequested → job.view.state = .cancelRequested)
    (hactive : terminal job'.view.state = false)
    (hfinalizing : .finalizing j ∈ log → job'.view.state = .finalizing) :
    Update i j log [] job job' where
  session := hsession
  flagged h := hflag.trans h
  specs h := iff_of_true (by rw [hspec, h]) hactive
  moves := hmoves
  moved := hmoved
  admitted := fun _ _ _ ⟨_, he, _⟩ => absurd he List.not_mem_nil
  accepted := fun _ ⟨_, _, he, _⟩ => absurd he List.not_mem_nil
  disconnected := fun _ _ he => absurd he List.not_mem_nil
  others := fun _ he => absurd he List.not_mem_nil
  ended h := nomatch hactive.symm.trans h
  active := fun ⟨_, _, he, _⟩ => absurd he List.not_mem_nil
  finalizing h := .inl (hfinalizing (List.append_nil log ▸ h))
  unconfirmed := fun ⟨_, he, _⟩ => absurd he List.not_mem_nil
  unflagged hold hnew := nomatch hold.symm.trans (hflag.symm.trans hnew)

/-- A job starts to be finalized. -/
theorem Update.finalizing_job (hspec : job.activeSpec.isSome = true)
    (hrequested : job.view.state ≠ .cancelRequested) :
    Update (.job j) j log [.finalizing j] job
      { job with view := { job.view with state := .finalizing } } := by
  constructor <;> simp_all [Moves, AdmittedBy, Accepted, Finished, Unconfirmed,
    terminal, TransferJob.session, task, TransferTask.jobId]

/-- A job is flagged. -/
theorem Update.unconfirmed_job (hi : i.jobId = some j) (hactive : terminal job.view.state = false)
    (hfinalizing : .finalizing j ∈ log → job.view.state = .finalizing) :
    Update i j log [.unconfirmed i] job { job with cleanupUnconfirmed := true } := by
  constructor <;> simp_all [Moves, AdmittedBy, Accepted, Finished, Unconfirmed,
    terminal, TransferJob.session, task]

/-- A job ends. -/
theorem Update.finished_job {job' : JobRecord} (hi : i.jobId = some j) (hsession : job'.view.session = job.view.session)
    (hflag : job'.cleanupUnconfirmed = job.cleanupUnconfirmed) (hspec : job'.activeSpec = none)
    (hterminal : terminal job'.view.state = true) :
    Update i j log [.finished i job'.view.state] job job' := by
  have hmoved : job'.view.state ≠ .cancelRequested := by
    intro heq
    rw [heq] at hterminal
    nomatch hterminal
  constructor <;> simp_all [Moves, AdmittedBy, Accepted, Finished, Unconfirmed, task]

end

/-! ## Other parts of the invariant -/

theorem Unfinished.admitted (h : s.Records) (hj : s.Unfinished j) : ∃ spec, Admitted s.log j spec := by
  obtain ⟨job, hget, -⟩ := hj
  obtain ⟨spec, hspec, -⟩ := h.known j job hget
  exact ⟨spec, hspec⟩

/-- What is logged by a task that works on its job does not concern who works on what. -/
theorem Tickets.append (h : s.Tickets) (hlog : s'.log = s.log ++ es)
    (hes : ∀ e ∈ es, e.task = i ∧ s.Owns i) (hspawned : s'.spawned = s.spawned)
    (hcleanups : s'.cleanups = s.cleanups) (hdone : s'.done = s.done) : s'.Tickets := by
  have hmem : ∀ {e}, e ∈ s.log → e ∈ s'.log := fun he => hlog ▸ List.mem_append_left es he
  refine ⟨fun j spec hj => ?_, fun j path hj => ?_, fun j e he => ?_, fun j hj => ?_⟩
  · rw [hspawned] at hj
    exact hlog ▸ admitted_append.2 (.inl (h.spawned j spec hj))
  · rw [hcleanups] at hj
    obtain ⟨hsome, hdropped, hcreated⟩ := h.cleanups j path hj
    refine ⟨hspawned ▸ hsome, hmem hdropped, fun path' => ?_⟩
    rw [hlog, created_append, ← hcreated path']
    -- The job has been dropped, so what is logged now is not by the job.
    refine or_iff_left fun ⟨_, _, _, he, _⟩ => ?_
    obtain ⟨rfl, howns⟩ := hes _ he
    exact absurd howns.2 (by rw [hj]; exact nofun)
  · rw [hspawned, hcleanups]
    rw [hlog] at he
    rcases List.mem_append.1 he with he | he
    · exact h.owned j e he
    · obtain ⟨rfl, howns⟩ := hes e he
      refine ⟨fun htask => ?_, fun htask => ?_⟩
      · rw [htask] at howns
        exact howns.1
      · rw [htask] at howns
        exact howns
  · rw [hdone] at hj
    refine (h.done j hj).imp (fun hfin => ?_) hmem
    exact hlog ▸ finished_append.2 (.inl hfin)

section

variable [Platform]

theorem Scheduled.congr (h : s.Scheduled) (hscheduler : s'.scheduler = s.scheduler)
    (hspawned : s'.spawned = s.spawned) (hdone : s'.done = s.done) : s'.Scheduled := by
  obtain ⟨h₁, h₂, h₃, h₄, h₅, h₆, h₇⟩ := h
  constructor <;> simp only [hscheduler, hspawned, hdone] <;> try assumption
  intro j hj
  obtain ⟨hd, spec, hspec, hplace⟩ := h₇ j hj
  refine ⟨hd, spec, hspec, ⟨?_, ?_⟩⟩
  · rw [hscheduler]
    exact hplace.locked
  · rw [hscheduler]
    exact hplace.inside

end

/-- Nothing is seen of a step that leaves the records as they are. -/
theorem Shows.of_same (hjobs : s'.state.jobs = s.state.jobs) (hids : s'.jobIds = s.jobIds)
    (hdisconnecting : s'.state.disconnecting = s.state.disconnecting)
    (htasks : ∀ j, i.jobId ≠ some j → (j ∈ s'.state.cleanupTasks ↔ j ∈ s.state.cleanupTasks)) :
    Shows i s s' := by
  refine ⟨fun j job job' hget hget' => ?_, fun j job' hnone hget' => ?_, hids.ge,
    hdisconnecting.ge, htasks⟩
  · rw [hjobs] at hget'
    exact Option.mem_unique hget hget' ▸ .refl
  · rw [hjobs, hnone] at hget'
    nomatch hget'

/-- A step that leaves the records as they are. -/
theorem Guarantee.of_same (hlog : s'.log = s.log ++ es) (hes : ∀ e ∈ es, e.task = i ∧ s.Owns i)
    (htrims : ∀ e ∈ es, ¬e.Trims) (hjobs : s'.state.jobs = s.state.jobs) (hshows : Shows i s s')
    (hcancelled : s'.cancelled = s.cancelled)
    (hspawned : ∀ j, s'.spawned j = s.spawned j ∨ s.spawned j = none ∧ s'.Unfinished j ∧
      ∃ t spec, i = .call t ∧ AdmittedBy s.log j t spec)
    (hcleanups : ∀ j, s'.cleanups j = s.cleanups j ∨ s'.Unfinished j ∧ i = .job j ∧ s.Owns i)
    (hsame : ∀ j, i ≠ .job j → SamePrivate s s' j) : Guarantee calls i s s' := by
  have hlast : ∀ {e}, s'.log = s.log ++ [e] → ¬e.Trims := by
    intro e he
    rw [hlog] at he
    exact htrims e (List.append_cancel_left he ▸ List.mem_singleton_self e)
  refine ⟨⟨es, hlog, hes⟩, fun j hj => .inl ?_, hsame, hspawned, hcleanups,
    fun j job job' hget hget' hne heq => ?_,
    fun t j job _ _ hget _ => ⟨hjobs ▸ hget, by rw [hcancelled]⟩, fun e he htrim => ?_,
    fun j hnone hsome => ?_, fun t jobs he => ?_, hshows⟩
  · rwa [Unfinished, hjobs]
  · rw [hjobs, hget] at hget'
    exact absurd (Option.some.inj hget' ▸ heq) hne
  · exact absurd htrim (hlast he)
  · exact absurd hnone (hjobs ▸ hsome)
  · exact absurd trivial (hlast he)

/-- A step that logs nothing. -/
theorem Guarantee.of_still (hlog : s'.log = s.log) (hjobs : s'.state.jobs = s.state.jobs)
    (hshows : Shows i s s') (hcancelled : s'.cancelled = s.cancelled)
    (hspawned : ∀ j, s'.spawned j = s.spawned j ∨ s.spawned j = none ∧ s'.Unfinished j ∧
      ∃ t spec, i = .call t ∧ AdmittedBy s.log j t spec)
    (hcleanups : ∀ j, s'.cleanups j = s.cleanups j ∨ s'.Unfinished j ∧ i = .job j ∧ s.Owns i)
    (hsame : ∀ j, i ≠ .job j → SamePrivate s s' j) : Guarantee calls i s s' :=
  .of_same (hlog.trans (List.append_nil _).symm) (fun _ he => absurd he List.not_mem_nil)
    (fun _ he => absurd he List.not_mem_nil) hjobs hshows hcancelled hspawned hcleanups hsame

theorem Guarantee.refl (s : TransferManager) : Guarantee calls i s s :=
  .of_still rfl rfl (.of_same rfl rfl rfl fun _ _ => Iff.rfl) rfl (fun _ => .inl rfl)
    (fun _ => .inl rfl) fun _ _ => ⟨rfl, Iff.rfl, fun _ => Iff.rfl, rfl, rfl⟩

/-! ## Sections of jobs and cleanups -/

section

variable [Platform]

/-- The task `i` may go from one state to the other. -/
structure Allowed (calls : TaskId → TransferCall) (i : TransferTask) (s s' : TransferManager) :
    Prop where
  inv : s'.Inv
  guarantee : Guarantee calls i s s'

/-- A task logs an event that does not concern the records of the jobs. -/
theorem step_log {e : TransferEvent} (h : s.Inv) (hquiet : e.Quiet) (htrims : ¬e.Trims)
    (howns : s.Owns e.task) (hrule : Rule s.log e) :
    Allowed calls e.task s { s with log := s.log ++ [e] } := by
  have hes : ∀ e' ∈ [e], e'.task = e.task ∧ s.Owns e.task := by
    intro e' he'
    rw [List.mem_singleton.1 he']
    exact ⟨rfl, howns⟩
  have hsilent : ∀ e' ∈ [e], e'.Quiet := fun e' he' => List.mem_singleton.1 he' ▸ hquiet
  exact ⟨⟨h.ok, h.records.of_quiet hsilent rfl rfl rfl rfl rfl, h.tickets.append rfl hes rfl rfl rfl,
    h.scheduled.congr rfl rfl rfl, justified_snoc.2 ⟨h.rule, hrule⟩⟩,
    .of_same rfl hes (fun e' he' => List.mem_singleton.1 he' ▸ htrims) rfl
      (.of_same rfl rfl rfl fun _ _ => Iff.rfl) rfl (fun _ => .inl rfl) (fun _ => .inl rfl) fun _ _ => ⟨rfl, Iff.rfl, fun _ => Iff.rfl, rfl, rfl⟩⟩

/-- A task that works on its job logs a request, an answer, or that it was dropped. -/
theorem step_sftp {e : SftpEvent TransferTask} (h : s.Inv) (hi : e.task.jobId = some j)
    (howns : s.Owns e.task) (hactive : s.Unfinished j) (hrule : SftpRule s.log j e) :
    Allowed calls e.task s (record s e) := by
  refine step_log (e := .sftp e) h trivial id howns fun j' hj' => ?_
  obtain rfl : j' = j := Option.mem_unique hj' hi
  exact ⟨hactive.admitted h.records, h.records.active j' hactive, hrule⟩

variable {f : JobRecord → JobRecord} {job : JobRecord}

/-- A task that works on its job changes the record of the job, and possibly trims the
    history. -/
theorem step_record {m : ManagerState} (h : s.Inv) (hi : i.jobId = some j) (howns : s.Owns i)
    (hget : s.state.jobs.get j = some job) (hactive : terminal job.view.state = false)
    (hu : Update i j s.log es job (f job)) (hok : m.Ok) (hm : Retains (s.state.update j f) m)
    (htrimmed : ∀ e ∈ es, e.Trims → m.Trimmed) (hrule : Justified Rule (s.log ++ es)) :
    Allowed calls i s { s with state := m, log := s.log ++ es } := by
  have hes : ∀ e ∈ es, e.task = i ∧ s.Owns i := fun e he => ⟨hu.others e he, howns⟩
  have hself : (s.state.update j f).jobs.get j = some (f job) := get_update_self hget
  have hne : ∀ {j'}, j' ≠ j → (s.state.update j f).jobs.get j' = s.state.jobs.get j' :=
    fun hj' => get_update_of_ne hj'
  have hlast : ∀ {e}, s.log ++ es = s.log ++ [e] → e ∈ es := fun he =>
    List.append_cancel_left he ▸ List.mem_singleton_self _
  -- What is found afterwards was there before, or is the changed record.
  have hfound : ∀ {j' job'}, m.jobs.get j' = some job' →
      s.state.jobs.get j' = some job' ∨ j' = j ∧ job' = f job := by
    intro j' job' hget'
    by_cases hj : j' = j
    · subst hj
      exact .inr ⟨rfl, Option.mem_unique (hm.of_get hget') hself⟩
    · exact .inl ((hne hj).symm.trans (hm.of_get hget'))
  have hnotNew : ∀ {j' job'}, s.state.jobs.get j' = none → m.jobs.get j' ≠ some job' := by
    intro j' job' hnone hget'
    rcases hfound hget' with hget' | ⟨rfl, -⟩
    · nomatch hnone.symm.trans hget'
    · nomatch hnone.symm.trans hget
  have hdisconnecting : m.disconnecting = s.state.disconnecting := by
    rw [hm.disconnecting, update_of_get hget]
  have htasks : m.cleanupTasks = s.state.cleanupTasks := by
    rw [hm.cleanupTasks, update_of_get hget]
  refine ⟨⟨hok, (h.records.update hget hactive hi hu).retain hm, h.tickets.append rfl hes rfl rfl rfl,
    h.scheduled.congr rfl rfl rfl, hrule⟩, ⟨es, rfl, hes⟩, fun j' hj' => ?_,
    fun _ _ => ⟨rfl, Iff.rfl, fun _ => Iff.rfl, rfl, rfl⟩, fun _ => .inl rfl, fun _ => .inl rfl,
    fun j' job₁ job₂ hget₁ hget₂ hne₁ heq => ?_, fun t j' _ hcall => ?_,
    fun e he htrim => htrimmed e (hlast he) htrim, fun j' hnone hsome => absurd ?_ hsome,
    fun t jobs he => ?_, fun j' job₁ job₂ hget₁ hget₂ => ?_, fun j' job' hnone hget' => ?_,
    subset_rfl, hdisconnecting.ge, fun _ _ => htasks ▸ Iff.rfl⟩
  · by_cases hj : j' = j
    · exact .inr ⟨hj ▸ hi, howns⟩
    · obtain ⟨job', hget', hactive'⟩ := hj'
      exact .inl ⟨job', hm.get_of_active ((hne hj).trans hget') hactive', hactive'⟩
  · rcases hfound hget₂ with hget₂ | ⟨rfl, rfl⟩
    · obtain rfl := Option.mem_unique hget₁ hget₂
      exact absurd heq hne₁
    · obtain rfl := Option.mem_unique hget hget₁
      exact absurd (hu.moved heq) hne₁
  · rw [hcall] at hi
    nomatch hi
  · by_contra hcon
    obtain ⟨job', hget'⟩ := Option.ne_none_iff_exists'.1 hcon
    exact hnotNew hnone hget'
  · -- A batch is admitted by a call.
    have htask : TransferTask.call t = i := hu.others _ (hlast he)
    rw [← htask] at hi
    nomatch hi
  · rcases hfound hget₂ with hget₂ | ⟨rfl, rfl⟩
    · exact Option.mem_unique hget₁ hget₂ ▸ .refl
    · obtain rfl := Option.mem_unique hget hget₁
      exact ⟨hu.moves, hu.session, fun hne => absurd hi hne⟩
  · exact (hnotNew hnone hget').elim

/-- A section that changes the record of a job, and logs nothing. -/
theorem step_update (h : s.Inv) (hi : i.jobId = some j) (howns : s.Owns i)
    (hget : s.state.jobs.get j = some job) (hactive : terminal job.view.state = false)
    (hu : Update i j s.log [] job (f job)) :
    Allowed calls i s { s with state := s.state.update j f } := by
  have hlog : { s with state := s.state.update j f } =
      { s with state := s.state.update j f, log := s.log ++ [] } := by rw [List.append_nil]
  rw [hlog]
  refine step_record h hi howns hget hactive hu (hu.ok h.ok hget hactive) (.refl _)
    (fun _ he => absurd he List.not_mem_nil) ?_
  rw [List.append_nil]
  exact h.rule

/-- A job starts to be finalized: it has not been asked to stop. -/
theorem step_enterFinalizing (h : s.Inv) (howns : s.Owns (.job j))
    (hget : s.state.jobs.get j = some job) (hactive : terminal job.view.state = false)
    (hcancelled : s.cancelled j = false) (hrequested : job.view.state ≠ .cancelRequested) :
    Allowed calls (.job j) s { s with
      state := s.state.update j fun job => { job with view := { job.view with state := .finalizing } }
      log := s.log ++ [finalizing j] } := by
  have hu : Update (.job j) j s.log [.finalizing j] job _ :=
    .finalizing_job ((h.ok.specs j job hget).2 hactive) hrequested
  refine step_record (f := fun job => { job with view := { job.view with state := .finalizing } })
    h rfl howns hget hactive hu (hu.ok h.ok hget hactive) (.refl _) (fun e he => ?_) (justified_snoc.2 ⟨h.rule, fun haccepted => ?_⟩)
  · rw [List.mem_singleton.1 he]
    exact False.elim
  · rw [h.records.accepted j haccepted] at hcancelled
    nomatch hcancelled

/-- A job is flagged. -/
theorem step_markUnconfirmed (h : s.Inv) (hi : i.jobId = some j) (howns : s.Owns i)
    (hactive : s.Unfinished j) :
    Allowed calls i s
      { s with state := s.state.markUnconfirmed j, log := s.log ++ [unconfirmed i] } := by
  obtain ⟨job, hget, hactive⟩ := hactive
  have hu : Update i j s.log [.unconfirmed i] job { job with cleanupUnconfirmed := true } :=
    .unconfirmed_job hi hactive fun hmem => (h.records.finalizing j job hmem hget).resolve_right
      fun hterminal => nomatch hactive.symm.trans hterminal
  refine step_record (f := fun job => { job with cleanupUnconfirmed := true }) h hi howns hget hactive
    hu (hu.ok h.ok hget hactive) (.refl _) (fun e he => ?_) (justified_snoc.2 ⟨h.rule, trivial⟩)
  rw [List.mem_singleton.1 he]
  exact False.elim

/-- A job ends. -/
theorem step_finish {spec : JobSpec} {next : TransferState} (h : s.Inv) (hi : i.jobId = some j)
    (howns : s.Owns i) (hget : s.state.jobs.get j = some job)
    (hactive : terminal job.view.state = false) (hsession : (f job).view.session = job.view.session)
    (hflag : (f job).cleanupUnconfirmed = job.cleanupUnconfirmed) (hspec : (f job).activeSpec = none)
    (hnext : (f job).view.state = next) (hterminal : terminal next = true)
    (hadmitted : Admitted s.log j spec) (hending : Ending s.log j i spec next) :
    Allowed calls i s
      { s with state := (s.state.update j f).trimHistory, log := s.log ++ [finished i next] } := by
  subst hnext
  have hu : Update i j s.log [.finished i (f job).view.state] job (f job) :=
    .finished_job hi hsession hflag hspec hterminal
  have hok := hu.ok h.ok hget hactive
  refine step_record h hi howns hget hactive hu hok.trimHistory (retains_trimHistory hok)
    (fun _ _ _ => (trimHistory_spec hok).2)
    (justified_snoc.2 ⟨h.rule, hterminal, fun j' hj' => ?_⟩)
  obtain rfl : j' = j := Option.mem_unique hj' hi
  exact ⟨h.records.active j' ⟨job, hget, hactive⟩, spec, hadmitted, hending⟩

end

/-! ## What only concerns the task itself -/

section

variable [Platform]

/-- A section that neither logs anything nor changes a record or a ticket. -/
theorem step_private (h : s.Inv) (hlog : s'.log = s.log) (hjobs : s'.state.jobs = s.state.jobs)
    (horder : s'.state.order = s.state.order)
    (hdisconnecting : s'.state.disconnecting = s.state.disconnecting)
    (hcancelled : s'.cancelled = s.cancelled) (hspawned : s'.spawned = s.spawned)
    (hcleanups : s'.cleanups = s.cleanups) (hids : s'.jobIds = s.jobIds) (hscheduled : s'.Scheduled)
    (hdone : ∀ j, s'.done j = true → s.done j = true ∨ Finished s.log j ∨
      .sftp (.dropped (.job j)) ∈ s.log)
    (htasks : ∀ j, i.jobId ≠ some j → (j ∈ s'.state.cleanupTasks ↔ j ∈ s.state.cleanupTasks))
    (hsame : ∀ j, i ≠ .job j → SamePrivate s s' j) : Allowed calls i s s' := by
  refine ⟨⟨h.ok.congr hjobs horder, h.records.congr hlog hjobs hcancelled hdisconnecting hids,
    ⟨?_, ?_, ?_, fun j hj => ?_⟩, hscheduled, hlog ▸ h.rule⟩,
    .of_still hlog hjobs (.of_same hjobs hids hdisconnecting htasks) hcancelled (fun j => .inl (congrFun hspawned j))
      (fun j => .inl (congrFun hcleanups j)) hsame⟩
  · rw [hspawned, hlog]
    exact h.tickets.spawned
  · rw [hspawned, hcleanups, hlog]
    exact h.tickets.cleanups
  · rw [hspawned, hcleanups, hlog]
    exact h.tickets.owned
  · rw [hlog]
    exact (hdone j hj).elim (h.tickets.done j) id

/-- A job changes its guard. -/
theorem step_guards (h : s.Inv) (guard : Option RemoteStagingGuard) :
    Allowed calls (.job j) s { s with guards := update s.guards j guard } := by
  refine step_private h rfl rfl rfl rfl rfl rfl rfl rfl (h.scheduled.congr rfl rfl rfl)
    (fun _ => .inl) (fun _ _ => Iff.rfl) fun j' hj' => ⟨rfl, Iff.rfl, fun _ => Iff.rfl, rfl, update_of_ne ?_ ..⟩
  rintro rfl
  exact hj' rfl

/-- A task is noted as one that cleans up, or no longer. -/
theorem step_cleanupTasks {tasks : Finset TransferJobId} (h : s.Inv)
    (htasks : ∀ j, i.jobId ≠ some j → (j ∈ tasks ↔ j ∈ s.state.cleanupTasks)) :
    Allowed calls i s { s with state := { s.state with cleanupTasks := tasks } } :=
  step_private h rfl rfl rfl rfl rfl rfl rfl rfl (h.scheduled.congr rfl rfl rfl) (fun _ => .inl)
    htasks fun _ _ => ⟨rfl, Iff.rfl, fun _ => Iff.rfl, rfl, rfl⟩

/-- A cleanup signals its end. -/
theorem step_cleanupDone (h : s.Inv) (done : TransferJobId → Bool) :
    Allowed calls i s { s with cleanupDone := done } :=
  step_private h rfl rfl rfl rfl rfl rfl rfl rfl (h.scheduled.congr rfl rfl rfl) (fun _ => .inl)
    (fun _ _ => Iff.rfl) fun _ _ => ⟨rfl, Iff.rfl, fun _ => Iff.rfl, rfl, rfl⟩

/-- What a change of permits and locks by a job leaves to the others. -/
structure Reschedules (j : TransferJobId) (c c' : Scheduler) : Prop where
  place : ∀ j', j' ≠ j → c'.place j' = c.place j'
  global : ∀ j', j' ≠ j → (j' ∈ c'.global ↔ j' ∈ c.global)
  hosts : ∀ j', j' ≠ j → ∀ host, j' ∈ c'.hosts host ↔ j' ∈ c.hosts host

/-- A job takes or returns a permit or a lock. -/
theorem step_schedule {c : Scheduler} (h : s.Inv) (hc : Reschedules j s.scheduler c)
    (hscheduled : Scheduled { s with scheduler := c }) :
    Allowed calls (.job j) s { s with scheduler := c } := by
  refine step_private h rfl rfl rfl rfl rfl rfl rfl rfl hscheduled (fun _ => .inl)
    (fun _ _ => Iff.rfl) fun j' hj' => ?_
  have hne : j' ≠ j := by
    rintro rfl
    exact hj' rfl
  exact ⟨hc.place j' hne, hc.global j' hne, hc.hosts j' hne, rfl, rfl⟩

/-- A job ends: it has returned what it held. -/
theorem step_done (h : s.Inv) (hover : Finished s.log j ∨ .sftp (.dropped (.job j)) ∈ s.log)
    (hplace : s.scheduler.place j = .elsewhere) (hglobal : j ∉ s.scheduler.global)
    (hhosts : ∀ host, j ∉ s.scheduler.hosts host) :
    Allowed calls (.job j) s { s with done := update s.done j true } := by
  have hdone : ∀ {j'}, j' ≠ j → update s.done j true j' = s.done j' :=
    fun hj' => update_of_ne hj' ..
  refine step_private h rfl rfl rfl rfl rfl rfl rfl rfl ?_ (fun j' hj' => ?_)
    (fun _ _ => Iff.rfl) fun j' hj' => ?_
  · refine ⟨h.scheduled.global_le, h.scheduled.hosts_le, fun j' hj' => ?_, fun host j' hj' => ?_,
      fun lock l j' hl hj' => ?_, h.scheduled.mapped, fun j' hj' => ?_⟩
    · obtain ⟨hd, hrest⟩ := h.scheduled.global j' hj'
      exact ⟨(hdone fun hj => hglobal (hj ▸ hj')).trans hd, hrest⟩
    · obtain ⟨hd, hrest⟩ := h.scheduled.hosts host j' hj'
      exact ⟨(hdone fun hj => hhosts host (hj ▸ hj')).trans hd, hrest⟩
    · obtain ⟨hd, hspawned, hp⟩ := h.scheduled.holder lock l j' hl hj'
      refine ⟨(hdone fun hj => ?_).trans hd, hspawned, hp⟩
      rw [hj, hplace] at hp
      nomatch hp
    · obtain ⟨hd, spec, hspec, hp⟩ := h.scheduled.placed j' hj'
      exact ⟨(hdone fun hj => hj' (hj ▸ hplace)).trans hd, spec, hspec, ⟨hp.locked, hp.inside⟩⟩
  · by_cases hj : j' = j
    · exact .inr (hj ▸ hover)
    · exact .inl ((hdone hj).symm.trans hj')
  · refine ⟨rfl, Iff.rfl, fun _ => Iff.rfl, hdone ?_, rfl⟩
    rintro rfl
    exact hj' rfl

/-- A job that is dropped hands its staging file over to a cleanup. -/
theorem step_handOver {path : String} (h : s.Inv) (howns : s.Owns (.job j)) (hactive : s.Unfinished j)
    (hdropped : .sftp (.dropped (.job j)) ∈ s.log)
    (hcreated : ∀ path', Created s.log j path' ↔ path' = path) :
    Allowed calls (.job j) s { s with cleanups := update s.cleanups j (some path) } := by
  have hne : ∀ {j'}, j' ≠ j → update s.cleanups j (some path) j' = s.cleanups j' :=
    fun hj' => update_of_ne hj' ..
  have hself : update s.cleanups j (some path) j = some path := update_self ..
  refine ⟨⟨h.ok, h.records.congr rfl rfl rfl rfl rfl, ⟨h.tickets.spawned, fun j' path' hj' => ?_,
    fun j' e he => ⟨(h.tickets.owned j' e he).1, fun htask => ?_⟩, h.tickets.done⟩,
    h.scheduled.congr rfl rfl rfl, h.rule⟩, .of_still rfl rfl
      (.of_same rfl rfl rfl fun _ _ => Iff.rfl) rfl (fun _ => .inl rfl) (fun j' => ?_) fun _ _ => ⟨rfl, Iff.rfl, fun _ => Iff.rfl, rfl, rfl⟩⟩
  · by_cases hj : j' = j
    · subst hj
      obtain rfl := Option.mem_unique hself hj'
      exact ⟨howns.1, hdropped, hcreated⟩
    · exact h.tickets.cleanups j' path' ((hne hj).symm.trans hj')
  · change update s.cleanups j (some path) j' ≠ none
    by_cases hj : j' = j
    · subst hj
      rw [hself]
      exact nofun
    · rw [hne hj]
      exact (h.tickets.owned j' e he).2 htask
  · by_cases hj : j' = j
    · subst hj
      exact .inr ⟨hactive, rfl, howns⟩
    · exact .inl (hne hj)

end

/-! ## Asking jobs to stop -/

theorem requestCancel_of_not {job : JobRecord} {concerned : Bool}
    (h : cancellable job.view.state = false) : job.requestCancel concerned = job := by
  rw [JobRecord.requestCancel, h, Bool.and_false, if_neg Bool.false_ne_true]

theorem not_cancellable {state : TransferState}
    (h : state = .finalizing ∨ terminal state = true) : cancellable state = false := by
  revert h
  cases state <;> decide

section

variable {t : TaskId} {p : TransferJobId → TransferJob → Bool}

/-- A job that is asked to stop is not flagged for that. -/
theorem unconfirmed_requestCancel (concerned : Bool) (job : JobRecord) :
    (job.requestCancel concerned).cleanupUnconfirmed = job.cleanupUnconfirmed := by
  rw [JobRecord.requestCancel]
  split_ifs <;> rfl

/-- Asking jobs to stop only concerns those that can still be stopped. -/
theorem changes_requestCancel {concerned : Bool} {job : JobRecord} :
    Changes i j job (job.requestCancel concerned) := by
  refine ⟨?_, ?_, fun _ => unconfirmed_requestCancel concerned job⟩
  · rw [JobRecord.requestCancel]
    split_ifs with h
    · exact .inr (.inl ⟨(Bool.and_eq_true_iff.1 h).2, rfl⟩)
    · exact .inl rfl
  · rw [JobRecord.requestCancel]
    split_ifs <;> rfl

theorem get_requestCancel {job' : JobRecord}
    (h : (s.requestCancel t p).state.jobs.get j = some job') :
    ∃ job, s.state.jobs.get j = some job ∧ job' = job.requestCancel (p j job.view) := by
  obtain ⟨job, hget, rfl⟩ := Option.map_eq_some_iff.1 h
  exact ⟨job, hget, rfl⟩

theorem get_requestCancel_of_get {job : JobRecord} (h : s.state.jobs.get j = some job) :
    (s.requestCancel t p).state.jobs.get j = some (job.requestCancel (p j job.view)) :=
  Option.map_eq_some_iff.2 ⟨job, h, rfl⟩

/-- Jobs that are being finalized or have ended are not concerned. -/
theorem get_requestCancel_of_not {job : JobRecord} (hget : s.state.jobs.get j = some job)
    (h : cancellable job.view.state = false) :
    (s.requestCancel t p).state.jobs.get j = some job := by
  rw [get_requestCancel_of_get hget, requestCancel_of_not h]

theorem unfinished_requestCancel : (s.requestCancel t p).Unfinished j ↔ s.Unfinished j := by
  constructor
  · rintro ⟨job', hget', hactive⟩
    obtain ⟨job, hget, rfl⟩ := get_requestCancel hget'
    exact ⟨job, hget, terminal_requestCancel _ job ▸ hactive⟩
  · rintro ⟨job, hget, hactive⟩
    exact ⟨_, get_requestCancel_of_get hget, (terminal_requestCancel _ job).trans hactive⟩

theorem RecordOk.requestCancel {ids : Finset TransferJobId} {job : JobRecord} (concerned : Bool)
    (h : RecordOk log ids j (some job)) :
    RecordOk log ids j (some (job.requestCancel concerned)) := by
  have hended : terminal (job.requestCancel concerned).view.state = true →
      job.requestCancel concerned = job := fun hterminal =>
    requestCancel_of_not (not_cancellable (.inr (terminal_requestCancel concerned job ▸
      hterminal)))
  refine ⟨?_, fun _ _ => .inr ⟨_, rfl⟩, ?_, ?_, ?_, fun hj => ⟨_, rfl, ?_⟩, h.used, h.unique, ?_⟩
  · rintro _ ⟨⟩
    obtain ⟨spec, hspec, hsession⟩ := h.known job rfl
    refine ⟨spec, hspec, ?_⟩
    rw [← hsession, JobRecord.requestCancel]
    split_ifs <;> rfl
  · rintro _ ⟨⟩ hterminal
    have heq := hended hterminal
    rw [heq] at hterminal ⊢
    exact h.ended job rfl hterminal
  · rintro _ ⟨⟩ hactive
    exact h.active job rfl (terminal_requestCancel concerned job ▸ hactive)
  · rintro _ hj ⟨⟩
    have hstate := h.finalizing job hj rfl
    rwa [requestCancel_of_not (not_cancellable hstate)]
  · obtain ⟨_, ⟨⟩, hflag⟩ := h.unconfirmed hj
    exact (unconfirmed_requestCancel concerned job).trans hflag
  · rintro _ ⟨⟩ hflag
    exact h.flagged job rfl ((unconfirmed_requestCancel concerned job).symm.trans hflag)

theorem Records.requestCancel (h : s.Records) : (s.requestCancel t p).Records := by
  refine .of_each (fun j => ?_) (fun j hj => ?_) fun t' session he => ?_
  · have hj : RecordOk (s.log ++ [TransferEvent.accepted t (s.state.cancellableJobs p)]) _ _ _ :=
      (h.record j).append fun e he => List.mem_singleton.1 he ▸ id
    change RecordOk _ _ _ ((s.state.jobs.get j).map _)
    cases hget : s.state.jobs.get j with
    | none =>
      rw [hget] at hj
      exact hj
    | some job =>
      rw [hget] at hj
      exact hj.requestCancel (p j job.view)
  · change (decide (j ∈ s.state.cancellableJobs p) || s.cancelled j) = true
    rcases accepted_append.1 hj with hj | ⟨t', jobs, he, hj⟩
    · rw [h.accepted j hj, Bool.or_true]
    · obtain ⟨-, rfl⟩ := accepted.inj (List.mem_singleton.1 he)
      rw [decide_eq_true hj, Bool.true_or]
  · exact h.disconnecting t' session (mem_of_snoc he nofun)

/-- More sessions are closed for new jobs. -/
theorem Records.close {m : ManagerState} (h : s.Records) (hjobs : m.jobs = s.state.jobs)
    (hsub : s.state.disconnecting ⊆ m.disconnecting)
    (hes : ∀ e ∈ es, ∃ session ∈ m.disconnecting, e = .disconnected t session) :
    Records { s with state := m, log := s.log ++ es } := by
  refine .of_each (fun j => ?_) (fun j ⟨t', jobs, he, hj⟩ => ?_) fun t' session he => ?_
  · change RecordOk _ _ _ (m.jobs.get j)
    rw [hjobs]
    refine (h.record j).append fun e he => ?_
    obtain ⟨_, -, rfl⟩ := hes e he
    exact id
  · refine h.accepted j ⟨t', jobs, (List.mem_append.1 he).resolve_right fun he => ?_, hj⟩
    obtain ⟨_, -, heq⟩ := hes _ he
    nomatch heq
  · rcases List.mem_append.1 he with he | he
    · exact hsub (h.disconnecting t' session he)
    · obtain ⟨session', hsession', heq⟩ := hes _ he
      obtain ⟨-, rfl⟩ := disconnected.inj heq
      exact hsession'

/-- A call closes sessions for new jobs, and asks jobs to stop. -/
theorem step_stop [Platform] {m : ManagerState} (h : s.Inv) (hjobs : m.jobs = s.state.jobs)
    (horder : m.order = s.state.order) (hsub : s.state.disconnecting ⊆ m.disconnecting)
    (htasks : m.cleanupTasks = s.state.cleanupTasks)
    (hes : ∀ e ∈ es, ∃ session ∈ m.disconnecting, e = .disconnected t session) :
    Allowed calls (.call t) s
      (requestCancel t p { s with state := m, log := s.log ++ es }) := by
  have hok : m.Ok := h.ok.congr hjobs horder
  have hrecords : Records { s with state := m, log := s.log ++ es } :=
    h.records.close hjobs hsub hes
  have hlog : (requestCancel t p { s with state := m, log := s.log ++ es }).log =
      s.log ++ (es ++ [accepted t (m.cancellableJobs p)]) := List.append_assoc ..
  have htask : ∀ e ∈ es ++ [accepted t (m.cancellableJobs p)], e.task = .call t ∧ ¬e.Trims := by
    intro e he
    rcases mem_snoc.1 he with he | rfl
    · obtain ⟨session, -, rfl⟩ := hes e he
      exact ⟨rfl, id⟩
    · exact ⟨rfl, id⟩
  have hlast : ∀ {e}, (requestCancel t p { s with state := m, log := s.log ++ es }).log =
      s.log ++ [e] → ¬e.Trims := by
    intro e he
    rw [hlog] at he
    exact (htask e (List.append_cancel_left he ▸ List.mem_singleton_self e)).2
  have hget : ∀ {j job}, s.state.jobs.get j = some job → m.jobs.get j = some job :=
    fun hget => hjobs ▸ hget
  refine ⟨⟨hok.requestCancel p, hrecords.requestCancel, ?_, h.scheduled.congr rfl rfl rfl, ?_⟩,
    ⟨_, hlog, fun e he => ⟨(htask e he).1, trivial⟩⟩, fun j hj => .inl ?_,
    fun _ _ => ⟨rfl, Iff.rfl, fun _ => Iff.rfl, rfl, rfl⟩, fun _ => .inl rfl, fun _ => .inl rfl,
    fun j job job' hj hj' hne heq => ?_, fun t' j job _ _ hj hstate => ?_,
    fun e he htrim => absurd htrim (hlast he), fun j hnone hsome => absurd ?_ hsome,
    fun t' jobs he => absurd trivial (hlast he), fun j job job' hj hj' => ?_,
    fun j job' hnone hj' => ?_, subset_rfl, hsub, fun _ _ => htasks ▸ Iff.rfl⟩
  · exact h.tickets.append hlog (fun e he => ⟨(htask e he).1, trivial⟩) rfl rfl rfl
  · refine justified_snoc.2 ⟨h.rule.append fun e he pre => ?_, fun j hj hfinalizing => ?_⟩
    · -- A session may be closed at any time.
      obtain ⟨session, -, rfl⟩ := hes e he
      trivial
    · obtain ⟨job, hj, hconcerned⟩ := Table.mem_keysWhere.1 hj
      have hstate := hrecords.finalizing j job hfinalizing hj
      rw [not_cancellable hstate, Bool.and_false] at hconcerned
      cases hconcerned
  · refine unfinished_requestCancel.2 ?_
    obtain ⟨job, hj, hactive⟩ := hj
    exact ⟨job, hget hj, hactive⟩
  · obtain ⟨job₁, hj₁, rfl⟩ := get_requestCancel hj'
    obtain rfl := Option.mem_unique (hget hj) hj₁
    refine ⟨t, _, List.mem_concat_self, Table.mem_keysWhere.2 ?_⟩
    refine ⟨job, hget hj, ?_⟩
    by_contra hcon
    rw [JobRecord.requestCancel, if_neg hcon] at heq
    exact hne heq
  · have hnot := not_cancellable hstate
    refine ⟨get_requestCancel_of_not (hget hj) hnot, ?_⟩
    have hmem : j ∉ m.cancellableJobs p := by
      intro hmem
      obtain ⟨job', hj', hconcerned⟩ := Table.mem_keysWhere.1 hmem
      obtain rfl := Option.mem_unique (hget hj) hj'
      rw [hnot, Bool.and_false] at hconcerned
      cases hconcerned
    change (decide (j ∈ m.cancellableJobs p) || s.cancelled j) = s.cancelled j
    rw [decide_eq_false hmem, Bool.false_or]
  · change (m.jobs.get j).map _ = none
    rw [hjobs, hnone]
    rfl
  · obtain ⟨job₁, hj₁, rfl⟩ := get_requestCancel hj'
    obtain rfl := Option.mem_unique (hget hj) hj₁
    exact changes_requestCancel
  · obtain ⟨job₁, hj₁, rfl⟩ := get_requestCancel hj'
    rw [← hjobs, hj₁] at hnone
    cases hnone

end

/-! ## Admission -/

section

variable {t : TaskId} {jobs : List (TransferJobId × JobSpec)}

theorem trimmed_admitAll {m : ManagerState} (h : m.Trimmed)
    (hnodup : (jobs.map Prod.fst).Nodup) : (m.admitAll jobs).Trimmed := by
  -- A job that has ended is not a new one.
  have hold : ∀ {id job}, (m.admitAll jobs).jobs.get id = some job →
      terminal job.view.state = true → m.jobs.get id = some job := by
    intro id job hget hterminal
    by_cases hid : id ∈ jobs.map Prod.fst
    · obtain ⟨⟨_, spec⟩, hmem, rfl⟩ := List.mem_map.1 hid
      rw [get_admitAll_of_mem hnodup hmem] at hget
      rw [← Option.some.inj hget] at hterminal
      nomatch hterminal
    · rwa [get_admitAll_of_notMem hid] at hget
  refine h.imp (fun hcount => le_trans ?_ hcount) fun hall id job hget hterminal => ?_
  · refine Finset.card_le_card fun id hid => ?_
    obtain ⟨job, hget, hterminal⟩ := Table.mem_keysWhere.1 hid
    exact Table.mem_keysWhere.2 ⟨job, hold hget hterminal, hterminal⟩
  · rw [(rest_admitAll m jobs).2.1]
    exact hall id job (hold hget hterminal) hterminal

/-- Nothing is logged about a job that has not been admitted. -/
theorem Tickets.unused (h : s.Tickets) (hrecords : s.Records) (hj : j ∉ s.jobIds) :
    ∀ e ∈ s.log, e.task.jobId ≠ some j := by
  have hspawned : s.spawned j = none := by
    by_contra hsome
    obtain ⟨spec, hspec⟩ := Option.ne_none_iff_exists'.1 hsome
    exact hj (hrecords.used j spec (h.spawned j spec hspec))
  intro e he hjob
  cases htask : e.task with
  | call t =>
    rw [htask] at hjob
    nomatch hjob
  | job j' =>
    obtain rfl : j' = j := by simpa [htask, TransferTask.jobId] using hjob
    exact (h.owned j' e he).1 htask hspawned
  | cleanup j' =>
    obtain rfl : j' = j := by simpa [htask, TransferTask.jobId] using hjob
    obtain ⟨path, hpath⟩ := Option.ne_none_iff_exists'.1 ((h.owned j' e he).2 htask)
    exact (h.cleanups j' path hpath).1 hspawned

/-- The record of a new job: nothing has been logged about it. -/
theorem RecordOk.new {ids : Finset TransferJobId} {spec : JobSpec} (hj : j ∈ ids)
    (hold : ∀ t spec, ¬AdmittedBy log j t spec) (hunused : ∀ e ∈ log, e.task.jobId ≠ some j)
    (hnodup : (jobs.map Prod.fst).Nodup) (hspec : (j, spec) ∈ jobs) :
    RecordOk (log ++ [admitted t jobs]) ids j (some (.new j spec)) := by
  have hmem : ∀ {e}, e ∈ log ++ [admitted t jobs] → e.task.jobId ≠ some j := fun he => by
    rcases mem_snoc.1 he with he | rfl
    · exact hunused _ he
    · exact nofun
  have hadmitted : ∀ {t' spec'}, AdmittedBy (log ++ [admitted t jobs]) j t' spec' →
      t' = t ∧ spec' = spec := fun hj => by
    obtain ⟨_, he, hspec'⟩ := (admittedBy_append.1 hj).resolve_left (hold _ _)
    obtain ⟨rfl, rfl⟩ := admitted.inj (List.mem_singleton.1 he)
    exact ⟨rfl, congrArg Prod.snd (List.inj_on_of_nodup_map hnodup hspec' hspec rfl)⟩
  refine ⟨?_, fun _ _ => .inr ⟨_, rfl⟩, ?_, fun _ _ _ ⟨i, state, he, hi⟩ => hmem he hi,
    fun _ he => absurd rfl (hmem he), fun ⟨i, he, hi⟩ => absurd hi (hmem he), fun _ _ => hj,
    fun t₁ t₂ spec₁ spec₂ h₁ h₂ => ?_, ?_⟩
  · rintro _ ⟨⟩
    exact ⟨spec, ⟨t, jobs, List.mem_concat_self, hspec⟩, rfl⟩
  · rintro _ ⟨⟩
    exact nofun
  · obtain ⟨rfl, rfl⟩ := hadmitted h₁
    obtain ⟨rfl, rfl⟩ := hadmitted h₂
    exact ⟨rfl, rfl⟩
  · rintro _ ⟨⟩
    exact nofun

/-- New jobs are added, under ids that have not been used. -/
theorem Records.admitted (h : s.Records) (htickets : s.Tickets) {m : ManagerState}
    (hm : Retains s.state m) (hnodup : (jobs.map Prod.fst).Nodup)
    (hfresh : ∀ id ∈ jobs.map Prod.fst, id ∉ s.jobIds) :
    Records { s with
      state := m.admitAll jobs
      jobIds := s.jobIds ∪ (jobs.map Prod.fst).toFinset
      log := s.log ++ [admitted t jobs] } := by
  have hrec := h.retain hm
  refine .of_each (fun j => ?_) (fun j ⟨t', jobs', he, hj⟩ => h.accepted j ⟨t', jobs', mem_of_snoc he nofun, hj⟩)
    fun t' session he => ?_
  · change RecordOk _ _ _ ((m.admitAll jobs).jobs.get j)
    by_cases hj : j ∈ jobs.map Prod.fst
    · obtain ⟨⟨_, spec⟩, hspec, rfl⟩ := List.mem_map.1 hj
      rw [get_admitAll_of_mem hnodup hspec]
      exact .new (Finset.mem_union_right _ (List.mem_toFinset.2 hj))
        (fun t' spec' hold => hfresh _ hj (h.used _ spec' ⟨t', hold⟩))
        (htickets.unused h (hfresh _ hj)) hnodup hspec
    · rw [get_admitAll_of_notMem hj]
      have hold : RecordOk (s.log ++ [TransferEvent.admitted t jobs]) _ _ _ :=
        (hrec.record j).append fun e he => List.mem_singleton.1 he ▸ hj
      exact { hold with used := fun spec hspec => Finset.mem_union_left _ (hold.used spec hspec) }
  · change session ∈ (m.admitAll jobs).disconnecting
    rw [(rest_admitAll m jobs).1]
    exact hrec.disconnecting t' session (mem_of_snoc he nofun)

variable [Platform]

/-- There is no room for a batch. -/
theorem step_rejected (h : s.Inv) (hcall : ¬(calls t).Stops) : Allowed calls (.call t) s
    { s with state := s.state.trimHistory, log := s.log ++ [.rejected t] } := by
  have hm := retains_trimHistory h.ok
  have hes : ∀ e ∈ [rejected t], e.task = .call t ∧ s.Owns (.call t) := by
    intro e he
    rw [List.mem_singleton.1 he]
    exact ⟨rfl, trivial⟩
  have hquiet : ∀ e ∈ [rejected t], e.Quiet := fun e he => by
    rw [List.mem_singleton.1 he]
    trivial
  refine ⟨⟨h.ok.trimHistory, (h.records.retain hm).of_quiet hquiet rfl rfl rfl rfl rfl,
    h.tickets.append rfl hes rfl rfl rfl, h.scheduled.congr rfl rfl rfl,
    justified_snoc.2 ⟨h.rule, trivial⟩⟩, ⟨_, rfl, hes⟩, fun j ⟨job, hget, hactive⟩ => .inl ?_,
    fun _ _ => ⟨rfl, Iff.rfl, fun _ => Iff.rfl, rfl, rfl⟩, fun _ => .inl rfl, fun _ => .inl rfl,
    fun j job job' hget hget' hne heq => ?_, fun t' j job ht' hstops => ?_,
    fun _ _ _ => (trimHistory_spec h.ok).2, fun j hnone hsome => absurd ?_ hsome,
    fun t' jobs he => ?_, fun j job job' hget hget' => Option.mem_unique hget (hm.of_get hget') ▸ .refl,
    fun j job' hnone hget' => absurd (hnone.symm.trans (hm.of_get hget')) nofun, subset_rfl,
    hm.disconnecting.ge, fun _ _ => hm.cleanupTasks ▸ Iff.rfl⟩
  · exact ⟨job, hm.get_of_active hget hactive, hactive⟩
  · obtain rfl := Option.mem_unique hget (hm.of_get hget')
    exact absurd heq hne
  · rw [← TransferTask.call.inj ht'] at hstops
    exact absurd hstops hcall
  · rcases hm.get j with heq | ⟨hnone', -⟩
    · exact heq.trans hnone
    · exact hnone'
  · nomatch List.append_cancel_left he

/-- A batch is admitted: its sessions have not been closed, and there is room for it. -/
theorem step_admitted (h : s.Inv) (hcall : calls t = .enqueueBatch (jobs.map Prod.snd))
    (hnodup : (jobs.map Prod.fst).Nodup) (hfresh : ∀ id ∈ jobs.map Prod.fst, id ∉ s.jobIds)
    (hopen : ∀ job ∈ jobs, job.2.session ∉ s.state.disconnecting)
    (hroom : jobs.length ≤ JOB_CAP - s.state.trimHistory.nonterminalCount) :
    Allowed calls (.call t) s { s with
      state := s.state.trimHistory.admitAll jobs
      jobIds := s.jobIds ∪ (jobs.map Prod.fst).toFinset
      log := s.log ++ [admitted t jobs] } := by
  have hm := retains_trimHistory h.ok
  have hes : ∀ e ∈ [admitted t jobs], e.task = .call t ∧ s.Owns (.call t) := by
    intro e he
    rw [List.mem_singleton.1 he]
    exact ⟨rfl, trivial⟩
  -- The ids are not those of other jobs.
  have hnone : ∀ {id}, id ∈ jobs.map Prod.fst → s.state.jobs.get id = none := by
    intro id hid
    by_contra hsome
    obtain ⟨job, hget⟩ := Option.ne_none_iff_exists'.1 hsome
    obtain ⟨spec, hspec, -⟩ := h.records.known id job hget
    exact hfresh id hid (h.records.used id spec hspec)
  have hold : ∀ {id job}, s.state.jobs.get id = some job →
      (s.state.trimHistory.admitAll jobs).jobs.get id = s.state.trimHistory.jobs.get id := by
    intro id job hget
    refine get_admitAll_of_notMem fun hid => ?_
    rw [hnone hid] at hget
    nomatch hget
  obtain ⟨hdisconnecting, htasks, -⟩ := rest_admitAll s.state.trimHistory jobs
  have hok : (s.state.trimHistory.admitAll jobs).Ok := by
    refine h.ok.trimHistory.admitAll hnodup (fun id hid hkeys => ?_) ?_
    · obtain ⟨job, hget⟩ := Option.isSome_iff_exists.1 ((Table.mem_keys _ _).1 hkeys)
      nomatch (hnone hid).symm.trans (hm.of_get hget)
    · have := h.ok.trimHistory.room
      omega
  refine ⟨⟨hok, h.records.admitted h.tickets hm hnodup hfresh, h.tickets.append rfl hes rfl rfl rfl,
    h.scheduled.congr rfl rfl rfl, justified_snoc.2 ⟨h.rule, fun job hjob t' he => ?_⟩⟩,
    ⟨_, rfl, hes⟩, fun j ⟨job, hget, hactive⟩ => .inl ?_,
    fun _ _ => ⟨rfl, Iff.rfl, fun _ => Iff.rfl, rfl, rfl⟩, fun _ => .inl rfl, fun _ => .inl rfl,
    fun j job job' hget hget' hne heq => ?_, fun t' j job ht' hstops => ?_,
    fun _ _ _ => trimmed_admitAll (trimHistory_spec h.ok).2 hnodup,
    fun _ _ _ => ⟨t, jobs, rfl⟩, fun t' jobs' he => ?_, fun j job job' hget hget' => ?_,
    fun j job' hnone hget' => ?_, Finset.subset_union_left,
    (hdisconnecting.trans hm.disconnecting).ge, fun _ _ => htasks.trans hm.cleanupTasks ▸ Iff.rfl⟩
  · exact hopen job hjob (h.records.disconnecting t' _ he)
  · exact ⟨job, (hold hget).trans (hm.get_of_active hget hactive), hactive⟩
  · rw [hold hget] at hget'
    obtain rfl := Option.mem_unique hget (hm.of_get hget')
    exact absurd heq hne
  · rw [← TransferTask.call.inj ht', hcall] at hstops
    exact absurd hstops id
  · obtain ⟨rfl, rfl⟩ : t = t' ∧ jobs = jobs' := by simpa using he
    exact ⟨hcall, order_admitAll .., fun job hjob =>
      get_admitAll_of_mem hnodup hjob⟩
  · rw [hold hget] at hget'
    exact Option.mem_unique hget (hm.of_get hget') ▸ .refl
  · by_cases hj : j ∈ jobs.map Prod.fst
    · obtain ⟨⟨_, spec⟩, hmem, rfl⟩ := List.mem_map.1 hj
      rw [get_admitAll_of_mem hnodup hmem] at hget'
      obtain ⟨⟩ := hget'
      exact ⟨hfresh _ hj, hopen _ hmem⟩
    · rw [get_admitAll_of_notMem hj] at hget'
      nomatch hnone.symm.trans (hm.of_get hget')

/-- An admitted job is spawned. -/
theorem step_spawn {spec : JobSpec} (h : s.Inv) (hadmitted : AdmittedBy s.log j t spec)
    (hactive : s.Unfinished j) (hnone : s.spawned j = none) :
    Allowed calls (.call t) s
      { s with spawned := update s.spawned j (some spec) } := by
  have hself : update s.spawned j (some spec) j = some spec := update_self ..
  have hne : ∀ {j'}, j' ≠ j → update s.spawned j (some spec) j' = s.spawned j' :=
    fun hj' => update_of_ne hj' ..
  -- What was spawned before is not affected.
  have hold : ∀ {j'}, s.spawned j' ≠ none → j' ≠ j := by
    rintro j' hj' rfl
    exact hj' hnone
  have hsome : ∀ {j'}, s.spawned j' ≠ none → update s.spawned j (some spec) j' ≠ none :=
    fun hj' => by rwa [hne (hold hj')]
  refine ⟨⟨h.ok, h.records.congr rfl rfl rfl rfl rfl, ⟨fun j' spec' hj' => ?_, fun j' path hj' => ?_,
    fun j' e he => ?_, h.tickets.done⟩, ?_, h.rule⟩,
    .of_still rfl rfl (.of_same rfl rfl rfl fun _ _ => Iff.rfl) rfl (fun j' => ?_)
      (fun _ => .inl rfl) fun _ _ => ⟨rfl, Iff.rfl, fun _ => Iff.rfl, rfl, rfl⟩⟩
  · by_cases hj : j' = j
    · subst hj
      obtain rfl := Option.mem_unique hself hj'
      exact ⟨t, hadmitted⟩
    · exact h.tickets.spawned j' spec' ((hne hj).symm.trans hj')
  · obtain ⟨hspawned, hrest⟩ := h.tickets.cleanups j' path hj'
    exact ⟨hsome hspawned, hrest⟩
  · exact ⟨fun htask => hsome ((h.tickets.owned j' e he).1 htask), (h.tickets.owned j' e he).2⟩
  · refine ⟨h.scheduled.global_le, h.scheduled.hosts_le, fun j' hj' => ?_, fun host j' hj' => ?_,
      fun lock l j' hl hj' => ?_, h.scheduled.mapped, fun j' hj' => ?_⟩
    · obtain ⟨hdone, hspawned, hplace⟩ := h.scheduled.global j' hj'
      exact ⟨hdone, hsome hspawned, hplace⟩
    · obtain ⟨hdone, hspawned, hplace⟩ := h.scheduled.hosts host j' hj'
      exact ⟨hdone, hsome hspawned, hplace⟩
    · obtain ⟨hdone, hspawned, hplace⟩ := h.scheduled.holder lock l j' hl hj'
      exact ⟨hdone, hsome hspawned, hplace⟩
    · obtain ⟨hdone, spec', hspec', hplace⟩ := h.scheduled.placed j' hj'
      refine ⟨hdone, spec', (hne (hold ?_)).trans hspec', ⟨hplace.locked, hplace.inside⟩⟩
      rw [hspec']
      exact nofun
  · by_cases hj : j' = j
    · subst hj
      exact .inr ⟨hnone, hactive, t, spec, rfl, hadmitted⟩
    · exact .inl (hne hj)

/-- `quiesce_session` returns `Ok`. -/
theorem step_quiesced {session : HostId × HostSessionId} (h : s.Inv)
    (hclosed : ∃ t, .disconnected t session ∈ s.log)
    (hclean : ∀ j job, s.state.jobs.get j = some job → job.view.session = session →
      job.cleanupUnconfirmed = false ∧ terminal job.view.state = true) :
    Allowed calls (.call t) s { s with log := s.log ++ [quiesced t session] } := by
  refine step_log (e := .quiesced t session) h trivial id trivial
    ⟨hclosed, fun j spec ⟨t', ht'⟩ hsession => ⟨?_, fun hj => ?_⟩⟩
  · refine (h.records.kept j spec ⟨t', ht'⟩).elim id fun ⟨job, hget⟩ => ?_
    obtain ⟨spec', ⟨t'', ht''⟩, hjob⟩ := h.records.known j job hget
    obtain ⟨-, rfl⟩ := h.records.unique j t' t'' spec spec' ht' ht''
    obtain ⟨i, hi, hfin⟩ := h.records.ended j job hget (hclean j job hget (hjob.trans hsession)).2
    exact ⟨i, _, hfin, hi⟩
  · obtain ⟨job, hget, hflag⟩ := h.records.unconfirmed j hj
    obtain ⟨spec', ⟨t'', ht''⟩, hjob⟩ := h.records.known j job hget
    obtain ⟨-, rfl⟩ := h.records.unique j t' t'' spec spec' ht' ht''
    rw [(hclean j job hget (hjob.trans hsession)).1] at hflag
    nomatch hflag

end

end TransferManager

end NexusOps.Sftp
