import NexusOps.Sftp.TransferJobSafety

/-!
# Safety of the tasks of transfers

The tasks of the transfer manager keep to the protocol (`sound_protocol`). A job takes its
permits and the lock of its destination on the way to its transfer, and returns them on
the way back, whether it returns, fails or is dropped; in between, what it knows about
itself does not depend on them (`Carries`). The cleanup after a job that was dropped has
what it was handed over. Calls only admit jobs, or ask them to stop.
-/

namespace NexusOps.Sftp

open Concurrency Protocol Function ManagerState

namespace TransferManager

variable [Platform] {calls : TaskId → TransferCall} {s : TransferManager} {j : TransferJobId}
  {spec : JobSpec} {x x' : Standing} {g : Option RemoteStagingGuard} {d : List TransferEvent}
  {K : Standing → TransferManager → Prop} {lock : DestinationLockId}

/-! ## Permits and locks -/

variable (calls j spec) in
/-- What a job knows, wherever it stands. -/
structure Carries (K : Standing → TransferManager → Prop) : Prop where
  stable : ∀ x, (protocol calls).Stable (.job j) (K x)
  standing : ∀ x s, K x s → s.At j spec x
  move : ∀ x x' s c, K x s → At { s with scheduler := c } j spec x' → K x' { s with scheduler := c }

omit [Platform] in
theorem Own.move {c : Scheduler} (h : s.Own j spec x g d) (hat : At { s with scheduler := c } j spec x') :
    Own { s with scheduler := c } j spec x' g d :=
  ⟨hat, h.cleanups, h.unfinished, h.guards, h.deeds⟩

theorem carries_own : Carries calls j spec fun x s => s.Own j spec x g d where
  stable x := stable_own j spec x g d
  standing _ _ h := h.standing
  move _ _ _ _ h hat := h.move hat

theorem carries_over : Carries calls j spec fun x s => s.Over j spec x where
  stable := stable_over j spec
  standing _ _ h := h.standing
  move _ _ _ _ h hat := ⟨hat, h.ended⟩

theorem carries_decided {outcome : Except AppError Unit} :
    Carries calls j spec fun x s => s.Decided j spec x outcome where
  stable x s s' h := fun ⟨d, hown, hd⟩ => ⟨d, stable_own j spec x none d s s' h hown, hd⟩
  standing _ _ := fun ⟨_, hown, _⟩ => hown.standing
  move _ _ _ _ := fun ⟨d, hown, hd⟩ hat => ⟨d, hown.move hat, hd⟩

/-- A section of the job on permits and locks. -/
theorem Carries.safe_schedule {f : Scheduler → Scheduler} (hK : Carries calls j spec K) (h : K x s)
    (hstep : ∀ s : TransferManager, s.Inv → s.At j spec x →
      Takes calls s j spec (f s.scheduler) x') :
    (protocol calls).Safe (.job j) (fun _ => K x') (schedule f) s := by
  refine safe_modify (k := .ret) (hK.stable x) h fun s₁ h₁ hi₁ => ?_
  obtain ⟨⟨hinv, hg⟩, hat⟩ := hstep s₁ hi₁ (hK.standing x s₁ h₁)
  exact ⟨hinv, hg, hK.move x x' s₁ _ h₁ hat⟩

/-! ## Jobs -/

variable {F : AppError → TransferManager → Prop}

/-- A job that waits, or is dropped. -/
theorem safeAsync_awaitAt {β : Type} {Q : β → TransferManager → Prop} {place : Place}
    (h : s.Own j spec x g d)
    (hok : Standing.Ok { x with place := place }) (hout : ∀ lock, x.place ≠ .transferring lock)
    (hout' : ∀ lock, place ≠ .transferring lock)
    (hlock : ∀ lock, place.lock = some lock → x.place.lock = some lock) (hQ : ∀ b, Q b s) :
    (protocol calls).SafeAsync (.job j) Q F (fun s => s.Over j spec { x with place := place })
      (awaitAt j β place) s := by
  refine safeAsync_await hQ (safe_bind.2 (safe_dropped h fun s h hdropped => ?_))
  have hover : s.Over j spec x := ⟨h.standing, .inr hdropped⟩
  exact carries_over.safe_schedule hover fun _ hi hat => step_move hi hat hok hout hout' hlock

/-- What came of waiting for a permit. -/
def Obtained (s : TransferManager) (j : TransferJobId) (spec : JobSpec) (x x' : Standing)
    (d : List TransferEvent) : Acquired → Prop
  | .acquired => s.Own j spec x' none d
  | _ => s.Own j spec { x with place := .elsewhere } none d

theorem safeAsync_acquire {take : Scheduler → Option Scheduler} (h : s.Own j spec x none d)
    (hout : ∀ lock, x.place ≠ .transferring lock)
    (htake : ∀ (s : TransferManager) c, s.Inv → s.At j spec x → take s.scheduler = some c →
      Takes calls s j spec c x') :
    (protocol calls).SafeAsync (.job j) (fun r s => s.Obtained j spec x x' d r) F
      (fun s => s.Over j spec { x with place := .elsewhere }) (acquire j take) s := by
  have hok : Standing.Ok { x with place := .elsewhere } := .of_ne nofun nofun
  refine safeOr_bind.2 (safeAsync_awaitAt h hok hout nofun nofun fun closed => ?_)
  refine safeOr_act (stable_own j spec x none d) h fun s₁ r s₂ h₁ hi₁ hf => ?_
  have hmove : ∀ r : Acquired, r ≠ .acquired →
      Allowed calls (.job j) s₁ { s₁ with scheduler := s₁.scheduler.move j .elsewhere } ∧
        Obtained { s₁ with scheduler := s₁.scheduler.move j .elsewhere } j spec x x' d r := by
    intro r hr
    obtain ⟨hallowed, hat⟩ := step_move hi₁ h₁.standing hok hout nofun nofun
    refine ⟨hallowed, ?_⟩
    have hown := h₁.move hat
    cases r with
    | acquired => exact absurd rfl hr
    | cancelled => exact hown
    | closed => exact hown
  split_ifs at hf
  · obtain ⟨⟩ := hf
    obtain ⟨⟨hinv, hg⟩, hown⟩ := hmove .cancelled nofun
    exact ⟨hinv, hg, hown⟩
  · obtain ⟨⟩ := hf
    obtain ⟨⟨hinv, hg⟩, hown⟩ := hmove .closed nofun
    exact ⟨hinv, hg, hown⟩
  · obtain ⟨c, hc, heq⟩ := Option.map_eq_some_iff.1 hf
    obtain ⟨⟩ := heq
    obtain ⟨⟨hinv, hg⟩, hat⟩ := htake s₁ c hi₁ h₁.standing hc
    exact ⟨hinv, hg, h₁.move hat⟩

/-- The job locks its destination, unless it was cancelled. -/
theorem safeAsync_lockDestination
    (h : s.Own j spec ⟨.awaitingDestination lock, true, true⟩ none d) :
    (protocol calls).SafeAsync (.job j)
      (fun r s => s.Own j spec ⟨if r then .transferring lock else .leaving lock, true, true⟩ none d) F
      (fun s => s.Over j spec ⟨.leaving lock, true, true⟩) (lockDestination j lock) s := by
  have hok : Standing.Ok ⟨.leaving lock, true, true⟩ := .of_ne nofun nofun
  refine safeOr_bind.2 (safeAsync_awaitAt h hok nofun nofun (fun _ => id) fun _ => ?_)
  refine safeOr_act (stable_own j spec _ none d) h fun s₁ r s₂ h₁ hi₁ hf => ?_
  split_ifs at hf
  · obtain ⟨⟩ := hf
    obtain ⟨⟨hinv, hg⟩, hat⟩ : Takes calls s₁ j spec _ _ :=
      step_move hi₁ h₁.standing hok nofun nofun fun _ => id
    exact ⟨hinv, hg, h₁.move hat⟩
  · obtain ⟨c, hc, heq⟩ := Option.map_eq_some_iff.1 hf
    obtain ⟨⟩ := heq
    obtain ⟨⟨hinv, hg⟩, hat⟩ : Takes calls s₁ j spec _ _ :=
      step_lockDestination hi₁ h₁.standing hc
    exact ⟨hinv, hg, h₁.move hat⟩

/-- A job that has done nothing ends as it is told. -/
theorem safe_giveUp {e : AppError} (h : s.Own j spec x none []) :
    (protocol calls).Safe (.job j) (fun _ s => s.Over j spec x) (finish j (.error e)) s := by
  obtain ⟨d, hown, hd⟩ := decided_local j spec x local_nil e s h
  exact safe_finish hown hd

/-- What came of the transfer, and where the job stands then. -/
def Result (s : TransferManager) (j : TransferJobId) (spec : JobSpec) (host global : Bool)
    (lock : DestinationLockId) : Option (Except AppError Unit) → Prop
  | some outcome => s.Decided j spec ⟨.leaving lock, host, global⟩ outcome
  | none => s.Over j spec ⟨.elsewhere, host, global⟩

theorem safeAsync_runWithLock (h : s.Own j spec ⟨.awaitingDestination lock, true, true⟩ none []) :
    (protocol calls).SafeAsync (.job j) (fun r s => s.Result j spec true true lock r) F
      (fun s => s.Over j spec ⟨.leaving lock, true, true⟩) (runWithLock j spec lock) s := by
  refine SafeOr.bind (safeAsync_lockDestination h) fun locked s hown => ?_
  cases locked with
  | true =>
    refine safeOr_bind.2 (safeAsync_always (safeAsync_attempt (SafeAsync.mono
      (safeJob_runTransfer hown) (fun _ s hs => ?_) (fun e s hs => ?_) fun s hs => ?_)))
    · exact carries_decided.safe_schedule hs fun _ => step_unlockDestination
    · exact carries_decided.safe_schedule hs fun _ => step_unlockDestination
    · exact carries_over.safe_schedule hs fun _ => step_unlockDestination
  | false =>
    refine safeOr_liftThen (safe_giveUp (e := cancelledBeforeFinalization) hown) fun _ s hs => ?_
    refine safeOr_liftThen (carries_over.safe_schedule hs fun _ hi hat => step_forgetDestination hi hat rfl nofun)
      fun _ s hs => ?_
    exact safeOr_bind.2 (safeOr_lift.2 (carries_over.safe_schedule hs fun _ hi hat =>
      step_dropLock hi hat nofun))

/-- The same, with the lock the job has a reference to. -/
def Leaves (s : TransferManager) (j : TransferJobId) (spec : JobSpec) (host global : Bool) :
    Option (DestinationLockId × Except AppError Unit) → Prop
  | some (lock, outcome) => s.Decided j spec ⟨.leaving lock, host, global⟩ outcome
  | none => s.Over j spec ⟨.elsewhere, host, global⟩

theorem safeAsync_runWithPermits (h : s.Own j spec ⟨.elsewhere, true, true⟩ none []) :
    (protocol calls).SafeAsync (.job j) (fun r s => s.Leaves j spec true true r) F
      (fun s => s.Over j spec ⟨.elsewhere, true, true⟩) (runWithPermits j spec) s := by
  refine safeOr_liftThen (safe_setState h (.inl rfl) List.not_mem_nil)
    fun _ s hown => ?_
  refine safeOr_bind.2 (safeOr_ask fun fresh => safeOr_bind.2 ?_)
  refine safeOr_act (stable_own j spec _ none []) hown fun s₁ r s₂ h₁ hi₁ hf => ?_
  obtain ⟨⟨lock, c⟩, hc, heq⟩ := Option.map_eq_some_iff.1 hf
  obtain ⟨⟩ := heq
  obtain ⟨⟨hinv, hg⟩, hat⟩ : Takes calls s₁ j spec _ _ := step_cloneLock hi₁ h₁.standing hc
  refine ⟨hinv, hg, SafeOr.bind (R := fun r s => s.Result j spec true true lock r)
    (safeOr_onError ?_) fun r s hr => ?_⟩
  · refine SafeOr.mono (safeAsync_runWithLock (F := fun _ _ => False) (h₁.move hat))
      (fun _ _ hr => hr) fun e s he => ?_
    cases e with
    | error e => exact he.elim
    | dropped => exact carries_over.safe_schedule he fun _ hi hat => step_dropLock hi hat nofun
  · cases r <;> exact hr

/-- A permit of the manager is returned. -/
theorem Leaves.safe_releaseGlobal {r : Option (DestinationLockId × Except AppError Unit)}
    (h : s.Leaves j spec true true r) : (protocol calls).Safe (.job j)
      (fun _ s => s.Leaves j spec true false r) (schedule (·.releaseGlobal j)) s := by
  rcases r with _ | ⟨lock, outcome⟩
  · exact carries_over.safe_schedule h fun _ hi hat =>
      step_releaseGlobal hi hat (.of_ne nofun nofun) nofun
  · exact carries_decided.safe_schedule h fun _ hi hat =>
      step_releaseGlobal hi hat (.of_ne nofun nofun) nofun

/-- The permit of the host is returned. -/
theorem Leaves.safe_releaseHost {r : Option (DestinationLockId × Except AppError Unit)}
    (h : s.Leaves j spec true false r) : (protocol calls).Safe (.job j)
      (fun _ s => s.Leaves j spec false false r)
      (schedule (·.releaseHost j spec.client.info.hostId)) s := by
  rcases r with _ | ⟨lock, outcome⟩
  · exact carries_over.safe_schedule h fun _ hi hat =>
      step_releaseHost hi hat (.of_ne nofun nofun) nofun
  · exact carries_decided.safe_schedule h fun _ hi hat =>
      step_releaseHost hi hat (.of_ne nofun nofun) nofun

theorem safeAsync_runOnHost (h : s.Own j spec ⟨.awaitingGlobal, true, false⟩ none []) :
    (protocol calls).SafeAsync (.job j) (fun r s => s.Leaves j spec true false r) F
      (fun s => s.Over j spec ⟨.elsewhere, true, false⟩) (runOnHost j spec) s := by
  refine SafeOr.bind (safeAsync_acquire h nofun fun s c hi hat hc => step_takeGlobal hi hat hc)
    fun r s hr => ?_
  cases r with
  | cancelled =>
    exact safeOr_bind.2 (safeOr_lift.2
      (safe_giveUp (e := cancelledBeforeFinalization) hr))
  | closed => exact safeOr_bind.2 (safeOr_lift.2 (safe_giveUp (e := queueStopped) hr))
  | acquired =>
    refine safeAsync_always (SafeAsync.mono (safeAsync_runWithPermits (F := fun _ _ => False) hr)
      (fun r s hs => hs.safe_releaseGlobal) (fun _ _ hs => hs.elim) fun s hs => ?_)
    exact carries_over.safe_schedule hs fun _ hi hat =>
      step_releaseGlobal hi hat (.of_ne nofun nofun) nofun

/-- A job ends with nothing in its hands. -/
theorem safeAsync_runJob (h : s.Own j spec ⟨.elsewhere, false, false⟩ none []) :
    (protocol calls).SafeAsync (.job j) (fun _ s => s.Over j spec ⟨.elsewhere, false, false⟩) F
      (fun s => s.Over j spec ⟨.elsewhere, false, false⟩) (runJob j spec) s := by
  have hmove : Carries calls j spec fun x s => s.Own j spec x none [] := carries_own
  have hok : Standing.Ok ⟨.awaitingHost, false, false⟩ := ⟨nofun, nofun⟩
  refine safeOr_liftThen (hmove.safe_schedule h fun _ hi hat =>
    step_move hi hat hok nofun nofun nofun) fun _ s hown => ?_
  refine SafeOr.bind (safeAsync_acquire hown nofun fun s c hi hat hc => step_takeHost hi hat hc)
    fun r s hr => ?_
  cases r with
  | cancelled =>
    exact safeOr_lift.2 (safe_giveUp (e := cancelledBeforeFinalization) hr)
  | closed => exact safeOr_lift.2 (safe_giveUp (e := queueStopped) hr)
  | acquired =>
    refine SafeOr.bind (R := fun r s => s.Leaves j spec false false r) (safeAsync_always
      (SafeAsync.mono (safeAsync_runOnHost (F := fun _ _ => False) hr)
        (fun r s hs => hs.safe_releaseHost) (fun _ _ hs => hs.elim) fun s hs => ?_)) fun r s hs => ?_
    · exact carries_over.safe_schedule hs fun _ hi hat =>
        step_releaseHost hi hat (.of_ne nofun nofun) nofun
    · rcases r with _ | ⟨lock, outcome⟩
      · exact hs
      · refine safeOr_liftThen (carries_decided.safe_schedule hs
          fun _ hi hat => step_forgetDestination hi hat rfl nofun) fun _ s hs => ?_
        obtain ⟨d, hown, hd⟩ := hs
        refine safeOr_liftThen (safe_finish hown hd) fun _ s hs => ?_
        exact safeOr_lift.2 (carries_over.safe_schedule hs fun _ hi hat =>
          step_dropLock hi hat nofun)

omit [Platform] in
/-- A job that starts. -/
theorem Waiting.own (h : s.Waiting j) (hspec : s.spawned j = some spec) :
    s.Own j spec ⟨.elsewhere, false, false⟩ none [] := by
  refine ⟨⟨hspec, h.done, h.place, iff_of_false h.global nofun, fun host => ?_⟩, h.cleanups,
    h.unfinished ?_, h.guards, deeds_eq_nil h.silent⟩
  · exact iff_of_false (h.hosts host) fun hx => nomatch hx.1
  · rw [hspec]
    exact nofun

/-- A job that has ended signals its end. -/
theorem safe_done (h : s.Over j spec ⟨.elsewhere, false, false⟩) :
    (protocol calls).Safe (.job j) (fun _ _ => True)
      (.modify fun s => { s with done := update s.done j true }) s := by
  refine safe_modify (k := .ret) (stable_over j spec _) h fun s₁ h₁ hi₁ => ?_
  obtain ⟨hat, hover⟩ := h₁
  obtain ⟨hinv, hg⟩ : Allowed calls (.job j) s₁ _ := step_done hi₁ hover hat.place
    (fun hj => nomatch hat.global.1 hj) fun host hj => nomatch ((hat.hosts host).1 hj).1
  exact ⟨hinv, hg, trivial⟩

/-- The task of a job. -/
theorem safe_jobTask (h : s.Waiting j) :
    (protocol calls).Safe (.job j) (fun _ _ => True) (jobTask j) s := by
  refine safe_ask fun dropped => safe_act (stable_waiting j) h fun s₁ spec s₂ h₁ hi₁ hf => ?_
  obtain ⟨spec', hspec, heq⟩ := Option.map_eq_some_iff.1 hf
  obtain ⟨⟩ := heq
  refine ⟨hi₁, .refl s₁, ?_⟩
  have hown := h₁.own hspec
  split_ifs
  · exact safe_dropped hown fun _ _ _ => trivial
  · refine Safe.bind (safeAsync_runJob (F := fun _ _ => False) hown) fun r s hr => ?_
    rcases r with (e | _) | a
    · exact hr.elim
    · exact safe_done hr
    · exact safe_done hr

/-! ## Cleanups -/

section

variable {path : String} {e : TransferEvent} {a : Answer}

/-- All that has been asked for is to remove the file that was handed over. -/
theorem Handed.removes (h : s.Handed j path d) (hi : s.Inv) {i : TransferTask} {path' : String}
    (hj : i.jobId = some j) (he : .sftp (.request i (.remove path')) ∈ d) : path' = path := by
  rw [← h.deeds] at he
  obtain ⟨pre, post, hlog⟩ := List.append_of_mem (mem_deeds.1 he).1
  obtain ⟨permissions, a, handle, hmem, ha⟩ := (hi.rule pre _ post hlog j hj).2.2
  refine ((hi.tickets.cleanups j path h.cleanups).2.2 path').1 ⟨permissions, a, handle, ?_, ha⟩
  rw [hlog]
  exact List.mem_append_left _ hmem

/-- The cleanup ends the job. -/
theorem safe_endCleanup {error : AppError}
    (h : s.Handed j path (d ++ [.sftp (.request (.cleanup j) (.remove path)),
      .sftp (.answered (.cleanup j) (.remove path) a), e]))
    (htidy : Tidy (d ++ [.sftp (.request (.cleanup j) (.remove path)),
      .sftp (.answered (.cleanup j) (.remove path) a), e]) j) :
    (protocol calls).Safe (.cleanup j) (fun _ _ => True) (do
      finishError (.cleanup j) j error
      .modify fun s => { s with cleanupDone := update s.cleanupDone j true }
      .modify fun s => { s with
        state := { s.state with cleanupTasks := s.state.cleanupTasks.erase j } }) s := by
  have hA : Works calls (.cleanup j) j _ := works_handed j path
  refine safe_bind.2 (safe_finishWith hA h rfl (fun s hs hi => ?_) fun s s' _ _ _ _ _ => ?_)
  · obtain ⟨hspawned, -, -⟩ := hi.tickets.cleanups j path hs.cleanups
    obtain ⟨spec, hspec⟩ := Option.ne_none_iff_exists'.1 hspawned
    exact ⟨spec, hi.tickets.spawned j spec hspec, htidy, nofun, nofun⟩
  · refine safe_modify stable_true trivial fun s₁ _ hi₁ => ?_
    obtain ⟨hinv, hg⟩ : Allowed calls (.cleanup j) s₁ _ :=
      step_cleanupDone hi₁ (update s₁.cleanupDone j true)
    refine ⟨hinv, hg, safe_modify (k := .ret) stable_true trivial fun s₂ _ hi₂ => ?_⟩
    obtain ⟨hinv, hg⟩ : Allowed calls (.cleanup j) s₂ _ :=
      step_cleanupTasks hi₂ fun j' hj' => Finset.mem_erase.trans (and_iff_right fun heq =>
        hj' (congrArg some heq.symm))
    exact ⟨hinv, hg, trivial⟩

/-- What came of the removal. -/
def Attempted (s : TransferManager) (j : TransferJobId) (path : String) (d : List TransferEvent) :
    Except AppError StagingCleanup → Prop
  | .ok cleanup => ∃ a, s.Handed j path (d ++ [.sftp (.request (.cleanup j) (.remove path)),
      .sftp (.answered (.cleanup j) (.remove path) a), .sftp (.removed (.cleanup j) path cleanup)])
  | .error _ => ∃ a, s.Handed j path (d ++ exchange (.cleanup j) (.remove path) a)

/-- The task that cleans up after a job. -/
theorem safe_cleanupTask (h : s.cleanups j ≠ none → s.Unfinished j) :
    (protocol calls).Safe (.cleanup j) (fun _ _ => True) (cleanupTask j) s := by
  refine safe_act (stable_idleCleanup j) h fun s₁ path s₂ h₁ hi₁ hf => ?_
  obtain ⟨path', hpath, heq⟩ := Option.map_eq_some_iff.1 hf
  obtain ⟨rfl, rfl⟩ := Prod.mk.inj heq
  refine ⟨hi₁, .refl s₁, ?_⟩
  have hA : Works calls (.cleanup j) j _ := works_handed j path'
  have hs : s₁.Handed j path' _ := ⟨hpath, h₁ (by rw [hpath]; exact nofun), rfl⟩
  have hcreated : ∀ path, Created (deeds j s₁.log) j path ↔ path = path' := fun path =>
    created_deeds.trans ((hi₁.tickets.cleanups j path' hpath).2.2 path)
  have hsettled : ∀ a, Settled (deeds j s₁.log ++ exchange (.cleanup j) (.remove path') a) j
      SftpRequest.Removes := fun a => settled_of_removes rfl fun i path hi he => hs.removes hi₁ hi he
  have hremove : (protocol calls).SafeAsync (.cleanup j)
      (fun r s => s.Attempted j path' (deeds j s₁.log) r) (fun _ _ => False) (fun _ => True)
      (.attempt (SftpClient.removeOwnedStaging (.cleanup j) path')) s₁ :=
    safeAsync_attempt (safeAsync_removeOwnedStaging hA hs ((hcreated path').2 rfl)
      (fun a cleanup s h => ⟨a, h⟩) (fun a e s h => ⟨a, h⟩)
      fun s h => Safe.mono (safe_note hA h rfl trivial) fun _ _ _ => trivial)
  refine Safe.bind hremove fun r s hr => ?_
  rcases r with (e | _) | e | cleanup
  · exact hr.elim
  · trivial
  · obtain ⟨a, hr⟩ := hr
    refine Safe.bind (safe_markUnconfirmed hA hr) fun _ s hr => ?_
    rw [List.append_assoc] at hr
    refine safe_endCleanup hr (tidy_of_gone (hsettled a) hcreated (fun _ _ => nofun)
      (fun _ _ _ => nofun) (.inr ⟨.cleanup j, List.mem_singleton_self _, rfl⟩))
  · obtain ⟨a, hr⟩ := hr
    refine safe_endCleanup hr (tidy_of_gone (hsettled a) hcreated (fun _ _ => nofun)
      (fun _ _ _ => nofun) (.inl ⟨.cleanup j, cleanup, List.mem_singleton_self _, rfl⟩))

end

/-! ## Admission -/

section

variable {t : TaskId} {jobs : List (TransferJobId × JobSpec)} {specs : List JobSpec}

/-- The jobs have been admitted by the call, which is still to spawn them. -/
def Pending (s : TransferManager) (t : TaskId) (jobs : List (TransferJobId × JobSpec)) : Prop :=
  ∀ job ∈ jobs, AdmittedBy s.log job.1 t job.2 ∧ s.Unfinished job.1 ∧ s.spawned job.1 = none

theorem stable_pending (t : TaskId) (jobs : List (TransferJobId × JobSpec)) :
    (protocol calls).Stable (.call t) fun s => s.Pending t jobs := by
  intro s s' h hpending job hjob
  obtain ⟨⟨jobs', hmem, hjob'⟩, hactive, hnone⟩ := hpending job hjob
  obtain ⟨i', hi', hg⟩ := Guarantee.of_interferes h
  -- Nobody works on a job that has not been spawned.
  have hother : i'.jobId = some job.1 → ¬s.Owns i' := by
    intro hj howns
    cases i' with
    | call t => nomatch hj
    | job j =>
      obtain rfl : j = job.1 := Option.some.inj hj
      exact howns.1 hnone
    | cleanup j =>
      obtain rfl : j = job.1 := Option.some.inj hj
      obtain ⟨path, hpath⟩ := Option.ne_none_iff_exists'.1 howns
      exact (h.1.tickets.cleanups _ path hpath).1 hnone
  refine ⟨⟨jobs', hg.mem hmem, hjob'⟩, hg.active hother hactive, ?_⟩
  rcases hg.spawned job.1 with heq | ⟨-, -, t', spec, rfl, hadmitted⟩
  · exact heq.trans hnone
  · obtain ⟨rfl, -⟩ := h.1.records.unique job.1 t t' job.2 spec ⟨jobs', hmem, hjob'⟩ hadmitted
    exact absurd rfl hi'

theorem safe_spawnAll (hnodup : (jobs.map Prod.fst).Nodup) (h : s.Pending t jobs) :
    (protocol calls).Conforms (.call t) (spawnAll jobs) s := by
  induction jobs generalizing s with
  | nil => trivial
  | cons job jobs ih =>
    obtain ⟨id, spec⟩ := job
    rw [List.map_cons, List.nodup_cons] at hnodup
    refine safeOr_bind.2 (safeOr_act (stable_pending t _) h fun s₁ r s₂ h₁ hi₁ hf => ?_)
    obtain ⟨job, -, heq⟩ := Option.map_eq_some_iff.1 hf
    obtain ⟨⟩ := heq
    obtain ⟨hadmitted, hactive, hnone⟩ := h₁ (id, spec) List.mem_cons_self
    obtain ⟨hinv, hg⟩ : Allowed calls (.call t) s₁ _ := step_spawn hi₁ hadmitted hactive hnone
    refine ⟨hinv, hg, ih hnodup.2 fun job' hjob' => ?_⟩
    obtain ⟨hadmitted', hactive', hnone'⟩ := h₁ job' (List.mem_cons_of_mem _ hjob')
    refine ⟨hadmitted', hactive', (update_of_ne ?_ ..).trans hnone'⟩
    rintro rfl
    exact hnodup.1 (List.mem_map.2 ⟨job', hjob', rfl⟩)

/-- A batch is admitted as a whole, or not at all. -/
theorem safeOr_admitBatch (hcall : calls t = .enqueueBatch (jobs.map Prod.snd)) :
    (protocol calls).SafeOr (.call t) (fun _ s => (jobs.map Prod.fst).Nodup ∧ s.Pending t jobs)
      (fun _ _ => True) (.act (admitBatch t jobs)) s := by
  refine safeOr_act stable_true trivial fun s₁ r s₂ _ hi₁ hf => ?_
  simp only [admitBatch] at hf
  split_ifs at hf with hids hclosed hfull
  · obtain ⟨⟩ := hf
    exact ⟨hi₁, .refl s₁, trivial⟩
  · obtain ⟨⟩ := hf
    obtain ⟨hinv, hg⟩ : Allowed calls (.call t) s₁ _ := step_rejected hi₁ (by rw [hcall]; exact id)
    exact ⟨hinv, hg, trivial⟩
  · obtain ⟨⟩ := hf
    rw [not_or, not_exists] at hclosed
    obtain ⟨hinv, hg⟩ : Allowed calls (.call t) s₁ _ := step_admitted hi₁ hcall hids.1 hids.2
      (fun job hjob hmem => hclosed.2 job ⟨hjob, hmem⟩) (Nat.le_of_not_lt hfull)
    refine ⟨hinv, hg, hids.1, fun job hjob => ⟨⟨jobs, by simp, hjob⟩, ⟨_,
      get_admitAll_of_mem hids.1 hjob, rfl⟩, ?_⟩⟩
    by_contra hsome
    obtain ⟨spec, hspec⟩ := Option.ne_none_iff_exists'.1 hsome
    exact hids.2 job.1 (List.mem_map_of_mem hjob)
      (hi₁.records.used job.1 spec (hi₁.tickets.spawned job.1 spec hspec))

theorem safeOr_enqueueBatch (hcall : calls t = .enqueueBatch specs) :
    (protocol calls).Conforms (.call t) (enqueueBatch t specs) s := by
  rw [enqueueBatch]
  split_ifs
  · trivial
  · refine safeOr_bind.2 (safeOr_ask fun ids => ?_)
    have hspecs : ∀ f : JobSpec × Nat → TransferJobId × JobSpec, (∀ p, (f p).2 = p.1) →
        (specs.zipIdx.map f).map Prod.snd = specs := fun f hf => by
      rw [List.map_map, show Prod.snd ∘ f = Prod.fst from funext hf, List.zipIdx_map_fst]
    refine SafeOr.bind (safeOr_admitBatch (hcall.trans ?_)) fun _ s hs => ?_
    · rw [hspecs _ fun _ => rfl]
    exact SafeOr.bind (safe_spawnAll hs.1 hs.2) fun _ _ _ => trivial

end

/-! ## Cancellation and quiescence -/

section

variable {t : TaskId} {host : HostId} {session : HostSessionId}

/-- A call asks jobs to stop, and perhaps closes sessions. -/
theorem allowed_requestCancel {p : TransferJobId → TransferJob → Bool} {m : ManagerState} (h : s.Inv)
    (hjobs : m.jobs = s.state.jobs) (horder : m.order = s.state.order)
    (hsub : s.state.disconnecting ⊆ m.disconnecting)
    (htasks : m.cleanupTasks = s.state.cleanupTasks) :
    Allowed calls (.call t) s (requestCancel t p { s with state := m }) := by
  have hallowed : Allowed calls (.call t) s
      (requestCancel t p { s with state := m, log := s.log ++ [] }) :=
    step_stop h hjobs horder hsub htasks fun _ he => absurd he List.not_mem_nil
  rwa [List.append_nil] at hallowed

theorem safeOr_cancel {id : TransferJobId} {sftp : SftpSessionId} :
    (protocol calls).Conforms (.call t) (cancel t id host session sftp) s := by
  refine safeOr_act stable_true trivial fun s₁ r s₂ _ hi₁ hf => ?_
  have hrefl : Fallible.Post (fun _ _ => True) (fun _ _ => True) r s₂ := by cases r <;> trivial
  split at hf
  · obtain ⟨⟩ := hf
    exact ⟨hi₁, .refl s₁, hrefl⟩
  · split_ifs at hf
    · obtain ⟨⟩ := hf
      obtain ⟨hinv, hg⟩ : Allowed calls (.call t) s₁ (requestCancel t (fun id' _ => id' = id) _) :=
        allowed_requestCancel hi₁ rfl rfl (Finset.Subset.refl _) rfl
      exact ⟨hinv, hg, hrefl⟩
    · obtain ⟨⟩ := hf
      exact ⟨hi₁, .refl s₁, hrefl⟩

theorem safeOr_disconnect : (protocol calls).SafeOr (.call t)
    (fun _ s => .disconnected t (host, session) ∈ s.log) (fun _ _ => True)
    (disconnect t host session) s := by
  refine safeOr_lift.2 (safe_modify (k := .ret) stable_true trivial fun s₁ _ hi₁ => ?_)
  obtain ⟨hinv, hg⟩ : Allowed calls (.call t) s₁ (requestCancel t (ofSession (host, session))
      (s₁.closeSession t (host, session))) :=
    step_stop hi₁ rfl rfl (Finset.subset_insert ..) rfl fun e he =>
      ⟨(host, session), Finset.mem_insert_self .., List.mem_singleton.1 he⟩
  refine ⟨hinv, hg, ?_⟩
  exact List.mem_append_left _ List.mem_concat_self

theorem safeOr_shutdown : (protocol calls).Conforms (.call t) (shutdown t) s := by
  refine safeOr_lift.2 (safe_modify (k := .ret) stable_true trivial fun s₁ _ hi₁ => ?_)
  obtain ⟨hinv, hg⟩ : Allowed calls (.call t) s₁ (requestCancel t (fun _ _ => true) { s₁ with
      state := { s₁.state with
        shuttingDown := true
        disconnecting := s₁.state.disconnecting ∪ activeSessions s₁.state } }) :=
    allowed_requestCancel hi₁ rfl rfl Finset.subset_union_left rfl
  exact ⟨hinv, hg, trivial⟩

/-- A call that only looks at the state. -/
theorem neutral_look {α : Type} {f : TransferManager → Option (Except AppError α × TransferManager)}
    (hf : ∀ s r s', f s = some (r, s') → s' = s) :
    (protocol calls).Neutral (.call t) (Fallible.act f : ManagerCall α).run := by
  refine neutral_act fun s r s' hi hs => ?_
  obtain rfl := hf s r s' hs
  exact ⟨hi, .refl s', hi, hi, .inr ⟨.job ⟨0⟩, nofun, .refl s'⟩⟩

theorem neutral_waitAll {done : TransferManager → TransferJobId → Bool} {e : AppError}
    {ids : List TransferJobId} : (protocol calls).Neutral (.call t) (waitAll done e ids).run := by
  induction ids with
  | nil => exact neutral_pure
  | cons id ids ih =>
    refine (neutral_lift neutral_ask).andThen fun timeout => neutral_ensure.andThen fun _ => ?_
    refine (neutral_look fun s r s' hs => ?_).andThen fun _ => ih
    split_ifs at hs
    exact (Proc.result_inj hs).2.symm

theorem neutral_collect {p : ManagerState → TransferJobId → JobRecord → Bool} :
    (protocol calls).Neutral (.call t) (collect p).run := by
  refine (neutral_lift neutral_ask).andThen fun ids => ?_
  refine (neutral_look fun s r s' hs => ?_).andThen fun _ => neutral_pure
  split_ifs at hs
  exact (Proc.result_inj hs).2.symm

/-- The session is closed for new jobs, and none of its jobs is left. -/
theorem safeOr_checkQuiescent (h : .disconnected t (host, session) ∈ s.log) :
    (protocol calls).Conforms (.call t) (.act (checkQuiescent t (host, session))) s := by
  refine safeOr_act (stable_mem _) h fun s₁ r s₂ h₁ hi₁ hf => ?_
  have hrefl : Fallible.Post (fun _ _ => True) (fun _ _ => True) r s₂ := by cases r <;> trivial
  rw [checkQuiescent] at hf
  split_ifs at hf with hflagged hactive
  · obtain ⟨⟩ := hf
    exact ⟨hi₁, .refl s₁, hrefl⟩
  · obtain ⟨⟩ := hf
    exact ⟨hi₁, .refl s₁, hrefl⟩
  · obtain ⟨⟩ := hf
    rw [Bool.not_eq_true, Table.any_eq_false] at hflagged hactive
    obtain ⟨hinv, hg⟩ : Allowed calls (.call t) s₁ _ :=
      step_quiesced hi₁ ⟨t, h₁⟩ fun j job hget hsession => by
        have hof : ofSession (host, session) j job.view = true := decide_eq_true hsession
        have hflag := hflagged j job hget
        have hterminal := hactive j job hget
        rw [hof, Bool.true_and] at hflag hterminal
        exact ⟨hflag, by simpa using hterminal⟩
    exact ⟨hinv, hg, hrefl⟩

theorem safeOr_quiesceSession : (protocol calls).SafeOr (.call t) (fun _ _ => True)
    (fun _ _ => True) (quiesceSession t host session) s := by
  have hA : (protocol calls).Stable (.call t) fun s => .disconnected t (host, session) ∈ s.log :=
    stable_mem _
  have hskip : ∀ {α : Type} {x : ManagerCall α} {s : TransferManager},
      (protocol calls).Neutral (.call t) x.run → .disconnected t (host, session) ∈ s.log →
        (protocol calls).SafeOr (.call t) (fun _ s => .disconnected t (host, session) ∈ s.log)
          (fun _ _ => True) x s := fun hx h =>
    SafeOr.mono (hx.safeOr hA h) (fun _ _ h => h) fun _ _ _ => trivial
  refine SafeOr.bind safeOr_disconnect fun _ s h => ?_
  refine SafeOr.bind (hskip neutral_collect h) fun pending s h => ?_
  refine SafeOr.bind (hskip neutral_waitAll h) fun _ s h => ?_
  refine SafeOr.bind (hskip neutral_collect h) fun cleanup s h => ?_
  exact SafeOr.bind (hskip neutral_waitAll h) fun _ s h => safeOr_checkQuiescent h

theorem safeOr_quiesceSessions {sessions : List (HostId × HostSessionId)} :
    (protocol calls).Conforms (.call t) (quiesceSessions t sessions) s := by
  induction sessions generalizing s with
  | nil => trivial
  | cons session sessions ih => exact SafeOr.bind safeOr_quiesceSession fun _ _ _ => ih

theorem safeOr_quiesceAll : (protocol calls).Conforms (.call t) (quiesceAll t) s := by
  refine safeOr_bind.2 (safeOr_ask fun sessions => ?_)
  refine safeOr_bind.2 (safeOr_act stable_true trivial fun s₁ r s₂ _ hi₁ hf => ?_)
  split_ifs at hf
  obtain ⟨⟩ := hf
  exact ⟨hi₁, .refl s₁, safeOr_quiesceSessions⟩

end

/-! ## Soundness -/

theorem safe_callProgram (t : TaskId) : (protocol calls).Safe (.call t) (fun _ _ => True)
    (callProgram t (calls t)) s := by
  have hexec : ∀ {α : Type} {x : ManagerCall α},
      (protocol calls).Conforms (.call t) x s →
        (protocol calls).Safe (.call t) (fun _ _ => True) (exec x) s :=
    fun hx => Safe.bind hx fun _ _ _ => trivial
  cases hcall : calls t with
  | enqueueBatch specs => exact hexec (safeOr_enqueueBatch hcall)
  | cancel id host session sftp => exact hexec safeOr_cancel
  | disconnect host session =>
    exact hexec (SafeOr.mono safeOr_disconnect (fun _ _ _ => trivial) fun _ _ _ => trivial)
  | quiesceSession host session => exact hexec safeOr_quiesceSession
  | quiesceAll => exact hexec safeOr_quiesceAll
  | shutdown => exact hexec safeOr_shutdown

/-- A new manager. -/
theorem inv_new : (new : TransferManager).Inv where
  ok := ok_default
  records :=
    { known := fun _ _ h => nomatch h
      kept := fun _ _ ⟨_, _, h, _⟩ => nomatch h
      ended := fun _ _ h => nomatch h
      active := fun _ ⟨_, h, _⟩ => nomatch h
      accepted := fun _ ⟨_, _, h, _⟩ => nomatch h
      finalizing := fun _ _ h => nomatch h
      unconfirmed := fun _ ⟨_, h, _⟩ => nomatch h
      disconnecting := fun _ _ h => nomatch h
      used := fun _ _ ⟨_, _, h, _⟩ => nomatch h
      unique := fun _ _ _ _ _ ⟨_, h, _⟩ => nomatch h
      flagged := fun _ _ h => nomatch h }
  tickets :=
    { spawned := fun _ _ h => nomatch h
      cleanups := fun _ _ h => nomatch h
      owned := fun _ _ h => nomatch h
      done := fun _ h => nomatch h }
  scheduled :=
    { global_le := Nat.zero_le _
      hosts_le := fun _ => Nat.zero_le _
      global := fun _ h => absurd h (Finset.notMem_empty _)
      hosts := fun _ _ h => absurd h (Finset.notMem_empty _)
      holder := fun _ _ _ h => nomatch h
      mapped := fun _ _ h => nomatch h
      placed := fun _ h => absurd rfl h }
  rule := justified_nil

/-- Every task keeps to the protocol. -/
theorem sound_protocol (calls : TaskId → TransferCall) : (protocol calls).Sound where
  init s hs := by
    subst hs
    refine ⟨inv_new, fun i => ?_⟩
    cases i with
    | call t => trivial
    | job j =>
      exact ⟨fun h => absurd rfl h, rfl, fun _ he => absurd he List.not_mem_nil, rfl,
        Finset.notMem_empty _, fun _ => Finset.notMem_empty _, rfl, rfl⟩
    | cleanup j => exact fun h => absurd rfl h
  env _ _ _ h := h.elim
  idle i := by
    cases i with
    | call t => exact stable_true
    | job j => exact stable_waiting j
    | cleanup j => exact stable_idleCleanup j
  entry i p s hp _ hidle := by
    subst hp
    cases i with
    | call t => exact safe_callProgram t
    | job j => exact safe_jobTask hidle
    | cleanup j => exact safe_cleanupTask hidle

end TransferManager

end NexusOps.Sftp
