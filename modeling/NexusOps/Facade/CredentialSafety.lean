import NexusOps.Facade.System

/-!
# No dangling credentials

A host refers to its credential by an id, and the two are kept in different stores. The calls that
edit and delete hosts (`save_host`, `delete_host`) write to both, in an order such that a stored
host never refers to a credential that is missing, whatever fails, and wherever a call is dropped
or the application crashes:

* a credential is stored before the host that refers to it, under a new id;
* a credential is removed only when no host refers to it any more.

A job that removes a credential may be done long after the call that has spawned it is gone. So
it is an invariant that no stored host refers to what such a job removes (`Inv.removed`), and an
id that has been stored once is never taken for a new credential (`IdUse`).
-/

namespace NexusOps.Facade.Credentials

open Concurrency Protocol NexusOps.Core RemoteOperations Function RemoteOperationFoundation Application

/-! ## The system -/

/-- The calls. A new host, or a new credential, may be given or not. -/
inductive Call
  | saveHost (input : HostInput) (credential : Bool)
  | deleteHost (id : HostId)

/-- The program of a call, which may be dropped. -/
def program (t : TaskId) : Call → Proc Facade Unit
  | .saveHost input credential => do let _ ← (saveHost true t input credential).run
  | .deleteHost id => do let _ ← (deleteHost true t id).run

/-- What outlives the application. The ids that have been drawn are not drawn again. -/
structure Disk where
  repository : HostId → Option StoredHost
  present : Finset HostId
  ids : HostId → IdUse

/-- Before the application is used for the first time. -/
def Disk.empty : Disk := ⟨fun _ => none, ∅, fun _ => .unused⟩

/-- The call that has drawn an id is gone. -/
def retire : IdUse → IdUse
  | .unused => .unused
  | _ => .stored

/-- What is left after a crash. -/
def Disk.ofCrash (s : Facade) : Disk where
  repository := s.app.repository
  present := s.secrets.present
  ids id := retire (s.ids id)

/-- The application has been opened with what is stored. -/
structure Opens (disk : Disk) (s : Facade) : Prop extends Initial s where
  repository : s.app.repository = disk.repository
  present : s.secrets.present = disk.present
  ids : s.ids = disk.ids

/-- The concurrent calls, from when the application is opened until it crashes. -/
def system (disk : Disk) (calls : TaskId → Call) : System TaskId Facade where
  init := Opens disk
  entry t p := p = program t (calls t)
  env := Env

/-- What may be stored, after the application has crashed any number of times. -/
inductive Persists : Disk → Prop
  | empty : Persists .empty
  | crash {disk : Disk} {calls : TaskId → Call} {ls : List (Label TaskId)}
      {c : Config TaskId Facade} (h : Persists disk) (hr : (system disk calls).machine.Run ls c) :
      Persists (.ofCrash c.shared)

/-- Each stored host refers to a credential that is present. -/
def NoneDangling (s : Facade) : Prop :=
  ∀ id stored, s.app.repository id = some stored → stored.credentialId ∈ s.secrets.present

/-! ## The protocol -/

variable {disk : Disk} {calls : TaskId → Call} {t : TaskId} {s s' : Facade} {c : HostId}

/-- No stored host refers to the credential. -/
def Unreferenced (c : HostId) (s : Facade) : Prop :=
  ∀ id stored, s.app.repository id = some stored → stored.credentialId ≠ c

/-- The invariant. -/
structure Inv (s : Facade) : Prop where
  present : NoneDangling s
  stored : ∀ id stored, s.app.repository id = some stored →
    s.ids id = .stored ∧ s.ids stored.credentialId = .stored
  unique : ∀ id id' stored stored', s.app.repository id = some stored →
    s.app.repository id' = some stored' → stored.credentialId = stored'.credentialId → id = id'
  removed : ∀ job c, s.secrets.jobs job = some (.delete c) → s.ids c ≠ .unused ∧ Unreferenced c s

/-- What a section of a call may do. -/
structure Guarantee (t : TaskId) (s s' : Facade) : Prop where
  gates : ∀ id g, g.task ≠ t → (s'.app.remoteOperations.hostGates id = some g ↔
    s.app.remoteOperations.hostGates id = some g)
  stored : ∀ id, s.ids id = .stored → s'.ids id = .stored
  drawn : ∀ id j, j ≠ t → s.ids id = .drawn j → s'.ids id = .drawn j
  hosts : ∀ id, s'.app.repository id ≠ s.app.repository id →
    s.app.remoteOperations.hostGates id = some (.lifecycle t) ∨ s.ids id = .drawn t
  /-- A host refers to the same credential as before, or to one of the call's own. -/
  credentials : ∀ id stored, s'.app.repository id = some stored →
    s.ids stored.credentialId = .drawn t ∨
      ∃ old, s.app.repository id = some old ∧ old.credentialId = stored.credentialId
  present : s'.secrets.present = s.secrets.present
  results : s'.secrets.results = s.secrets.results
  jobs : ∀ job j, s.secrets.jobs job = some j → s'.secrets.jobs job = some j
  spawned : ∀ job c, s'.secrets.jobs job = some (.delete c) →
    s.secrets.jobs job = some (.delete c) ∨ s.ids c = .stored ∨ s.ids c = .drawn t
  /-- The place of a job that has been done is not used again. -/
  done : ∀ job, s.secrets.results job ≠ none → s'.secrets.jobs job = s.secrets.jobs job

/-- The protocol of the calls. -/
def protocol (disk : Disk) (calls : TaskId → Call) : Protocol (system disk calls) where
  inv := Inv
  guarantee := Guarantee
  idle _ _ := True

/-! ## Calm sections -/

theorem Calm.guarantee (h : Calm s s') (t : TaskId) : Guarantee t s s' := by
  refine ⟨fun id g _ => by rw [h.app.gates], fun id hid => by rwa [h.ids],
    fun id j _ hid => by rwa [h.ids], fun id hne => absurd (by rw [h.app.repository]) hne,
    fun id stored hs => .inr ⟨stored, by rwa [← h.app.repository], rfl⟩, by rw [h.secrets],
    by rw [h.secrets], fun job j hj => by rwa [h.secrets], fun job c hj => .inl ?_,
    fun job _ => by rw [h.secrets]⟩
  rwa [← h.secrets]

theorem Calm.inv (h : Calm s s') (hi : Inv s) : Inv s' := by
  obtain ⟨⟨hrepository, -⟩, hids, hsecrets⟩ := h
  refine ⟨?_, ?_, ?_, ?_⟩
  · rw [NoneDangling, hrepository, hsecrets]
    exact hi.present
  · rw [hrepository, hids]
    exact hi.stored
  · rw [hrepository]
    exact hi.unique
  · simp only [Unreferenced, hrepository, hsecrets, hids]
    exact hi.removed

/-- There is always another call. -/
theorem exists_ne (t : TaskId) : ∃ j : TaskId, j ≠ t :=
  ⟨⟨t.number + 1⟩, fun h => absurd (congrArg TaskId.number h) (Nat.succ_ne_self _)⟩

theorem neutral_of_calm {α : Type} {p : Proc Facade α} (h : Within Calm p) :
    (protocol disk calls).Neutral t p := by
  refine h.neutral fun s s' hi hcalm => ?_
  obtain ⟨j, hj⟩ := exists_ne t
  have hi' := Calm.inv hcalm hi
  exact ⟨hi', Calm.guarantee hcalm t, hi, hi', .inr ⟨j, hj, Calm.guarantee hcalm j⟩⟩

/-! ## The thread pool -/

/-- A job that is done changes nothing but what is present. -/
theorem inv_finishJob {job : JobId} {j : SecretJob} {result : Except AppError Unit} (hi : Inv s)
    (hj : s.secrets.jobs job = some j) : Inv (finishJob s job j result) := by
  have hjobs : ∀ job' c, (finishJob s job j result).secrets.jobs job' = some (.delete c) →
      s.secrets.jobs job' = some (.delete c) := by
    intro job' c h
    by_cases heq : job' = job
    · subst heq
      simp [finishJob] at h
    · simpa [finishJob, update_of_ne heq] using h
  refine ⟨fun id stored hs => ?_, hi.stored, hi.unique, fun job' c h => hi.removed job' c (hjobs _ _ h)⟩
  have hpresent := hi.present id stored hs
  cases result with
  | error e => exact hpresent
  | ok _ =>
    cases j with
    | put c => exact Finset.mem_insert_of_mem hpresent
    | delete c => exact Finset.mem_erase.2 ⟨(hi.removed job c hj).2 id stored hs, hpresent⟩

theorem inv_env (hi : Inv s) (h : Env s s') : Inv s' := by
  cases h with
  | app app h =>
    refine Calm.inv (s := s) ⟨⟨?_, ?_⟩, rfl, rfl⟩ hi
    · cases h <;> rfl
    · cases h <;> rfl
  | tick clock h => exact Calm.inv (s := s) ⟨.refl _, rfl, rfl⟩ hi
  | job id job result h => exact inv_finishJob hi h

/-- What the surroundings leave alone. -/
theorem env_frame (h : Env s s') : s.app.Calm s'.app ∧ s'.ids = s.ids := by
  cases h with
  | app app h => exact ⟨by cases h <;> exact ⟨rfl, rfl⟩, rfl⟩
  | tick clock h => exact ⟨.refl _, rfl⟩
  | job id job result h => exact ⟨.refl _, rfl⟩

/-! ## What a call knows -/

/-- What others do not change, and the surroundings neither. -/
theorem stable_of {A : Facade → Prop}
    (hothers : ∀ j s s', j ≠ t → Inv s → Guarantee j s s' → A s → A s')
    (henv : ∀ s s', Inv s → Env s s' → A s → A s') : (protocol disk calls).Stable t A := by
  rintro s s' ⟨hi, -, henv' | ⟨j, hj, hg⟩⟩ hs
  · exact henv s s' hi henv' hs
  · exact hothers j s s' hj hi hg hs

/-- The call holds the gate of the host that it edits, if there is one. -/
def Holds (t : TaskId) (guard : Option HostId) (s : Facade) : Prop :=
  ∀ id ∈ guard, s.app.remoteOperations.hostGates id = some (.lifecycle t)

theorem stable_holds {guard : Option HostId} :
    (protocol disk calls).Stable t (Holds t guard) := by
  refine stable_of (fun j s s' hj _ hg h id hid => ?_) fun s s' _ he h id hid => ?_
  · exact (hg.gates id (.lifecycle t) (Ne.symm hj)).2 (h id hid)
  · rw [(env_frame he).1.gates]
    exact h id hid

/-- The id has been drawn by the call. -/
def Drawn (t : TaskId) (c : HostId) (s : Facade) : Prop := s.ids c = .drawn t

theorem stable_drawn : (protocol disk calls).Stable t (Drawn t c) := by
  refine stable_of (fun j s s' hj _ hg h => hg.drawn c t (Ne.symm hj) h) fun s s' _ he h => ?_
  rw [Drawn, (env_frame he).2]
  exact h

/-- No host refers to what the call has drawn, until it stores one. -/
theorem Drawn.unreferenced (h : Drawn t c s) (hi : Inv s) : Unreferenced c s := by
  rintro id stored hs rfl
  rw [Drawn, (hi.stored id stored hs).2] at h
  exact absurd h (by simp)

/-- No job is going to remove the credential. -/
def Spared (t : TaskId) (c : HostId) (s : Facade) : Prop :=
  Drawn t c s ∧ ∀ job, s.secrets.jobs job ≠ some (.delete c)

/-- The surroundings do not spawn jobs. -/
theorem env_jobs {job : JobId} {j : SecretJob} (h : Env s s')
    (hj : s'.secrets.jobs job = some j) : s.secrets.jobs job = some j := by
  cases h with
  | app app h => exact hj
  | tick clock h => exact hj
  | job id job' result h =>
    by_cases heq : job = id
    · subst heq
      simp [finishJob] at hj
    · simpa [finishJob, update_of_ne heq] using hj

theorem stable_spared : (protocol disk calls).Stable t (Spared t c) := by
  refine stable_of (fun j s s' hj _ hg ⟨hdrawn, h⟩ => ⟨hg.drawn c t (Ne.symm hj) hdrawn,
    fun job hjob => ?_⟩) fun s s' _ he ⟨hdrawn, h⟩ => ⟨?_, fun job hjob => ?_⟩
  · -- Others only remove what has been stored, or what they have drawn.
    rw [Drawn] at hdrawn
    rcases hg.spawned job c hjob with hjob | hid | hid
    · exact h job hjob
    · rw [hdrawn] at hid
      exact absurd hid (by simp)
    · rw [hdrawn] at hid
      exact hj (IdUse.drawn.inj hid).symm
  · rw [Drawn, (env_frame he).2]
    exact hdrawn
  · exact h job (env_jobs he hjob)

/-- The new credential is present. -/
def Secured (t : TaskId) (c : HostId) (s : Facade) : Prop :=
  Spared t c s ∧ c ∈ s.secrets.present

/-- What is present and not going to be removed stays so. -/
theorem env_present (h : Env s s') (hspared : ∀ job, s.secrets.jobs job ≠ some (.delete c))
    (hc : c ∈ s.secrets.present) : c ∈ s'.secrets.present := by
  cases h with
  | app app h => exact hc
  | tick clock h => exact hc
  | job id job result h =>
    cases result with
    | error e => exact hc
    | ok _ =>
      cases job with
      | put c' => exact Finset.mem_insert_of_mem hc
      | delete c' =>
        refine Finset.mem_erase.2 ⟨?_, hc⟩
        rintro rfl
        exact hspared id h

theorem stable_secured : (protocol disk calls).Stable t (Secured t c) := by
  rintro s s' hint ⟨hspared, hc⟩
  refine ⟨stable_spared s s' hint hspared, ?_⟩
  rcases hint.2.2 with he | ⟨j, -, hg⟩
  · exact env_present he hspared.2 hc
  · rw [hg.present]
    exact hc

/-- The credential can be removed: no host refers to it, and none will. -/
def Removable (t : TaskId) (c : HostId) (s : Facade) : Prop :=
  (s.ids c = .stored ∨ s.ids c = .drawn t) ∧ Unreferenced c s

theorem stable_removable : (protocol disk calls).Stable t (Removable t c) := by
  refine stable_of (fun j s s' hj _ hg ⟨hid, h⟩ => ⟨?_, ?_⟩) fun s s' _ he ⟨hid, h⟩ => ⟨?_, ?_⟩
  · exact hid.imp (hg.stored c) (hg.drawn c t (Ne.symm hj))
  · rintro id stored hs rfl
    rcases hg.credentials id stored hs with hdrawn | ⟨old, hold, heq⟩
    · -- Another call would have drawn it.
      rcases hid with hid | hid
      · rw [hid] at hdrawn
        exact absurd hdrawn (by simp)
      · rw [hid] at hdrawn
        exact hj (IdUse.drawn.inj hdrawn).symm
    · exact h id old hold heq
  · rw [(env_frame he).2]
    exact hid
  · rw [Unreferenced, (env_frame he).1.repository]
    exact h

/-- The host is still stored as the call has found it, since the call holds its gate. -/
structure Prior (t : TaskId) (guard : Option HostId) (previous : Option StoredHost) (s : Facade) :
    Prop where
  holds : Holds t guard s
  found : guard.isSome → previous.isSome
  edited : ∀ p ∈ previous, ∃ id ∈ guard, s.app.repository id = some p

theorem stable_prior {guard : Option HostId} {previous : Option StoredHost} :
    (protocol disk calls).Stable t (Prior t guard previous) := by
  rintro s s' hint ⟨hholds, hfound, hedited⟩
  refine ⟨stable_holds s s' hint hholds, hfound, fun p hp => ?_⟩
  obtain ⟨id, hid, hs⟩ := hedited p hp
  refine ⟨id, hid, ?_⟩
  rcases hint.2.2 with he | ⟨j, hj, hg⟩
  · rw [(env_frame he).1.repository]
    exact hs
  · -- Another call would hold the gate, or have drawn the id.
    by_contra hne
    rw [← hs] at hne
    rcases hg.hosts id hne with hgate | hdrawn
    · rw [hholds id hid] at hgate
      exact hj (GateHolder.lifecycle.inj (Option.some.inj hgate)).symm
    · rw [(hint.1.stored id p hs).1] at hdrawn
      exact absurd hdrawn (by simp)

/-- The host that is stored is the one that is edited, or has a new id. -/
def Aims (t : TaskId) (host : HostId) (s : Facade) : Option HostId → Prop
  | some id => host = id
  | none => Drawn t host s

theorem stable_aims {guard : Option HostId} {host : HostId} :
    (protocol disk calls).Stable t fun s => Aims t host s guard := by
  cases guard with
  | none => exact stable_drawn
  | some id => exact fun _ _ _ h => h

/-! ## Steps -/

/-- An id is drawn. -/
theorem step_draw (hi : Inv s) (hc : s.ids c = .unused) :
    Inv { s with ids := Function.update s.ids c (.drawn t) } ∧
      Guarantee t s { s with ids := Function.update s.ids c (.drawn t) } := by
  have hne : ∀ id, s.ids id ≠ .unused → id ≠ c := fun id hid h => hid (h ▸ hc)
  have hkeep : ∀ id, s.ids id ≠ .unused → Function.update s.ids c (.drawn t) id = s.ids id :=
    fun id hid => update_of_ne (hne id hid) ..
  refine ⟨⟨hi.present, fun id stored hs => ?_, hi.unique, fun job c' hj => ?_⟩,
    ⟨fun _ _ _ => Iff.rfl, fun id hid => ?_, fun id j _ hid => ?_, fun id h => absurd rfl h,
    fun id stored hs => .inr ⟨stored, hs, rfl⟩, rfl, rfl, fun _ _ h => h, fun _ _ h => .inl h,
    fun _ _ => rfl⟩⟩
  · obtain ⟨hid, hcredential⟩ := hi.stored id stored hs
    refine ⟨(hkeep _ ?_).trans hid, (hkeep _ ?_).trans hcredential⟩
    · simp [hid]
    · simp [hcredential]
  · obtain ⟨hused, hunreferenced⟩ := hi.removed job c' hj
    exact ⟨(hkeep c' hused).trans_ne hused, hunreferenced⟩
  · exact (hkeep _ (by simp [hid])).trans hid
  · exact (hkeep _ (by simp [hid])).trans hid

/-- A job is spawned. What it removes must be removable. -/
theorem step_spawn {id : JobId} (job : SecretJob) (hi : Inv s) (hjob : s.secrets.jobs id = none)
    (hresult : s.secrets.results id = none) (hdelete : ∀ c, job = .delete c → Removable t c s) :
    Inv { s with secrets.jobs := Function.update s.secrets.jobs id (some job) } ∧
      Guarantee t s { s with secrets.jobs := Function.update s.secrets.jobs id (some job) } := by
  have hcases : ∀ job' c, Function.update s.secrets.jobs id (some job) job' = some (.delete c) →
      s.secrets.jobs job' = some (.delete c) ∨ Removable t c s := by
    intro job' c h
    by_cases heq : job' = id
    · subst heq
      rw [update_self] at h
      exact .inr (hdelete c (Option.some.inj h))
    · rw [update_of_ne heq] at h
      exact .inl h
  refine ⟨⟨hi.present, hi.stored, hi.unique, fun job' c h => ?_⟩,
    ⟨fun _ _ _ => Iff.rfl, fun _ h => h, fun _ _ _ h => h, fun id h => absurd rfl h,
    fun id stored hs => .inr ⟨stored, hs, rfl⟩, rfl, rfl, fun job' j h => ?_, fun job' c h => ?_,
    fun job' h => ?_⟩⟩
  · rcases hcases job' c h with h | ⟨hid, hunreferenced⟩
    · exact hi.removed job' c h
    · refine ⟨?_, hunreferenced⟩
      rcases hid with hid | hid <;> simp [hid]
  · have hne : job' ≠ id := fun heq => by simp [heq, hjob] at h
    exact (update_of_ne hne ..).trans h
  · exact (hcases job' c h).imp_right fun h => h.1
  · have hne : job' ≠ id := fun heq => h (heq ▸ hresult)
    exact update_of_ne hne ..

/-- The credential of a host that is going to be stored: a new one, or that from before. -/
def Credential (t : TaskId) (previous : Option StoredHost) (c : HostId) (s : Facade) : Prop :=
  Secured t c s ∨ ∃ p ∈ previous, p.credentialId = c

theorem stable_credential {previous : Option StoredHost} :
    (protocol disk calls).Stable t (Credential t previous c) := fun s s' hint h =>
  h.imp_left (stable_secured s s' hint)

section

variable {guard : Option HostId} {previous : Option StoredHost} {host : Host}

/-- What is known before a host is stored. -/
structure Ready (t : TaskId) (guard : Option HostId) (previous : Option StoredHost) (host c : HostId)
    (s : Facade) : Prop where
  prior : Prior t guard previous s
  aims : Aims t host s guard
  credential : Credential t previous c s

theorem stable_ready {h : HostId} :
    (protocol disk calls).Stable t (Ready t guard previous h c) := fun s s' hint hs =>
  ⟨stable_prior s s' hint hs.prior, stable_aims s s' hint hs.aims,
    stable_credential s s' hint hs.credential⟩

/-- Before the host is stored, nobody else refers to its credential. -/
theorem Ready.unreferenced {h id : HostId} {stored : StoredHost} (hr : Ready t guard previous h c s)
    (hi : Inv s) (hs : s.app.repository id = some stored) (hc : stored.credentialId = c) :
    id = h := by
  rcases hr.credential with hnew | ⟨p, hp, rfl⟩
  · exact absurd hc (hnew.1.1.unreferenced hi id stored hs)
  · obtain ⟨id', hid', hp'⟩ := hr.prior.edited p hp
    have haims := hr.aims
    obtain rfl : guard = some id' := hid'
    exact (hi.unique id id' stored p hs hp' hc).trans haims.symm

theorem storeIds_stored {ids : HostId → IdUse} {stored : StoredHost} {id : HostId}
    (h : ids id = .stored ∨ id = stored.host.id ∨ id = stored.credentialId) :
    storeIds ids stored id = .stored := by
  rw [storeIds, update_apply, update_apply]
  split_ifs with h₁ h₂
  · rfl
  · rfl
  · exact h.resolve_right (not_or.2 ⟨h₂, h₁⟩)

theorem storeIds_of_ne {ids : HostId → IdUse} {id : HostId} (stored : StoredHost)
    (hhost : id ≠ stored.host.id) (hc : id ≠ stored.credentialId) :
    storeIds ids stored id = ids id := by
  rw [storeIds, update_of_ne hc, update_of_ne hhost]

/-- An edited host is stored under the id that is known of it. -/
theorem Prior.stored {id : HostId} (h : Prior t (some id) previous s) :
    ∃ p ∈ previous, s.app.repository id = some p := by
  obtain ⟨p, hp⟩ := Option.isSome_iff_exists.1 (h.found rfl)
  obtain ⟨id', hid', hs⟩ := h.edited p hp
  exact ⟨p, hp, Option.some.inj hid' ▸ hs⟩

/-- The credential of the host is present, and stays so. -/
theorem Ready.present {h : HostId} (hr : Ready t guard previous h c s) (hi : Inv s) :
    c ∈ s.secrets.present ∧ ∀ job, s.secrets.jobs job ≠ some (.delete c) := by
  rcases hr.credential with hnew | ⟨p, hp, rfl⟩
  · exact ⟨hnew.2, hnew.1.2⟩
  · obtain ⟨id, -, hs⟩ := hr.prior.edited p hp
    exact ⟨hi.present id p hs, fun job hjob => (hi.removed job _ hjob).2 id p hs rfl⟩

/-- The ids of the host and of its credential are no other call's. -/
theorem Ready.ne_drawn {h id : HostId} {j : TaskId} (hr : Ready t guard previous h c s) (hi : Inv s)
    (hj : j ≠ t) (hid : s.ids id = .drawn j) : id ≠ h ∧ id ≠ c := by
  refine ⟨?_, ?_⟩
  · rintro rfl
    have haims := hr.aims
    cases guard with
    | none => exact hj (IdUse.drawn.inj (hid.symm.trans haims))
    | some id' =>
      obtain ⟨p, -, hs⟩ := hr.prior.stored
      obtain rfl : id = id' := haims
      exact absurd (hid.symm.trans (hi.stored id p hs).1) (by simp)
  · rintro rfl
    rcases hr.credential with hnew | ⟨p, hp, rfl⟩
    · exact hj (IdUse.drawn.inj (hid.symm.trans hnew.1.1))
    · obtain ⟨id', -, hs⟩ := hr.prior.edited p hp
      exact absurd (hid.symm.trans (hi.stored id' p hs).2) (by simp)

/-- The stored hosts are those from before, and the new one. -/
theorem commitHost_cases {id : HostId} {stored stored' : StoredHost}
    (h : (commitHost t stored s).app.repository id = some stored') :
    id = stored.host.id ∧ stored' = stored ∨
      id ≠ stored.host.id ∧ s.app.repository id = some stored' := by
  change Function.update s.app.repository stored.host.id (some stored) id = some stored' at h
  by_cases heq : id = stored.host.id
  · rw [heq, update_self] at h
    exact .inl ⟨heq, (Option.some.inj h).symm⟩
  · rw [update_of_ne heq] at h
    exact .inr ⟨heq, h⟩

theorem inv_commitHost (hi : Inv s) (hr : Ready t guard previous host.id c s) :
    Inv (commitHost t ⟨host, c⟩ s) := by
  obtain ⟨hpresent, hspared⟩ := hr.present hi
  refine ⟨fun id stored hs => ?_, fun id stored hs => ?_, fun id id' stored stored' hs hs' hc => ?_,
    fun job c' hjob => ⟨?_, fun id stored hs => ?_⟩⟩
  · rcases commitHost_cases hs with ⟨-, rfl⟩ | ⟨-, hs⟩
    · exact hpresent
    · exact hi.present id stored hs
  · rcases commitHost_cases hs with ⟨rfl, rfl⟩ | ⟨-, hs⟩
    · exact ⟨storeIds_stored (.inr (.inl rfl)), storeIds_stored (.inr (.inr rfl))⟩
    · obtain ⟨hid, hcredential⟩ := hi.stored id stored hs
      exact ⟨storeIds_stored (.inl hid), storeIds_stored (.inl hcredential)⟩
  · rcases commitHost_cases hs with ⟨rfl, rfl⟩ | ⟨hne, hs⟩
    · rcases commitHost_cases hs' with ⟨rfl, -⟩ | ⟨-, hs'⟩
      · rfl
      · exact (hr.unreferenced hi hs' hc.symm).symm
    · rcases commitHost_cases hs' with ⟨rfl, rfl⟩ | ⟨-, hs'⟩
      · exact hr.unreferenced hi hs hc
      · exact hi.unique id id' stored stored' hs hs' hc
  · -- An id that has been used remains so.
    have hused := (hi.removed job c' hjob).1
    by_cases hstored : c' = host.id ∨ c' = c
    · exact (storeIds_stored (.inr hstored)).trans_ne (by simp)
    · rw [not_or] at hstored
      exact (storeIds_of_ne ⟨host, c⟩ hstored.1 hstored.2).trans_ne hused
  · rcases commitHost_cases hs with ⟨-, rfl⟩ | ⟨-, hs⟩
    · rintro rfl
      exact hspared job hjob
    · exact (hi.removed job c' hjob).2 id stored hs

theorem guarantee_commitHost (hi : Inv s) (hr : Ready t guard previous host.id c s) :
    Guarantee t s (commitHost t ⟨host, c⟩ s) := by
  refine ⟨fun _ _ _ => Iff.rfl, fun id hid => storeIds_stored (.inl hid), fun id j hj hid => ?_,
    fun id hne => ?_, fun id stored hs => ?_, rfl, rfl, fun _ _ h => h, fun _ _ h => .inl h,
    fun _ _ => rfl⟩
  · obtain ⟨hhost, hc⟩ := hr.ne_drawn hi hj hid
    exact (storeIds_of_ne ⟨host, c⟩ hhost hc).trans hid
  · -- Only the host itself is changed.
    have heq : id = host.id := by
      by_contra heq
      exact hne (update_of_ne heq ..)
    have haims := hr.aims
    cases guard with
    | none => exact .inr (heq ▸ haims)
    | some id' => exact .inl (hr.prior.holds id (congrArg some (heq.trans haims).symm))
  · rcases commitHost_cases hs with ⟨rfl, rfl⟩ | ⟨-, hs⟩
    · rcases hr.credential with hnew | ⟨p, hp, hpc⟩
      · exact .inl hnew.1.1
      · obtain ⟨id', hid', hs'⟩ := hr.prior.edited p hp
        have haims := hr.aims
        obtain rfl : guard = some id' := hid'
        obtain rfl : host.id = id' := haims
        exact .inr ⟨p, hs', hpc⟩
    · exact .inr ⟨stored, hs, rfl⟩

/-- The credential that has been replaced can be removed. -/
theorem removable_commitHost {p : StoredHost} (hi : Inv s)
    (hr : Ready t guard previous host.id c s) (hp : p ∈ previous) (hne : p.credentialId ≠ c) :
    Removable t p.credentialId (commitHost t ⟨host, c⟩ s) := by
  obtain ⟨id, hid, hs⟩ := hr.prior.edited p hp
  have haims := hr.aims
  obtain rfl : guard = some id := hid
  obtain rfl : host.id = id := haims
  refine ⟨.inl (storeIds_stored (.inl (hi.stored _ p hs).2)), fun id stored h => ?_⟩
  rcases commitHost_cases h with ⟨-, rfl⟩ | ⟨hne, h⟩
  · exact hne.symm
  · -- It was the credential of this host only.
    exact fun hc => hne (hi.unique id host.id stored p h hs hc)

end

/-- A host is removed, and its credential can be as well. -/
theorem step_dropHost {id : HostId} {stored : StoredHost} (hi : Inv s)
    (hgate : s.app.remoteOperations.hostGates id = some (.lifecycle t))
    (hs : s.app.repository id = some stored) :
    Inv (dropHost t id s) ∧ Guarantee t s (dropHost t id s) ∧
      Removable t stored.credentialId (dropHost t id s) := by
  have hcases : ∀ id' stored', (dropHost t id s).app.repository id' = some stored' →
      id' ≠ id ∧ s.app.repository id' = some stored' := by
    intro id' stored' h
    by_cases heq : id' = id
    · subst heq
      exact absurd ((update_self ..).symm.trans h) (by simp)
    · exact ⟨heq, (update_of_ne heq ..).symm.trans h⟩
  refine ⟨⟨fun id' stored' h => hi.present id' stored' (hcases _ _ h).2,
    fun id' stored' h => hi.stored id' stored' (hcases _ _ h).2,
    fun _ _ _ _ h h' => hi.unique _ _ _ _ (hcases _ _ h).2 (hcases _ _ h').2,
    fun job c hjob => ⟨(hi.removed job c hjob).1, fun id' stored' h =>
      (hi.removed job c hjob).2 id' stored' (hcases _ _ h).2⟩⟩,
    ⟨fun _ _ _ => Iff.rfl, fun _ h => h, fun _ _ _ h => h, fun id' hne => ?_,
      fun id' stored' h => .inr ⟨stored', (hcases _ _ h).2, rfl⟩, rfl, rfl, fun _ _ h => h,
      fun _ _ h => .inl h, fun _ _ => rfl⟩,
    .inl (hi.stored id stored hs).2, fun id' stored' h hc => ?_⟩
  · have heq : id' = id := by
      by_contra heq
      exact hne (update_of_ne heq ..)
    exact .inl (heq ▸ hgate)
  · obtain ⟨hne, h⟩ := hcases _ _ h
    exact hne (hi.unique id' id stored' stored h hs hc)

/-- The gate of a host is locked or unlocked by the call. -/
theorem step_gate {id : HostId} (app : Application) (holder : Option GateHolder) (hi : Inv s)
    (hrepository : app.repository = s.app.repository)
    (hgates : app.remoteOperations.hostGates =
      Function.update s.app.remoteOperations.hostGates id holder)
    (hold : ∀ g ∈ s.app.remoteOperations.hostGates id, g.task = t)
    (hnew : ∀ g ∈ holder, g.task = t) :
    Inv { s with app := app } ∧ Guarantee t s { s with app := app } := by
  refine ⟨⟨?_, ?_, ?_, ?_⟩, ⟨fun id' g hg => ?_, fun _ h => h, fun _ _ _ h => h, fun id' h => ?_,
    fun id' stored h => .inr ⟨stored, ?_, rfl⟩, rfl, rfl, fun _ _ h => h, fun _ _ h => .inl h,
    fun _ _ => rfl⟩⟩
  · simp only [NoneDangling, hrepository]
    exact hi.present
  · simp only [hrepository]
    exact hi.stored
  · simp only [hrepository]
    exact hi.unique
  · simp only [Unreferenced, hrepository]
    exact hi.removed
  · simp only [hgates]
    exact gates_update hold hnew id' g hg
  · exact absurd (congrFun hrepository id') h
  · exact (congrFun hrepository id').symm.trans h

/-! ## Calls -/

section

variable {α β : Type} {guard : Option HostId} {previous : Option StoredHost} {A D : Facade → Prop}

/-- A part of a call that leaves the hosts and credentials alone. -/
theorem preserves_calm {x : Task α} (h : Within Calm x.run)
    (hA : (protocol disk calls).Stable t A) (hD : ∀ s, A s → D s) :
    (protocol disk calls).Preserves t A D x :=
  (neutral_of_calm h).preserves hA hD

/-- The guard is dropped in any case. -/
theorem safeAsync_withLifecycleGuard {id : HostId} {x : Task α}
    (h : ∀ s, Holds t (some id) s → (protocol disk calls).SafeAsync t (fun _ => Holds t (some id))
      (fun _ => Holds t (some id)) (Holds t (some id)) x s) :
    (protocol disk calls).SafeAsync t (fun _ _ => True) (fun _ _ => True) (fun _ => True)
      (withLifecycleGuard true t id x) s := by
  have hrelease : ∀ s, Holds t (some id) s → (protocol disk calls).Safe t (fun _ _ => True)
      (.modify fun s => { s with app := unlockGate s.app id }) s := by
    refine fun s hs => safe_modify (k := .ret) stable_holds hs fun s₁ hs₁ hi => ?_
    have hold : ∀ g ∈ s₁.app.remoteOperations.hostGates id, g.task = t := by
      intro g hg
      obtain rfl : GateHolder.lifecycle t = g := Option.mem_unique (hs₁ id rfl) hg
      rfl
    obtain ⟨hi', hg⟩ := step_gate (unlockGate s₁.app id) none hi rfl rfl
      hold fun g hg => absurd hg (by simp)
    exact ⟨hi', hg, trivial⟩
  refine SafeOr.bind (R := fun _ => Holds t (some id)) (safeAsync_locked (A := fun _ => True)
    (fun _ _ _ _ => trivial) trivial (fun _ _ => trivial) fun s₁ r s₂ _ hi hf => ?_)
    fun _ s₁ hs₁ => ?_
  · obtain ⟨app, happ, hr⟩ := Option.map_eq_some_iff.1 hf
    obtain ⟨⟩ := hr
    obtain ⟨hfree, happ⟩ := lockGate_eq_some.1 happ
    have hold : ∀ g ∈ s₁.app.remoteOperations.hostGates id, g.task = t := fun g hg =>
      absurd (hfree.symm.trans hg) (by simp)
    have hnew : ∀ g ∈ some (GateHolder.lifecycle t), g.task = t := by
      intro g hg
      obtain rfl : GateHolder.lifecycle t = g := Option.some.inj hg
      rfl
    obtain ⟨hi', hg⟩ := step_gate app (some (.lifecycle t)) hi (by rw [happ]; rfl)
      (by rw [happ]; rfl) hold hnew
    subst happ
    refine ⟨hi', hg, fun id' hid' => ?_⟩
    obtain rfl : id = id' := Option.some.inj hid'
    exact update_self ..
  · refine safeAsync_always (SafeAsync.mono (h s₁ hs₁) (fun _ s hs => ?_) (fun _ s hs => ?_)
      fun s hs => ?_)
    · exact hrelease s hs
    · exact hrelease s hs
    · exact hrelease s hs

theorem safeAsync_freshId (hA : (protocol disk calls).Stable t A) (hs : A s)
    (hkeep : ∀ s c, A s → s.ids c = .unused → A { s with ids := Function.update s.ids c (.drawn t) }) :
    (protocol disk calls).SafeAsync t (fun c s => A s ∧ Spared t c s) (fun _ => A) A
      (freshId true t) s := by
  refine safeOr_bind.2 (safeOr_ask fun c => safeAsync_locked hA hs (fun _ h => h)
    fun s₁ r s₂ hs₁ hi hf => ?_)
  split_ifs at hf with hc
  obtain ⟨⟩ := hf
  obtain ⟨hi', hg⟩ := step_draw (t := t) hi hc
  refine ⟨hi', hg, hkeep s₁ c hs₁ hc, update_self .., fun job hjob => ?_⟩
  exact (hi.removed job c hjob).1 hc

/-- A job that stores the credential: it has not been done, or it has failed, or the credential is
    present. -/
def Putting (c : HostId) (id : JobId) (s : Facade) : Prop :=
  s.secrets.jobs id = some (.put c) ∧ s.secrets.results id = none ∨ s.secrets.jobs id = none ∧
    ((∃ e, s.secrets.results id = some (.error e)) ∨
      s.secrets.results id = some (.ok ()) ∧ c ∈ s.secrets.present)

theorem stable_putting {id : JobId} :
    (protocol disk calls).Stable t fun s => Spared t c s ∧ Putting c id s := by
  rintro s s' hint ⟨hspared, hputting⟩
  refine ⟨stable_spared s s' hint hspared, ?_⟩
  rcases hint.2.2 with he | ⟨j, -, hg⟩
  · cases he with
    | app app h => exact hputting
    | tick clock h => exact hputting
    | job id' job result h =>
      by_cases heq : id' = id
      · subst heq
        -- The job itself is done.
        rcases hputting with ⟨hput, -⟩ | ⟨hnone, -⟩
        · obtain rfl : SecretJob.put c = job := Option.mem_unique hput h
          refine .inr ⟨update_self .., ?_⟩
          cases result with
          | error e => exact .inl ⟨e, update_self ..⟩
          | ok _ => exact .inr ⟨update_self .., Finset.mem_insert_self ..⟩
        · exact absurd (hnone.symm.trans h) (by simp)
      · have hjobs : (finishJob s id' job result).secrets.jobs id = s.secrets.jobs id :=
          update_of_ne (Ne.symm heq) ..
        have hresults : (finishJob s id' job result).secrets.results id = s.secrets.results id :=
          update_of_ne (Ne.symm heq) ..
        rw [Putting, hjobs, hresults]
        refine hputting.imp_right fun ⟨hnone, hdone⟩ => ⟨hnone, hdone.imp_right fun ⟨hok, hc⟩ => ?_⟩
        exact ⟨hok, env_present (.job s id' job result h) hspared.2 hc⟩
  · rw [Putting, hg.results, hg.present]
    rcases hputting with ⟨hput, hnone⟩ | ⟨hnone, hdone⟩
    · exact .inl ⟨hg.jobs id _ hput, hnone⟩
    · have hne : s.secrets.results id ≠ none := by
        rcases hdone with ⟨e, he⟩ | ⟨hok, -⟩
        · simp [he]
        · simp [hok]
      exact .inr ⟨(hg.done id hne).trans hnone, hdone⟩

/-- The result of a job is awaited. -/
theorem safeAsync_result {id : JobId} {B : Facade → Prop} {Q : Unit → Facade → Prop}
    (hB : (protocol disk calls).Stable t B) (hs : B s) (hD : ∀ s, B s → A s)
    (h : ∀ s, B s → s.secrets.results id = some (.ok ()) → Q () s) :
    (protocol disk calls).SafeAsync t Q (fun _ => A) A
      (locked true fun s => (s.secrets.results id).map fun result => (result, s)) s := by
  refine safeAsync_locked hB hs hD fun s₁ r s₂ hs₁ hi hf => ?_
  obtain ⟨result, hresult, hr⟩ := Option.map_eq_some_iff.1 hf
  obtain ⟨rfl, rfl⟩ := Prod.mk.inj hr
  refine ⟨hi, Calm.guarantee (.refl _) t, ?_⟩
  cases result with
  | ok _ => exact h s₁ hs₁ hresult
  | error e => exact hD s₁ hs₁

/-- A new credential is stored. -/
theorem safeAsync_put (hA : (protocol disk calls).Stable t A) (hs : A s ∧ Spared t c s)
    (hkeep : ∀ s jobs, A s → A { s with secrets.jobs := jobs }) :
    (protocol disk calls).SafeAsync t (fun _ s => A s ∧ Secured t c s) (fun _ => A) A
      (spawnBlocking true (.put c)) s := by
  refine safeOr_bind.2 (safeOr_ask fun id => SafeOr.bind
    (R := fun _ s => A s ∧ Spared t c s ∧ Putting c id s)
    (safeAsync_locked (hA.and stable_spared) hs (fun _ h => h.1) fun s₁ r s₂ hs₁ hi hf => ?_)
    fun _ s₁ hs₁ => ?_)
  · split_ifs at hf with hfree
    obtain ⟨⟩ := hf
    obtain ⟨hi', hg⟩ := step_spawn (t := t) (.put c) hi hfree.1 hfree.2 nofun
    refine ⟨hi', hg, hkeep _ _ hs₁.1, ⟨hs₁.2.1, fun job hjob => ?_⟩,
      .inl ⟨update_self .., hfree.2⟩⟩
    by_cases heq : job = id
    · subst heq
      exact absurd ((update_self ..).symm.trans hjob) (by simp)
    · exact hs₁.2.2 job ((update_of_ne heq ..).symm.trans hjob)
  · refine safeAsync_result (hA.and stable_putting) hs₁ (fun _ h => h.1) fun s₂ hs₂ hok => ?_
    obtain ⟨hs₂, hspared, ⟨-, hnone⟩ | ⟨-, ⟨e, he⟩ | ⟨-, hc⟩⟩⟩ := hs₂
    · exact absurd (hnone.symm.trans hok) (by simp)
    · exact absurd (he.symm.trans hok) (by simp)
    · exact ⟨hs₂, hspared, hc⟩

/-- A credential that no host refers to is removed. -/
theorem safeAsync_removeSecret (hA : (protocol disk calls).Stable t A) (hs : A s)
    (hholds : ∀ s, A s → Holds t guard s) (hremovable : ∀ s, A s → Inv s → Removable t c s) :
    (protocol disk calls).SafeAsync t (fun _ => Holds t guard) (fun _ => Holds t guard)
      (Holds t guard) (removeSecret true c) s := by
  refine safeOr_bind.2 (safeOr_ask fun id => SafeOr.bind (R := fun _ => Holds t guard)
    (safeAsync_locked hA hs hholds fun s₁ r s₂ hs₁ hi hf => ?_) fun _ s₁ hs₁ => ?_)
  · split_ifs at hf with hfree
    obtain ⟨⟩ := hf
    obtain ⟨hi', hg⟩ := step_spawn (.delete c) hi hfree.1 hfree.2 fun c' hc' =>
      SecretJob.delete.inj hc' ▸ hremovable s₁ hs₁ hi
    exact ⟨hi', hg, hholds s₁ hs₁⟩
  · exact safeAsync_result stable_holds hs₁ (fun _ h => h) fun _ h _ => h

/-! ### `save_host` -/

theorem safeAsync_getPrevious (hs : Holds t guard s) :
    (protocol disk calls).SafeAsync t (fun previous => Prior t guard previous)
      (fun _ => Holds t guard) (Holds t guard) (getPrevious true guard) s := by
  cases guard with
  | none => exact ⟨hs, nofun, nofun⟩
  | some id =>
    refine SafeOr.bind (R := fun stored => Prior t (some id) (some stored))
      (safeAsync_repositoryGet (fun s => Calm.guarantee (.refl s) t) stable_holds hs (fun _ h => h)
        (fun _ _ h => h) fun s₁ stored hs₁ _ hstored => ?_) fun stored s₁ hs₁ => hs₁
    refine ⟨hs₁, fun _ => rfl, fun p hp => ⟨id, rfl, ?_⟩⟩
    rw [hstored, hp]

theorem safeAsync_intoHost {input : HostInput} (hs : Prior t input.id previous s) :
    (protocol disk calls).SafeAsync t
      (fun host s => Prior t input.id previous s ∧ Aims t host.id s input.id)
      (fun _ => Holds t input.id) (Holds t input.id) (intoHost true t input) s := by
  refine (preserves_reply fun _ h => h.holds).andThen hs (fun _ _ h => h.holds)
    fun fields s₁ hs₁ => ?_
  cases hid : input.id with
  | some id =>
    rw [hid] at hs₁
    exact ⟨hs₁, rfl⟩
  | none =>
    rw [hid] at hs₁
    refine SafeOr.bind (SafeAsync.mono (safeAsync_freshId stable_prior hs₁ fun s c h _ =>
      ⟨h.holds, h.found, h.edited⟩) (fun _ _ h => h) (fun _ _ h => h.holds) fun _ h => h.holds)
      fun id s₂ hs₂ => ?_
    exact ⟨hs₂.1, hs₂.2.1⟩

/-- What is known before the credential is chosen. -/
theorem stable_aimed {host : HostId} :
    (protocol disk calls).Stable t fun s => Prior t guard previous s ∧ Aims t host s guard :=
  stable_prior.and stable_aims

theorem safeAsync_storeCredential {credential : Bool} {host : HostId}
    (hs : Prior t guard previous s ∧ Aims t host s guard) :
    (protocol disk calls).SafeAsync t (fun c => Ready t guard previous host c)
      (fun _ => Holds t guard) (Holds t guard) (storeCredential true t credential previous) s := by
  unfold storeCredential
  split_ifs
  · refine (preserves_reply (A := fun s => Prior t guard previous s ∧ Aims t host s guard)
      fun _ h => h.1.holds).andThen hs (fun _ _ h => h.1.holds) fun _ s₁ hs₁ => ?_
    refine SafeOr.bind (SafeAsync.mono (safeAsync_freshId stable_aimed hs₁ ?_) (fun _ _ h => h)
      (fun _ _ h => h.1.holds) fun _ h => h.1.holds) fun c s₂ hs₂ => ?_
    · -- The id of the host is not the one that is drawn.
      rintro s c ⟨hprior, haims⟩ hc
      refine ⟨⟨hprior.holds, hprior.found, hprior.edited⟩, ?_⟩
      cases guard with
      | some id => exact haims
      | none =>
        have hne : host ≠ c := fun h => by
          rw [← h, show s.ids host = .drawn t from haims] at hc
          exact absurd hc (by simp)
        exact (update_of_ne hne ..).trans haims
    · refine SafeOr.bind (SafeAsync.mono (safeAsync_put stable_aimed hs₂ ?_) (fun _ _ h => h)
        (fun _ _ h => h.1.holds) fun _ h => h.1.holds) fun _ s₃ hs₃ => ?_
      · rintro s jobs ⟨hprior, haims⟩
        refine ⟨⟨hprior.holds, hprior.found, hprior.edited⟩, ?_⟩
        cases guard <;> exact haims
      · exact ⟨hs₃.1.1, hs₃.1.2, .inl hs₃.2⟩
  · cases previous with
    | none => exact hs.1.holds
    | some p => exact ⟨hs.1, hs.2, .inr ⟨p, rfl, rfl⟩⟩

/-- What is known after the host has been stored. -/
def Replaced (t : TaskId) (guard : Option HostId) (previous : Option StoredHost) (c : HostId)
    (s : Facade) : Prop :=
  Holds t guard s ∧ ∀ p ∈ previous, p.credentialId ≠ c → Removable t p.credentialId s

theorem stable_replaced : (protocol disk calls).Stable t (Replaced t guard previous c) :=
  fun s s' hint h => ⟨stable_holds s s' hint h.1, fun p hp hne =>
    stable_removable s s' hint (h.2 p hp hne)⟩

theorem safeAsync_repositorySave {host : Host} (hs : Ready t guard previous host.id c s) :
    (protocol disk calls).SafeAsync t (fun _ => Replaced t guard previous c)
      (fun _ => Holds t guard) (Holds t guard) (repositorySave true t previous ⟨host, c⟩) s := by
  refine safeOr_bind.2 (safeOr_ask fun fails => ?_)
  cases fails with
  | none =>
    refine safeAsync_update stable_ready hs (fun _ h => h.prior.holds) fun s₁ hs₁ hi => ?_
    exact ⟨inv_commitHost hi hs₁, guarantee_commitHost hi hs₁, hs₁.prior.holds,
      fun p hp hne => removable_commitHost hi hs₁ hp hne⟩
  | some e =>
    dsimp only
    split_ifs with hnew
    · -- The credential is a new one, which no host refers to.
      have hremovable : ∀ s, Ready t guard previous host.id c s → Inv s → Removable t c s := by
        intro s hs hi
        rcases hs.credential with hsecured | ⟨p, rfl, hp⟩
        · exact ⟨.inr hsecured.1.1, hsecured.1.1.unreferenced hi⟩
        · simp [hp] at hnew
      exact SafeOr.bind (safeAsync_removeSecret stable_ready hs (fun _ h => h.prior.holds)
        hremovable) fun _ _ h => h
    · exact hs.prior.holds

theorem safeAsync_removeReplaced (hs : Replaced t guard previous c s) :
    (protocol disk calls).SafeAsync t (fun _ => Holds t guard) (fun _ => Holds t guard)
      (Holds t guard) (removeReplaced true previous c) s := by
  cases previous with
  | none => exact hs.1
  | some p =>
    unfold removeReplaced
    dsimp only
    split_ifs with hne
    · exact safeAsync_removeSecret stable_replaced hs (fun _ h => h.1) fun _ h _ => h.2 p rfl hne
    · exact hs.1

theorem safeAsync_saveHostLocked {input : HostInput} {credential : Bool} (hs : Holds t input.id s) :
    (protocol disk calls).SafeAsync t (fun _ => Holds t input.id) (fun _ => Holds t input.id)
      (Holds t input.id) (saveHostLocked true t input credential) s := by
  refine SafeOr.bind (safeAsync_getPrevious hs) fun previous s hs => ?_
  refine SafeOr.bind (safeAsync_intoHost hs) fun host s hs => ?_
  have hholds : ∀ s, Prior t input.id previous s ∧ Aims t host.id s input.id →
      Holds t input.id s := fun _ h => h.1.holds
  refine (preserves_calm (calm_onApp calm_slotOf) stable_aimed hholds).andThen hs
    (fun _ => hholds) fun slot s hs => ?_
  refine (preserves_calm (calm_onSlot fun _ _ _ _ h => calm_checkEditable h)
    stable_aimed hholds).andThen hs (fun _ => hholds) fun _ s hs => ?_
  refine preserves_ensure.andThen hs (fun _ => hholds) fun _ s hs => ?_
  refine SafeOr.bind (safeAsync_storeCredential hs) fun c s hs => ?_
  refine SafeOr.bind (safeAsync_repositorySave hs) fun _ s hs => ?_
  -- The host is stored. All that is left is to remove the credential that it had before.
  have hholds : ∀ s, Replaced t input.id previous c s → Holds t input.id s := fun _ h => h.1
  refine (preserves_calm (calm_onApp calm_revokeHost) stable_replaced
    hholds).andThen hs (fun _ => hholds) fun _ s hs => ?_
  refine (preserves_calm (calm_onApp calm_removeRotationPlan) stable_replaced
    hholds).andThen hs (fun _ => hholds) fun _ s hs => ?_
  refine (preserves_calm (calm_onSlot fun _ _ _ _ h => calm_resetSlot h)
    stable_replaced hholds).andThen hs (fun _ => hholds) fun _ s hs => ?_
  refine (preserves_calm calm_clearMonitor stable_replaced hholds).andThen hs
    (fun _ => hholds) fun _ s hs => ?_
  refine (preserves_calm within_pause stable_replaced hholds).andThen hs
    (fun _ => hholds) fun _ s hs => ?_
  refine SafeOr.bind (safeAsync_removeReplaced hs) fun _ s hs => ?_
  exact (preserves_reply fun _ h => h).andThen hs (fun _ _ h => h) fun _ _ h => h

/-- The metadata lock is not what keeps the credentials. -/
theorem safeAsync_withMutation {x : Task α} {Q : α → Facade → Prop}
    (hA : (protocol disk calls).Stable t A) (hs : A s) (hholds : ∀ s, A s → Holds t guard s)
    (hQ : ∀ a, (protocol disk calls).Stable t (Q a))
    (h : ∀ s, A s → (protocol disk calls).SafeAsync t Q (fun _ => Holds t guard)
      (Holds t guard) x s) :
    (protocol disk calls).SafeAsync t Q (fun _ => Holds t guard) (Holds t guard)
      (withMutation true t x) s := by
  have hlock : Within Calm (locked (β := Unit) true fun s =>
      if s.app.mutation = none then some (.ok (), { s with app.mutation := some t }) else none).run :=
    within_locked fun s r s' hf => by
      split_ifs at hf
      obtain ⟨⟩ := hf
      exact ⟨⟨rfl, rfl⟩, rfl, rfl⟩
  have hunlock : (protocol disk calls).Neutral t
      (.modify fun s : Facade => { s with app.mutation := none }) :=
    neutral_of_calm (obeys_modify fun s _ => ⟨trivial, ⟨⟨rfl, rfl⟩, rfl, rfl⟩⟩)
  refine (preserves_calm hlock hA hholds).andThen hs (fun _ => hholds)
    fun _ s hs => safeAsync_always (SafeAsync.mono (h s hs) (fun a s hs => ?_) (fun _ s hs => ?_)
      fun s hs => ?_)
  · exact hunlock _ (hQ a) s hs
  · exact hunlock _ stable_holds s hs
  · exact hunlock _ stable_holds s hs

theorem obeys_saveHost {input : HostInput} {credential : Bool} :
    (protocol disk calls).SafeAsync t (fun _ _ => True) (fun _ _ => True) (fun _ => True)
      (saveHost true t input credential) s := by
  have hlocked : ∀ s, Holds t input.id s → (protocol disk calls).SafeAsync t
      (fun _ => Holds t input.id) (fun _ => Holds t input.id) (Holds t input.id)
      (withMutation true t (saveHostLocked true t input credential)) s := fun s hs =>
    safeAsync_withMutation stable_holds hs (fun _ h => h) (fun _ => stable_holds) fun _ hs =>
      safeAsync_saveHostLocked hs
  rw [saveHost]
  cases hid : input.id with
  | none =>
    refine SafeAsync.mono (hlocked s ?_) (fun _ _ _ => trivial) (fun _ _ _ => trivial)
      fun _ _ => trivial
    rw [hid]
    exact nofun
  | some id =>
    rw [hid] at hlocked
    exact safeAsync_withLifecycleGuard hlocked

/-! ### `delete_host` -/

theorem calm_removeReadGate {kind : ReadKind} {id : HostId} :
    Within Calm (removeReadGate true kind id).run :=
  within_update fun _ => ⟨.refl _, rfl, rfl⟩

/-- The host that is deleted, until its credential has been removed. -/
theorem safeAsync_removeHost {id : HostId} {stored : StoredHost}
    (hs : Prior t (some id) (some stored) s) :
    (protocol disk calls).SafeAsync t
      (fun _ s => Holds t (some id) s ∧ Removable t stored.credentialId s)
      (fun _ => Holds t (some id)) (Holds t (some id)) (removeHost true t id) s := by
  refine (preserves_reply fun _ h => h.holds).andThen hs (fun _ _ h => h.holds) fun _ s hs => ?_
  refine SafeOr.bind
    (R := fun _ s => Holds t (some id) s ∧ Removable t stored.credentialId s)
    (safeAsync_update stable_prior hs (fun _ h => h.holds) fun s₁ hs₁ hi => ?_) fun _ s hs => ?_
  · obtain ⟨p, hp, hstored⟩ := hs₁.stored
    obtain rfl : stored = p := Option.some.inj hp
    obtain ⟨hi', hg, hremovable⟩ := step_dropHost hi (hs₁.holds id rfl) hstored
    exact ⟨hi', hg, hs₁.holds, hremovable⟩
  · have hcalm : ∀ {x : Task Unit}, Within Calm x.run → ∀ s,
        Holds t (some id) s ∧ Removable t stored.credentialId s →
        (protocol disk calls).SafeAsync t
          (fun _ s => Holds t (some id) s ∧ Removable t stored.credentialId s)
          (fun _ => Holds t (some id)) (Holds t (some id)) x s := fun h s hs =>
      SafeAsync.mono (preserves_calm h (stable_holds.and stable_removable) (fun _ h => h.1) s hs)
        (fun _ _ h => h) (fun _ _ h => h.1) fun _ h => h
    refine SafeOr.bind (hcalm (calm_onApp calm_removeRotationPlan) s hs)
      fun _ s hs => ?_
    refine SafeOr.bind (hcalm (within_update (fun s => ?_)) s hs) fun _ s hs => ?_
    · exact ⟨⟨rfl, rfl⟩, rfl, rfl⟩
    refine SafeOr.bind (hcalm calm_removeReadGate s hs) fun _ s hs => ?_
    refine SafeOr.bind (hcalm calm_removeReadGate s hs) fun _ s hs => ?_
    refine SafeOr.bind (hcalm calm_removeReadGate s hs) fun _ s hs => ?_
    refine hcalm (within_update (fun s => ?_)) s hs
    exact ⟨⟨rfl, rfl⟩, rfl, rfl⟩

theorem obeys_deleteHost {id : HostId} :
    (protocol disk calls).SafeAsync t (fun _ _ => True) (fun _ _ => True) (fun _ => True)
      (deleteHost true t id) s := by
  refine safeAsync_withLifecycleGuard fun s hs => ?_
  refine SafeOr.bind (R := fun work => Prior t (some id) (some work.1))
    (safeAsync_withMutation stable_holds hs (fun _ h => h) (fun _ => stable_prior)
      fun s hs => ?_) fun work s hs => ?_
  · refine SafeOr.bind (R := fun stored => Prior t (some id) (some stored))
      (safeAsync_repositoryGet (fun s => Calm.guarantee (.refl s) t) stable_holds hs (fun _ h => h)
        (fun _ _ h => h) fun s₁ stored hs₁ _ hstored => ?_) fun stored s hs => ?_
    · refine ⟨hs₁, fun _ => rfl, fun p hp => ⟨id, rfl, ?_⟩⟩
      rw [hstored, hp]
    · exact (preserves_calm calm_prepareDisconnect stable_prior fun _ h => h.holds).andThen hs
        (fun _ _ h => h.holds) fun _ _ h => h
  · refine (preserves_calm calm_finishDisconnect stable_prior fun _ h => h.holds).andThen hs
      (fun _ _ h => h.holds) fun _ s hs => ?_
    refine SafeOr.bind (safeAsync_withMutation stable_prior hs (fun _ h => h.holds)
      (fun _ => stable_holds.and stable_removable) fun _ hs => safeAsync_removeHost hs)
      fun _ s hs => ?_
    refine SafeOr.bind (safeAsync_removeSecret (stable_holds.and stable_removable) hs
      (fun _ h => h.1) fun _ h _ => h.2) fun _ s hs => ?_
    refine (preserves_calm calm_removeMonitor stable_holds fun _ h => h).andThen hs
      (fun _ _ h => h) fun _ s hs => ?_
    refine (preserves_calm within_pause stable_holds fun _ h => h).andThen hs (fun _ _ h => h)
      fun _ s hs => ?_
    exact preserves_reply (fun _ h => h) s hs

end

/-! ## Runs -/

/-- What is stored is as the calls leave it. -/
structure Disk.Ok (disk : Disk) : Prop where
  present : ∀ id stored, disk.repository id = some stored → stored.credentialId ∈ disk.present
  stored : ∀ id stored, disk.repository id = some stored →
    disk.ids id = .stored ∧ disk.ids stored.credentialId = .stored
  unique : ∀ id id' stored stored', disk.repository id = some stored →
    disk.repository id' = some stored' → stored.credentialId = stored'.credentialId → id = id'

/-- The invariant holds when the application is opened: there are no jobs. -/
theorem Disk.Ok.inv (h : disk.Ok) (ho : Opens disk s) : Inv s := by
  refine ⟨?_, ?_, ?_, fun job c hjob => ?_⟩
  · rw [NoneDangling, ho.repository, ho.present]
    exact h.present
  · rw [ho.repository, ho.ids]
    exact h.stored
  · rw [ho.repository]
    exact h.unique
  · exact absurd ((ho.jobs job).symm.trans hjob) (by simp)

theorem sound (h : disk.Ok) : (protocol disk calls).Sound where
  init _ hs := ⟨h.inv hs, fun _ => trivial⟩
  env _ _ hi he := inv_env hi he
  idle _ _ _ _ _ := trivial
  entry t p s hp _ _ := by
    subst hp
    cases hcall : calls t with
    | saveHost input credential =>
      exact Safe.bind obeys_saveHost fun _ _ _ => trivial
    | deleteHost id => exact Safe.bind obeys_deleteHost fun _ _ _ => trivial

/-- A crash leaves what is stored as it is. -/
theorem Inv.ofCrash (hi : Inv s) : (Disk.ofCrash s).Ok := by
  refine ⟨hi.present, fun id stored hs => ?_, hi.unique⟩
  obtain ⟨hid, hcredential⟩ := hi.stored id stored hs
  exact ⟨congrArg retire hid, congrArg retire hcredential⟩

theorem Persists.ok (h : Persists disk) : disk.Ok := by
  induction h with
  | empty => exact ⟨nofun, nofun, nofun⟩
  | crash _ hr ih => exact Inv.ofCrash ((sound ih).of_run hr).inv

/-- Whatever fails, wherever calls are dropped and the application crashes: each stored host refers
    to a credential that is present. -/
theorem credentials_of_run {ls : List (Label TaskId)} {c : Config TaskId Facade}
    (h : Persists disk) (hr : (system disk calls).machine.Run ls c) : NoneDangling c.shared :=
  ((sound h.ok).of_run hr).inv.present

/-- A new host is saved. -/
def saveCalls (_ : TaskId) : Call :=
  .saveHost ⟨none, "web", ⟨"web.example", 22, "root", .password⟩⟩ true

/-- The host can be stored: with a credential that has been stored before it. -/
theorem exists_run_saved : ∃ ls c, (system .empty saveCalls).machine.Run ls c ∧
    (c.shared.app.repository ⟨1⟩).map StoredHost.credentialId = some ⟨2⟩ := by
  have h : (system .empty saveCalls).machine.Run []
      ⟨fun _ => none, opened (fun _ => none) fun _ => .unused⟩ :=
    .nil ⟨⟨initial_opened .., rfl, rfl, rfl⟩, fun _ => rfl⟩
  obtain ⟨_, h⟩ := System.run_start (i := ⟨0⟩) h rfl rfl
  -- The metadata lock, and the id of the host.
  obtain ⟨_, h⟩ := System.run_alone h (.answer true <| .act rfl <| .answer true <|
    .answer (.ok ("web", ⟨"web.example", 22, "root", .password⟩) :
      Except OtherError (String × HostConnectionConfig)) <| .answer (⟨1⟩ : HostId) <| .answer true <| .act rfl <| .refl)
  -- The slot of the host.
  obtain ⟨_, h⟩ := System.run_alone h (.answer true <| .answer (⟨1⟩ : SlotId) <| .answer true <|
    .answer (⟨1⟩ : CancellationToken) <| .answer true <| .act rfl <| .answer true <| .act rfl <|
    .refl)
  -- The credential.
  obtain ⟨_, h⟩ := System.run_alone h (.answer true <| .answer (.ok () : Except OtherError Unit) <|
    .answer (⟨2⟩ : HostId) <| .answer true <| .act rfl <| .answer (⟨0⟩ : JobId) <| .answer true <|
    .act rfl <| .refl)
  obtain ⟨_, h⟩ := System.run_env h (Env.job _ ⟨0⟩ (.put ⟨2⟩) (.ok ()) rfl)
  obtain ⟨_, h⟩ := System.run_alone h (.answer true <| .act rfl <| .refl)
  -- The host itself.
  obtain ⟨_, h⟩ := System.run_alone h (.answer (none : Option OtherError) <| .answer true <|
    .act rfl <| .refl)
  exact ⟨_, _, h, by decide +kernel⟩

/-- The credential of the host that has been saved is present. -/
theorem credential_saved : ∃ ls c stored, Persists .empty ∧
    (system .empty saveCalls).machine.Run ls c ∧ c.shared.app.repository ⟨1⟩ = some stored ∧
    stored.credentialId ∈ c.shared.secrets.present := by
  obtain ⟨ls, c, h, hsaved⟩ := exists_run_saved
  obtain ⟨stored, hstored, -⟩ := Option.map_eq_some_iff.1 hsaved
  exact ⟨ls, c, stored, .empty, h, hstored, credentials_of_run .empty h ⟨1⟩ stored hstored⟩

/-- No two hosts share a credential, and none is being removed that a host refers to. -/
theorem ownership_of_run {ls : List (Label TaskId)} {c : Config TaskId Facade}
    (h : Persists disk) (hr : (system disk calls).machine.Run ls c) :
    (∀ id id' stored stored', c.shared.app.repository id = some stored →
      c.shared.app.repository id' = some stored' →
      stored.credentialId = stored'.credentialId → id = id') ∧
    ∀ job id, c.shared.secrets.jobs job = some (.delete id) → Unreferenced id c.shared :=
  have hinv := ((sound h.ok).of_run hr).inv
  ⟨hinv.unique, fun job id hjob => (hinv.removed job id hjob).2⟩

theorem ownership_saved : ∃ ls c, (system .empty saveCalls).machine.Run ls c ∧
    c.shared.app.repository ⟨1⟩ ≠ none ∧ ∀ job, c.shared.secrets.jobs job ≠ some (.delete ⟨2⟩) := by
  obtain ⟨ls, c, h, hsaved⟩ := exists_run_saved
  obtain ⟨stored, hstored, hid⟩ := Option.map_eq_some_iff.1 hsaved
  exact ⟨ls, c, h, by simp [hstored], fun job hjob =>
    (ownership_of_run .empty h).2 job ⟨2⟩ hjob ⟨1⟩ stored hstored hid⟩

end NexusOps.Facade.Credentials
