import NexusOps.Concurrency.Machine
import NexusOps.Core.ServiceObservations

/-!
# Histories of the service observation store

The store as a machine: a step is a call, with its result. Each call is one locked section; the
instant that it works with was read before, so that instants need not be in order. The ids that
a publication issues have not been issued before.

`ObservationStore.observations_of_run` says what an id that is resolved stands for: what the
last publication of the host has issued it for, and nothing has been revoked since.
-/

namespace NexusOps.Core

open Concurrency RemoteOperations

/-- The store, with the ids issued so far. -/
structure ObservationStore where
  state : ObservationState
  issued : Finset ServiceObservationId

/-- A call of the store, with its arguments, the instant it has read and its result. -/
inductive ObservationEvent
  | beginRequest (host : HostId) (result : Except AppError Nat)
  | publish (binding : AuthorityBinding) (sequence : Nat) (snapshot : ServiceSnapshot)
      (now : Instant) (result : Except AppError (ServiceSnapshot × Observations))
  | resolve (o : SystemdOperation) (id : ServiceObservationId) (expected : AuthorityBinding)
      (now : Instant) (result : Except AppError SystemdServiceUnitName)
  | revokeHost (host : HostId)
  | revokeSession (host : HostId) (session : HostSessionId)
  | sealAndRevokeAll

namespace ObservationEvent

/-- The call takes the store from `s` to `s'`. -/
def Performs (s s' : ObservationState) : ObservationEvent → Prop
  | beginRequest host result => s.beginRequest host = (result, s')
  | publish binding sequence snapshot now result => ∃ ids order,
      s.publish ids order now binding sequence snapshot = (result, s')
  | resolve o id expected now result => s.resolveFor o id expected now = (result, s')
  | revokeHost host => s' = s.revokeHost host
  | revokeSession host session => s' = s.revokeSession host session
  | sealAndRevokeAll => s' = s.sealAndRevokeAll

/-- The ids that the call has issued. -/
def issued : ObservationEvent → Finset ServiceObservationId
  | publish _ _ _ _ (.ok (_, observations)) => observations.keys
  | _ => ∅

/-- The call ends the use of observations that are bound to `b`: it publishes others for the
    host, or it revokes them. -/
def Ends (b : AuthorityBinding) : ObservationEvent → Prop
  | publish binding _ _ _ (.ok _) => binding.hostId = b.hostId
  | revokeHost host => host = b.hostId
  | revokeSession host session => host = b.hostId ∧ session = b.hostSessionId
  | sealAndRevokeAll => True
  | _ => False

/-- The call supersedes the requests of the host. -/
def supersedes (host : HostId) : ObservationEvent → Bool
  | beginRequest host' (.ok _) => host' = host
  | revokeHost host' => host' = host
  | revokeSession host' _ => host' = host
  | _ => false

end ObservationEvent

namespace ObservationStore

open ObservationEvent

/-- The store, and the calls that can be made. -/
def machine : Machine ObservationStore ObservationEvent where
  init s := s = ⟨.default, ∅⟩
  step s e s' := e.Performs s.state s'.state ∧ Disjoint e.issued s.issued ∧
    s'.issued = e.issued ∪ s.issued

variable {s s' : ObservationStore} {e : ObservationEvent} {es : List ObservationEvent}
  {host : HostId} {set : ObservationSet}

/-! ## What a call does -/

/-- The publication has stored the set. -/
def Stores (e : ObservationEvent) (set : ObservationSet) : Prop :=
  ∃ sequence snapshot snapshot',
    e = .publish set.binding sequence snapshot set.issuedAt (.ok (snapshot', set.entries)) ∧
      set.expiresAt = set.issuedAt + SERVICE_OBSERVATION_TTL

/-- A stored set has just been published, or was stored before and its use has not been
    ended. -/
theorem sets_of_step (h : machine.step s e s') (hget : s'.state.sets.get host = some set)
    (hs : s.state.sets.get host = some set → set.binding.hostId = host) :
    set.binding.hostId = host ∧
      (Stores e set ∨ s.state.sets.get host = some set ∧ ¬e.Ends set.binding) := by
  obtain ⟨hperforms, -, -⟩ := h
  cases e with
  | beginRequest host' result =>
    have hbegin : s.state.beginRequest host' = (result, s'.state) := hperforms
    have hsets : (s.state.beginRequest host').2.sets = s.state.sets :=
      ObservationState.sets_beginRequest
    rw [hbegin] at hsets
    rw [hsets] at hget
    exact ⟨hs hget, .inr ⟨hget, nofun⟩⟩
  | publish binding sequence snapshot now result =>
    obtain ⟨ids, order, hpublish⟩ := hperforms
    cases result with
    | error e =>
      rcases ObservationState.of_publish hpublish with ⟨-, hsame⟩ | ⟨_, _, hok, -⟩
      · rw [hsame] at hget
        exact ⟨hs hget, .inr ⟨hget, nofun⟩⟩
      · nomatch hok
    | ok result =>
      obtain ⟨-, -, -, -, -, -, -, -, hnew, hothers⟩ := ObservationState.publish_eq_ok hpublish
      by_cases hhost : host = binding.hostId
      · rw [hhost, hnew] at hget
        obtain ⟨⟩ := hget
        exact ⟨hhost.symm, .inl ⟨sequence, snapshot, result.1, rfl, rfl⟩⟩
      · have hold := hothers host set hhost hget
        exact ⟨hs hold, .inr ⟨hold, fun h => hhost ((hs hold).symm.trans h.symm)⟩⟩
  | resolve o id expected now result =>
    rw [(ObservationState.of_resolveFor hperforms).1] at hget
    have hold := ObservationState.get_removeExpired hget
    exact ⟨hs hold, .inr ⟨hold, nofun⟩⟩
  | revokeHost host' =>
    rw [hperforms] at hget
    obtain ⟨hne, hold⟩ := ObservationState.get_revokeHost hget
    exact ⟨hs hold, .inr ⟨hold, fun h => hne ((hs hold).symm.trans h.symm)⟩⟩
  | revokeSession host' session =>
    rw [hperforms] at hget
    obtain ⟨hold, hne⟩ := ObservationState.get_revokeSession hget
    refine ⟨hs hold, .inr ⟨hold, fun ⟨hhost, hsession⟩ => ?_⟩⟩
    exact hne ((hs hold).symm.trans hhost.symm) hsession.symm
  | sealAndRevokeAll =>
    rw [hperforms] at hget
    exact absurd hget (Table.get_empty host ▸ nofun)

theorem newestRequest_insert {state : ObservationState} {host' : HostId} :
    ((state.newestRequest.insert host' (state.nextRequest host')).get host).getD 0 =
      if decide (host' = host) = true then state.nextRequest host
      else (state.newestRequest.get host).getD 0 := by
  rw [Table.get_insert]
  by_cases h : host' = host
  · rw [if_pos (decide_eq_true h), if_pos h.symm, h]
    rfl
  · rw [if_neg (mt of_decide_eq_true h), if_neg (Ne.symm h)]

/-- A call counts the requests of a host up if it supersedes them, as long as the store is not
    sealed. -/
theorem newestRequest_of_step (h : machine.step s e s') (hopen : s'.state.sealed = false) :
    s.state.sealed = false ∧ (s'.state.newestRequest.get host).getD 0 =
      if e.supersedes host then s.state.nextRequest host
      else (s.state.newestRequest.get host).getD 0 := by
  obtain ⟨hperforms, -, -⟩ := h
  cases e with
  | beginRequest host' result =>
    have hbegin : s.state.beginRequest host' = (result, s'.state) := hperforms
    rw [ObservationState.beginRequest] at hbegin
    split_ifs at hbegin with hsealed
    · rw [← (Prod.mk.inj hbegin).2, hsealed] at hopen
      cases hopen
    · obtain ⟨rfl, hstate⟩ := Prod.mk.inj hbegin
      rw [← hstate]
      exact ⟨by simpa using hsealed, newestRequest_insert⟩
  | publish binding sequence snapshot now result =>
    obtain ⟨ids, order, hpublish⟩ := hperforms
    cases result with
    | error e =>
      rcases ObservationState.of_publish hpublish with ⟨-, hsame⟩ | ⟨_, _, hok, -⟩
      · rw [hsame] at hopen ⊢
        exact ⟨hopen, (if_neg Bool.false_ne_true).symm⟩
      · cases hok
    | ok result =>
      obtain ⟨-, -, hsealed, -, -, -, -, hnewest, -⟩ := ObservationState.publish_eq_ok hpublish
      rw [hnewest]
      exact ⟨hsealed, (if_neg Bool.false_ne_true).symm⟩
  | resolve o id expected now result =>
    rw [(ObservationState.of_resolveFor hperforms).1] at hopen ⊢
    exact ⟨hopen, (if_neg Bool.false_ne_true).symm⟩
  | revokeHost host' =>
    rw [hperforms] at hopen ⊢
    exact ⟨hopen, newestRequest_insert⟩
  | revokeSession host' session =>
    rw [hperforms] at hopen ⊢
    exact ⟨hopen, newestRequest_insert⟩
  | sealAndRevokeAll =>
    rw [hperforms] at hopen
    cases hopen

/-! ## Histories -/

/-- How often the requests of a host have been superseded. -/
def requests (host : HostId) (es : List ObservationEvent) : Nat := es.countP (supersedes host)

theorem requests_append (host : HostId) (es es' : List ObservationEvent) :
    requests host (es ++ es') = requests host es + requests host es' :=
  List.countP_append

theorem requests_append_singleton (host : HostId) (es : List ObservationEvent) :
    requests host (es ++ [e]) = requests host es + if e.supersedes host then 1 else 0 := by
  rw [requests_append, requests, requests, List.countP_singleton]

/-- The requests of a host are counted up to the greatest sequence number. -/
theorem newestRequest_of_run (h : machine.Run es s) (hopen : s.state.sealed = false) :
    (s.state.newestRequest.get host).getD 0 = min (requests host es) (2 ^ 64 - 1) := by
  induction h using Machine.Run.induction with
  | init s hs =>
    rw [hs]
    rfl
  | snoc es s e s' _ hs ih =>
    obtain ⟨hopen, hnewest⟩ := newestRequest_of_step hs hopen
    rw [hnewest, ObservationState.nextRequest, ih hopen, requests_append_singleton]
    split_ifs
    · rw [saturatingAdd]
      omega
    · rfl

/-- Every stored set has been published, and its use has not been ended since. -/
theorem stored_of_run (h : machine.Run es s) (hget : s.state.sets.get host = some set) :
    set.binding.hostId = host ∧ ∃ es₁ e es₂, es = es₁ ++ e :: es₂ ∧ Stores e set ∧
      ∀ e' ∈ es₂, ¬e'.Ends set.binding := by
  induction h using Machine.Run.induction generalizing host set with
  | init s hs =>
    rw [hs] at hget
    exact absurd hget (Table.get_empty host ▸ nofun)
  | snoc es s e s' _ hs ih =>
    obtain ⟨hhost, hstores | ⟨hold, hnot⟩⟩ := sets_of_step hs hget fun hold => (ih hold).1
    · exact ⟨hhost, es, e, [], rfl, hstores, fun e' he' => absurd he' List.not_mem_nil⟩
    · obtain ⟨-, es₁, e₁, es₂, rfl, hstores, hes₂⟩ := ih hold
      refine ⟨hhost, es₁, e₁, es₂ ++ [e], by simp, hstores, fun e' he' => ?_⟩
      rcases mem_snoc.1 he' with he' | rfl
      · exact hes₂ e' he'
      · exact hnot

/-- A publication has issued the id for the observation. -/
def Issues (id : ServiceObservationId) (observation : ActionableServiceObservation)
    (e : ObservationEvent) : Prop :=
  ∃ binding sequence snapshot now snapshot' observations,
    e = .publish binding sequence snapshot now (.ok (snapshot', observations)) ∧
      observations.get id = some observation

variable {id : ServiceObservationId}

theorem Issues.mem_issued {observation : ActionableServiceObservation}
    (h : Issues id observation e) : id ∈ e.issued := by
  obtain ⟨_, _, _, _, _, observations, rfl, hget⟩ := h
  exact Table.mem_keys_of_get hget

/-- An id is issued by one call. -/
theorem issued_of_run (h : machine.Run es s) : (∀ e ∈ es, e.issued ⊆ s.issued) ∧
    ∀ id, ∀ e ∈ es, ∀ e' ∈ es, id ∈ e.issued → id ∈ e'.issued → e = e' := by
  induction h using Machine.Run.induction with
  | init s hs =>
    exact ⟨fun e he => absurd he List.not_mem_nil, fun _ e he => absurd he List.not_mem_nil⟩
  | snoc es s e s' _ hs ih =>
    obtain ⟨-, hdisjoint, hissued⟩ := hs
    obtain ⟨hsub, honce⟩ := ih
    have hnew : ∀ id, ∀ e' ∈ es, id ∈ e'.issued → id ∉ e.issued := fun id e' he' hid hnew =>
      Finset.disjoint_left.1 hdisjoint hnew (hsub e' he' hid)
    refine ⟨fun e' he' => ?_, fun id e₁ he₁ e₂ he₂ h₁ h₂ => ?_⟩
    · rw [hissued]
      rcases mem_snoc.1 he' with he' | rfl
      · exact (hsub e' he').trans Finset.subset_union_right
      · exact Finset.subset_union_left
    · rcases mem_snoc.1 he₁ with he₁ | heq₁ <;> rcases mem_snoc.1 he₂ with he₂ | heq₂
      · exact honce id e₁ he₁ e₂ he₂ h₁ h₂
      · exact absurd (heq₂ ▸ h₂) (hnew id e₁ he₁ h₁)
      · exact absurd (heq₁ ▸ h₁) (hnew id e₂ he₂ h₂)
      · rw [heq₁, heq₂]

/-- An id stands for one operation and one unit. -/
theorem observation_eq_of_run (h : machine.Run es s)
    {observation observation' : ActionableServiceObservation} {e e' : ObservationEvent} (he : e ∈ es)
    (he' : e' ∈ es) (hissues : Issues id observation e) (hissues' : Issues id observation' e') :
    observation = observation' := by
  obtain rfl := (issued_of_run h).2 id e he e' he' hissues.mem_issued hissues'.mem_issued
  obtain ⟨_, _, _, _, _, observations, rfl, hget⟩ := hissues
  obtain ⟨_, _, _, _, _, observations', heq, hget'⟩ := hissues'
  obtain ⟨-, -, -, -, hresult⟩ := ObservationEvent.publish.inj heq
  obtain ⟨⟩ := Except.ok.inj hresult
  exact Option.mem_unique hget hget'

/-! ## What an id stands for -/

/-- What a publication of the history has issued an id for: the operation `o` and the unit
    `unit`, for the session that `b` is bound to. -/
structure IssuedFor (es : List ObservationEvent) (o : SystemdOperation)
    (id : ServiceObservationId) (b : AuthorityBinding) (unit : SystemdServiceUnitName)
    (sequence : Nat) (snapshot snapshot' : ServiceSnapshot) : Prop where
  session : snapshot.hostId = b.hostId ∧ snapshot.hostSessionId = b.hostSessionId
  /-- The id is the one returned for the unit and the operation. -/
  noted : ∃ entry ∈ snapshot'.entries, Notes entry id ⟨o, unit⟩
  /-- The inventory had the unit in the state that the operation requires. -/
  shows : snapshot.Shows o unit
  valid : SystemdServiceUnitName.parse unit.value = .ok unit
  /-- It was that of the newest request. -/
  newest : ∃ s, machine.Run es s ∧ s.state.newestRequest.get b.hostId = some sequence
  /-- No request has been begun after it, and none has been revoked. -/
  last : requests b.hostId es < 2 ^ 64 - 1 → ∀ es₁ es₂,
    es = es₁ ++ beginRequest b.hostId (.ok sequence) :: es₂ → ∀ e ∈ es₂, e.supersedes b.hostId = false

/-- What has been resolved was issued by the last publication for the host, which has not
    expired, and no observations of the host or session were revoked after it. -/
def Resolved (es : List ObservationEvent) (o : SystemdOperation) (id : ServiceObservationId)
    (b : AuthorityBinding) (now : Instant) (unit : SystemdServiceUnitName) : Prop :=
  ∃ es₁ es₂ sequence snapshot snapshot' issuedAt observations,
    es = es₁ ++ publish b sequence snapshot issuedAt (.ok (snapshot', observations)) :: es₂ ∧
    observations.get id = some ⟨o, unit⟩ ∧
    IssuedFor es₁ o id b unit sequence snapshot snapshot' ∧
    now < issuedAt + SERVICE_OBSERVATION_TTL ∧ ∀ e ∈ es₂, ¬e.Ends b

/-- The sequence number of the newest request is that of the last one begun. -/
theorem supersedes_of_run (h : machine.Run es s) (hopen : s.state.sealed = false) {sequence : Nat}
    (hnewest : s.state.newestRequest.get host = some sequence)
    (hbound : requests host es < 2 ^ 64 - 1) {es₁ es₂ : List ObservationEvent}
    (hes : es = es₁ ++ beginRequest host (.ok sequence) :: es₂) :
    ∀ e ∈ es₂, e.supersedes host = false := by
  have hsequence : (s.state.newestRequest.get host).getD 0 = _ := newestRequest_of_run h hopen
  rw [hnewest, Option.getD_some, min_eq_left hbound.le] at hsequence
  subst hes
  obtain ⟨s₁, s₂, h₁, ⟨hperforms, -⟩, -⟩ := Machine.run_append_cons.1 h
  have hbegin : s₁.state.beginRequest host = (.ok sequence, s₂.state) := hperforms
  rw [ObservationState.beginRequest] at hbegin
  split_ifs at hbegin with hsealed
  · cases (Prod.mk.inj hbegin).1
  -- The number it was given is that of the requests up to then.
  have hgiven := Except.ok.inj (Prod.mk.inj hbegin).1
  have hcount : requests host (es₁ ++ beginRequest host (.ok sequence) :: es₂) =
      requests host es₁ + 1 + requests host es₂ := by
    rw [← List.singleton_append, requests_append, requests_append, ← add_assoc]
    congr 2
    exact List.countP_singleton.trans (if_pos (decide_eq_true rfl))
  rw [ObservationState.nextRequest, newestRequest_of_run h₁ (by simpa using hsealed),
    saturatingAdd] at hgiven
  have hnone : requests host es₂ = 0 := by omega
  intro e he
  simpa using List.countP_eq_zero.1 hnone e he

/-- What a publication of a history has issued its ids for. -/
theorem issuedFor_of_run {es₁ es₂ : List ObservationEvent} {o : SystemdOperation}
    {b : AuthorityBinding} {unit : SystemdServiceUnitName}
    {sequence : Nat} {snapshot snapshot' : ServiceSnapshot} {now : Instant}
    {observations : Observations}
    (h : machine.Run (es₁ ++ publish b sequence snapshot now (.ok (snapshot', observations)) :: es₂) s)
    (hget : observations.get id = some ⟨o, unit⟩) :
    IssuedFor es₁ o id b unit sequence snapshot snapshot' := by
  obtain ⟨s₁, s₂, h₁, ⟨⟨ids, order, hpublish⟩, -⟩, -⟩ := Machine.run_append_cons.1 h
  obtain ⟨hhost, hsession, hopen, hnewest, rfl, rfl, -⟩ := ObservationState.publish_eq_ok hpublish
  refine ⟨⟨hhost, hsession⟩, ?_, ?_, ?_, ⟨s₁, h₁, hnewest⟩, fun hbound es₃ es₄ =>
    supersedes_of_run h₁ hopen hnewest hbound⟩
  · exact (issueAll_noted _ hget).resolve_left (by simp)
  · exact (issueAll_observations _ hget).resolve_left (by simp)
  · rw [SystemdServiceUnitName.parse, dif_pos unit.valid]

/-- In every history, an id is resolved for an operation only if it has been issued for that,
    and it is never resolved for another one. -/
theorem observations_of_run (h : machine.Run es s) :
    (∀ es₁ es₂ o id b now unit, es = es₁ ++ resolve o id b now (.ok unit) :: es₂ →
      Resolved es₁ o id b now unit) ∧
    ∀ o o' id b b' now now' unit unit', .resolve o id b now (.ok unit) ∈ es →
      .resolve o' id b' now' (.ok unit') ∈ es → o = o' ∧ unit = unit' := by
  have hresolved : ∀ es₁ es₂ o id b now unit, es = es₁ ++ resolve o id b now (.ok unit) :: es₂ →
      Resolved es₁ o id b now unit := by
    rintro es₁ es₂ o id b now unit rfl
    obtain ⟨s₁, s₂, h₁, ⟨hperforms, -⟩, -⟩ := Machine.run_append_cons.1 h
    obtain ⟨set, hset, hlive, rfl, hget⟩ := (ObservationState.of_resolveFor hperforms).2 unit rfl
    obtain ⟨-, es₃, e, es₄, rfl, ⟨sequence, snapshot, snapshot', rfl, hexpires⟩, hes₄⟩ :=
      stored_of_run h₁ hset
    exact ⟨es₃, es₄, sequence, snapshot, snapshot', set.issuedAt, set.entries, rfl, hget,
      issuedFor_of_run h₁ hget, hexpires ▸ hlive, hes₄⟩
  -- What has been resolved has been issued.
  have hissued : ∀ o id b now unit, .resolve o id b now (.ok unit) ∈ es →
      ∃ e ∈ es, Issues id ⟨o, unit⟩ e := by
    intro o id b now unit hmem
    obtain ⟨es₁, es₂, hes⟩ := List.append_of_mem hmem
    obtain ⟨es₃, es₄, sequence, snapshot, snapshot', issuedAt, observations, rfl, hget, -⟩ :=
      hresolved es₁ es₂ o id b now unit hes
    refine ⟨_, ?_, b, sequence, snapshot, issuedAt, snapshot', observations, rfl, hget⟩
    simp [hes]
  refine ⟨hresolved, fun o o' id b b' now now' unit unit' hmem hmem' => ?_⟩
  obtain ⟨e, he, hissues⟩ := hissued o id b now unit hmem
  obtain ⟨e', he', hissues'⟩ := hissued o' id b' now' unit' hmem'
  exact ActionableServiceObservation.mk.inj (observation_eq_of_run h he he' hissues hissues')

/-- A service that has failed. -/
def failedService : ServiceEntry :=
  ⟨"ssh.service", "loaded", "failed", "failed", "", false, false, fun _ => none⟩

/-- An inventory of the first connection of a host. -/
def failedInventory : ServiceSnapshot := ⟨⟨1⟩, ⟨1⟩, "", [failedService]⟩

/-- The session it was read in. -/
def failedBinding : AuthorityBinding := ⟨⟨1⟩, ⟨1⟩, 1⟩

/-- The store once a request has been begun. -/
def requestedState : ObservationState := (ObservationState.default.beginRequest ⟨1⟩).2

/-- The publication of the inventory. -/
def publication : Except AppError (ServiceSnapshot × Observations) × ObservationState :=
  requestedState.publish (fun n => ⟨n⟩) [] 0 failedBinding 1 failedInventory

theorem validUnitName_failedService : validUnitName failedService.unit = true := by decide

/-- The inventory is published, and the id of the failed service is resolved a minute later. -/
def failedHistory : List ObservationEvent :=
  [.beginRequest ⟨1⟩ (.ok 1), .publish failedBinding 1 failedInventory 0 publication.1,
    .resolve .resetFailed ⟨0⟩ failedBinding (Duration.fromSecs 60)
      (.ok ⟨"ssh.service", validUnitName_failedService⟩)]

theorem resolveFor_publication : publication.2.resolveFor .resetFailed ⟨0⟩ failedBinding
    (Duration.fromSecs 60) = (.ok ⟨"ssh.service", by decide⟩,
      publication.2.removeExpired (Duration.fromSecs 60)) := by
  have hok : publication.1.toBool = true := by decide +kernel
  cases hresult : publication.1 with
  | error e =>
    rw [hresult] at hok
    nomatch hok
  | ok result =>
    have hpublish : requestedState.publish (fun n => ⟨n⟩) [] 0 failedBinding 1 failedInventory =
        (.ok (result.1, result.2), publication.2) := Prod.ext hresult rfl
    obtain ⟨-, -, -, -, -, hobservations, -, -, hget, -⟩ := ObservationState.publish_eq_ok hpublish
    refine ObservationState.resolveFor_eq_ok hget ?_ rfl ?_
    · change Duration.fromSecs 60 < 0 + SERVICE_OBSERVATION_TTL
      decide
    · rw [hobservations]
      decide +kernel

theorem run_failedHistory : machine.Run failedHistory
    ⟨publication.2.removeExpired (Duration.fromSecs 60), {⟨0⟩}⟩ := by
  have hbegin : machine.step ⟨.default, ∅⟩ failedHistory[0] ⟨requestedState, ∅⟩ :=
    ⟨rfl, Finset.disjoint_empty_left _, rfl⟩
  have hpublish : machine.step ⟨requestedState, ∅⟩ failedHistory[1] ⟨publication.2, {⟨0⟩}⟩ :=
    ⟨⟨fun n => ⟨n⟩, [], Prod.mk.eta.symm⟩, Finset.disjoint_empty_right _, by decide +kernel⟩
  have hresolve : machine.step ⟨publication.2, {⟨0⟩}⟩ failedHistory[2]
      ⟨publication.2.removeExpired (Duration.fromSecs 60), {⟨0⟩}⟩ :=
    ⟨resolveFor_publication, Finset.disjoint_empty_left _, rfl⟩
  exact (((Machine.Run.nil rfl).snoc hbegin).snoc hpublish).snoc hresolve

theorem observations_failedHistory : Resolved (failedHistory.take 2) .resetFailed ⟨0⟩ failedBinding
    (Duration.fromSecs 60) ⟨"ssh.service", by decide⟩ :=
  (observations_of_run run_failedHistory).1 _ [] _ _ _ _ _ rfl

end ObservationStore

end NexusOps.Core
